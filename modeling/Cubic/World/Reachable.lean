import Cubic.Lib.Run
import Cubic.World.Atomicity

/-!
# The world states that calls can reach
-/

namespace Cubic.OrderedMap

set_option autoImplicit false

variable {κ ν : Type} [LinearOrder κ] {m n : OrderedMap κ ν}

/-- Maps with the same keys have one size. -/
theorem size_eq_of_isSome (h : ∀ k, (m.lookup k).isSome = (n.lookup k).isSome) :
    m.size = n.size := by
  have hperm : m.keys.Perm n.keys := by
    rw [List.perm_ext_iff_of_nodup m.keys_nodup n.keys_nodup]
    intro k
    rw [mem_keys_iff, mem_keys_iff, h k]
  have hlength := hperm.length_eq
  unfold keys at hlength
  rw [List.length_map, List.length_map] at hlength
  exact hlength

theorem size_remove_le (m : OrderedMap κ ν) (k : κ) : (m.remove k).size ≤ m.size :=
  List.length_filter_le _ _

end Cubic.OrderedMap

namespace Cubic.World

set_option autoImplicit false

open Mut

variable {Rest : Type} {s t : WorldState Rest}

/-! ### The calls that check, when they succeed -/

namespace WorldState

theorem require_eq_ok {lifecycle : WorldLifecycle} {event : String} {u : Unit} :
    require lifecycle event s = .ok u t ↔ s.lifecycle = lifecycle ∧ t = s := by
  unfold require
  rw [get_bind]
  split
  · rename_i hne
    exact iff_of_false nofun fun h => hne h.1
  · rename_i heq
    rw [not_not] at heq
    rw [and_iff_right heq]
    change Outcome.ok () s = _ ↔ _
    rw [Outcome.ok.injEq, eq_comm (a := s)]
    exact and_iff_right rfl

theorem activeMut_eq_ok {event : String} {session : WorldSession} :
    activeMut event s = .ok session t ↔
      s.lifecycle = .active ∧ s.session = some session ∧ t = s := by
  unfold activeMut
  rw [get_bind]
  split
  · rename_i hne
    exact iff_of_false nofun fun h => hne h.1
  · rename_i heq
    rw [not_not] at heq
    rw [okOr_eq_ok, and_iff_right heq]

theorem geometry_eq_ok {rawId : UInt32} {g : DimensionGeometry} :
    geometry rawId s = .ok g t ↔
      (s.dimensionTypes.find? fun d => d.rawId = rawId).map (·.geometry) = some g ∧ t = s := by
  unfold geometry
  rw [get_bind, okOr_eq_ok]

theorem editSession_eq_ok {event : String} {f : WorldSession → WorldSession} {u : Unit} :
    editSession event f s = .ok u t ↔ s.lifecycle = .active ∧ ∃ session,
      s.session = some session ∧ t = { s with session := some (f session) } := by
  unfold editSession
  rw [bind_eq_ok]
  constructor
  · rintro ⟨session, s', hactive, hmodify⟩
    obtain ⟨hactive, hsession, rfl⟩ := activeMut_eq_ok.mp hactive
    cases hmodify
    exact ⟨hactive, session, hsession, rfl⟩
  · rintro ⟨hactive, session, hsession, rfl⟩
    exact ⟨session, s, activeMut_eq_ok.mpr ⟨hactive, hsession, rfl⟩, rfl⟩

end WorldState

/-! ### The invariant -/

structure WorldState.Coherent (s : WorldState Rest) : Prop where
  session_iff : s.session.isSome ↔ s.lifecycle = .active
  inactive : s.lifecycle ≠ .active → s.chunks = OrderedMap.empty
  bounded : s.chunks.size ≤ maxLoadedChunks
  keyed : ∀ coordinate chunk, s.chunks.lookup coordinate = some chunk →
    chunk.coordinate = coordinate
  validated : ∀ d ∈ s.dimensionTypes, validateDimensionGeometry d.geometry = .ok ()
  installed : ∀ session, s.session = some session → ∃ d ∈ s.dimensionTypes,
    d.rawId = session.spawnContext.dimensionType.rawId ∧ d.geometry = session.dimensionGeometry
  aligned : ∀ session position, s.session = some session → session.position = some position →
    session.rotation = some ⟨position.yaw, position.pitch⟩

namespace WorldState

/-- The teleport id the next one has to exceed. -/
def lastTeleport (s : WorldState Rest) : Option Int32 := s.session.bind (·.lastTeleportId)

/-- Without a session, chunks and dimension types there is little to ask for. -/
theorem coherent_of_none (hlifecycle : s.lifecycle ≠ .active) (hsession : s.session = none)
    (hchunks : s.chunks = OrderedMap.empty) (hdimensions : s.dimensionTypes = []) :
    s.Coherent := by
  refine ⟨?_, fun _ => hchunks, ?_, ?_, ?_, ?_, ?_⟩
  · rw [hsession]
    exact iff_of_false Bool.false_ne_true hlifecycle
  · rw [hchunks]
    exact Nat.zero_le _
  · intro coordinate chunk hchunk
    rw [hchunks] at hchunk
    cases hchunk
  · intro d hd
    rw [hdimensions] at hd
    cases hd
  · intro session h
    cases hsession.symm.trans h
  · intro session position h
    cases hsession.symm.trans h

theorem coherent_new : (new : WorldState Rest).Coherent :=
  coherent_of_none WorldLifecycle.noConfusion rfl rfl rfl

theorem Coherent.ofRevision (h : s.Coherent) (revision : UInt64) :
    Coherent { s with revision := revision } :=
  ⟨h.session_iff, h.inactive, h.bounded, h.keyed, h.validated, h.installed, h.aligned⟩

theorem Coherent.clearContents (h : s.Coherent) : (clearContents s).Coherent :=
  ⟨h.session_iff, fun _ => rfl, Nat.zero_le _, nofun, h.validated, h.installed, h.aligned⟩

theorem coherent_clearConnection {lifecycle : WorldLifecycle} (h : lifecycle ≠ .active)
    (s : WorldState Rest) : (clearConnection lifecycle s).Coherent :=
  coherent_of_none h rfl rfl rfl

/-- Other chunks, few enough and each under its own coordinate. -/
theorem Coherent.ofChunks (h : s.Coherent) (hactive : s.lifecycle = .active)
    {chunks : LoadedChunks} (hbounded : chunks.size ≤ maxLoadedChunks)
    (hkeyed : ∀ coordinate chunk, chunks.lookup coordinate = some chunk →
      chunk.coordinate = coordinate) : Coherent { s with chunks := chunks } :=
  ⟨h.session_iff, fun hne => absurd hactive hne, hbounded, hkeyed, h.validated, h.installed,
    h.aligned⟩

/-- Another session, of an installed dimension type and with its transform aligned. -/
theorem Coherent.ofSession (h : s.Coherent) (hactive : s.lifecycle = .active)
    {session : WorldSession}
    (hinstalled : ∃ d ∈ s.dimensionTypes, d.rawId = session.spawnContext.dimensionType.rawId ∧
      d.geometry = session.dimensionGeometry)
    (haligned : ∀ position, session.position = some position →
      session.rotation = some ⟨position.yaw, position.pitch⟩) :
    Coherent { s with session := some session } := by
  refine ⟨iff_of_true rfl hactive, h.inactive, h.bounded, h.keyed, h.validated, ?_, ?_⟩
  · intro session' hsession
    cases hsession
    exact hinstalled
  · intro session' position hsession hposition
    cases hsession
    exact haligned position hposition

/-- What a batch of updates leaves. -/
theorem Coherent.ofBatch (h : s.Coherent) (hactive : s.lifecycle = .active)
    {geometry : DimensionGeometry} {updates : List BlockStateUpdate} {progress : BlockUpdateProgress}
    (hbatch : Batch geometry s.chunks updates progress) :
    Coherent { s with chunks := progress.chunks } := by
  have hsome : ∀ coordinate, (progress.chunks.lookup coordinate).isSome =
      (s.chunks.lookup coordinate).isSome := by
    intro coordinate
    have houtline := congrArg Option.isSome (hbatch.outline coordinate)
    unfold LoadedChunks.outline at houtline
    rw [Option.isSome_map, Option.isSome_map] at houtline
    exact houtline
  apply h.ofChunks hactive
  · rw [OrderedMap.size_eq_of_isSome hsome]
    exact h.bounded
  · intro coordinate chunk hchunk
    have houtline := hbatch.outline coordinate
    unfold LoadedChunks.outline at houtline
    rw [hchunk] at houtline
    obtain ⟨chunk', hchunk', hbare⟩ := Option.map_eq_some_iff.mp houtline.symm
    exact (congrArg Chunk.coordinate hbare).symm.trans (h.keyed coordinate chunk' hchunk')

/-- A loaded chunk gives way to one of the same coordinate. -/
theorem Coherent.ofReplaced (h : s.Coherent) (hactive : s.lifecycle = .active)
    {coordinate : ChunkCoordinate} {chunk chunk' : Chunk}
    (hchunk : s.chunks.lookup coordinate = some chunk) (hsame : chunk'.coordinate = chunk.coordinate) :
    Coherent { s with chunks := OrderedMap.insert s.chunks coordinate chunk' } := by
  apply h.ofChunks hactive
  · rw [OrderedMap.size_insert, hchunk]
    exact h.bounded
  · intro coordinate' chunk'' hlookup
    rw [OrderedMap.lookup_insert] at hlookup
    split at hlookup
    · rename_i heq
      cases hlookup
      rw [heq, hsame]
      exact h.keyed coordinate chunk hchunk
    · exact h.keyed coordinate' chunk'' hlookup

/-! ### Events -/

/-- How an event that succeeds moves the last teleport id. -/
def Follows (event : WorldEvent) (s t : WorldState Rest) : Prop :=
  match event with
  | .beginConfiguration => t.lastTeleport = none
  | .enterWorld _ => t.lastTeleport = none
  | .disconnect => t.lastTeleport = none
  | .synchronizePlayerPosition update => t.lastTeleport = some update.teleportId ∧
      ∀ last, s.lastTeleport = some last → last < update.teleportId
  | _ => t.lastTeleport = s.lastTeleport

/-- What is known of an event that succeeds. -/
structure Handled (event : WorldEvent) (s t : WorldState Rest) : Prop where
  coherent : t.Coherent
  revision : t.revision = s.revision
  follows : Follows event s t

variable {event : WorldEvent} {r : ResetScope × Bool}

/-- An edit that leaves dimension, transform and teleport id alone. -/
theorem Coherent.edit (h : s.Coherent) {name : String} {f : WorldSession → WorldSession}
    {a : ResetScope × Bool}
    (hrun : (editSession name f >>= fun _ => pure a : WorldM Rest _) s = .ok r t)
    (hdimension : ∀ session, (f session).spawnContext.dimensionType =
      session.spawnContext.dimensionType ∧ (f session).dimensionGeometry = session.dimensionGeometry)
    (htransform : ∀ session, (f session).position = session.position ∧
      (f session).rotation = session.rotation ∧
      (f session).lastTeleportId = session.lastTeleportId)
    (hfollows : t.lastTeleport = s.lastTeleport → Follows event s t) : Handled event s t := by
  obtain ⟨_, s', hedit, hpure⟩ := bind_eq_ok.mp hrun
  obtain ⟨hactive, session, hsession, rfl⟩ := editSession_eq_ok.mp hedit
  cases hpure
  obtain ⟨htype, hgeometry⟩ := hdimension session
  obtain ⟨hposition, hrotation, hteleport⟩ := htransform session
  refine ⟨h.ofSession hactive ?_ ?_, rfl, hfollows ?_⟩
  · rw [htype, hgeometry]
    exact h.installed session hsession
  · rw [hposition, hrotation]
    exact fun position => h.aligned session position hsession
  · unfold lastTeleport
    rw [hsession]
    exact hteleport

theorem forM_eq_ok {α : Type} {f : α → Except WorldError Unit} {xs : List α} :
    xs.forM f = .ok () ↔ ∀ x ∈ xs, f x = .ok () := by
  induction xs with
  | nil => exact iff_of_true rfl fun _ h => absurd h List.not_mem_nil
  | cons x rest ih =>
    change (f x >>= fun _ => rest.forM f) = .ok () ↔ _
    rw [except_bind_eq_ok, List.forall_mem_cons, ← ih]
    constructor
    · rintro ⟨_, hx, hrest⟩
      exact ⟨hx, hrest⟩
    · rintro ⟨hx, hrest⟩
      exact ⟨(), hx, hrest⟩

theorem validateDimensions_ok {dimensions : List RuntimeDimensionType}
    (h : validateDimensions dimensions = .ok ()) :
    ∀ d ∈ dimensions, validateDimensionGeometry d.geometry = .ok () := by
  obtain ⟨_, hall, _⟩ := except_bind_eq_ok.mp h
  exact forM_eq_ok.mp hall

theorem checkTeleport_ok {lastTeleportId : Option Int32} {teleportId : Int32}
    (h : checkTeleport lastTeleportId teleportId = .ok ()) (last : Int32)
    (hlast : lastTeleportId = some last) : last < teleportId := by
  unfold checkTeleport at h
  split at h
  · cases h
  · rw [hlast] at h
    dsimp only at h
    split at h
    · cases h
    · rename_i hle
      exact not_le.mp hle

theorem applyPosition_ok {sums : FloatSums} {current : Option AuthoritativeTransform}
    {rotation : Option AuthoritativeRotation} {lastTeleportId : Option Int32}
    {update : PlayerPositionUpdate} {result : AuthoritativeTransform}
    (h : applyPosition sums current rotation lastTeleportId update = .ok result) :
    result.teleportId = update.teleportId ∧
      ∀ last, lastTeleportId = some last → last < update.teleportId := by
  obtain ⟨_, hcheck, h⟩ := except_bind_eq_ok.mp h
  obtain ⟨_, _, h⟩ := except_bind_eq_ok.mp h
  obtain ⟨x, _, h⟩ := except_bind_eq_ok.mp h
  obtain ⟨y, _, h⟩ := except_bind_eq_ok.mp h
  obtain ⟨z, _, h⟩ := except_bind_eq_ok.mp h
  obtain ⟨yaw, _, h⟩ := except_bind_eq_ok.mp h
  obtain ⟨pitch, _, h⟩ := except_bind_eq_ok.mp h
  refine ⟨?_, checkTeleport_ok hcheck⟩
  dsimp only at h
  split at h
  · cases h
    rfl
  · cases h

theorem find?_geometry {dimensions : List RuntimeDimensionType} {rawId : UInt32}
    {g : DimensionGeometry}
    (h : (dimensions.find? fun d => d.rawId = rawId).map (·.geometry) = some g) :
    ∃ d ∈ dimensions, d.rawId = rawId ∧ d.geometry = g := by
  obtain ⟨d, hfind, hgeometry⟩ := Option.map_eq_some_iff.mp h
  have hid := List.find?_some hfind
  exact ⟨d, List.mem_of_find?_eq_some hfind, of_decide_eq_true hid, hgeometry⟩

theorem respawned_cases (session : WorldSession) (respawn : Respawn) (g : DimensionGeometry) :
    (respawned session respawn g).spawnContext = respawn.spawn ∧
      (respawned session respawn g).dimensionGeometry = g ∧
      (respawned session respawn g).position = none ∧
      (respawned session respawn g).lastTeleportId = session.lastTeleportId := by
  unfold respawned
  dsimp only
  split <;> exact ⟨rfl, rfl, rfl, rfl⟩

theorem insert_ok {chunks chunks' : LoadedChunks} {chunk : Chunk}
    (h : chunks.insert chunk = .ok chunks') (hbounded : chunks.size ≤ maxLoadedChunks) :
    chunks' = OrderedMap.insert chunks chunk.coordinate chunk ∧
      chunks'.size ≤ maxLoadedChunks := by
  unfold LoadedChunks.insert at h
  split at h
  · cases h
  · rename_i hroom
    cases h
    refine ⟨rfl, ?_⟩
    rw [OrderedMap.size_insert]
    split
    · exact hbounded
    · rename_i habsent
      by_contra hfull
      exact hroom ⟨Option.isNone_iff_eq_none.mpr (Option.not_isSome_iff_eq_none.mp habsent),
        Nat.le_of_not_lt hfull⟩

theorem Coherent.handled (h : s.Coherent) {sums : FloatSums}
    (hrun : handle sums event s = .ok r t) : Handled event s t := by
  cases event with
  | beginConfiguration =>
    cases hrun
    exact ⟨coherent_clearConnection WorldLifecycle.noConfusion s, rfl, rfl⟩
  | disconnect =>
    cases hrun
    exact ⟨coherent_clearConnection WorldLifecycle.noConfusion s, rfl, rfl⟩
  | runtimeRegistries registries =>
    obtain ⟨_, s₁, hrequire, hrun₁⟩ := bind_eq_ok.mp hrun
    obtain ⟨hconfiguring, rfl⟩ := require_eq_ok.mp hrequire
    obtain ⟨_, s₂, hvalid, hrun₂⟩ := bind_eq_ok.mp hrun₁
    obtain ⟨_, rfl⟩ := ofExcept_eq_ok.mp hvalid
    cases hrun₂
    exact ⟨⟨h.session_iff, h.inactive, h.bounded, h.keyed, h.validated, h.installed, h.aligned⟩,
      rfl, rfl⟩
  | runtimeDimensionTypes dimensions =>
    obtain ⟨_, s₁, hrequire, hrun₁⟩ := bind_eq_ok.mp hrun
    obtain ⟨hconfiguring, rfl⟩ := require_eq_ok.mp hrequire
    obtain ⟨_, s₂, hvalid, hrun₂⟩ := bind_eq_ok.mp hrun₁
    obtain ⟨hchecked, rfl⟩ := ofExcept_eq_ok.mp hvalid
    cases hrun₂
    refine ⟨⟨h.session_iff, h.inactive, h.bounded, h.keyed, validateDimensions_ok hchecked, ?_,
      h.aligned⟩, rfl, rfl⟩
    intro session hsession
    have hactive := h.session_iff.mp (Option.isSome_of_eq_some hsession)
    cases hconfiguring.symm.trans hactive
  | runtimeBiomes biomes =>
    obtain ⟨_, s₁, hrequire, hrun₁⟩ := bind_eq_ok.mp hrun
    obtain ⟨hconfiguring, rfl⟩ := require_eq_ok.mp hrequire
    obtain ⟨_, s₂, hvalid, hrun₂⟩ := bind_eq_ok.mp hrun₁
    obtain ⟨_, rfl⟩ := ofExcept_eq_ok.mp hvalid
    cases hrun₂
    exact ⟨⟨h.session_iff, h.inactive, h.bounded, h.keyed, h.validated, h.installed, h.aligned⟩,
      rfl, rfl⟩
  | enterWorld enter =>
    obtain ⟨_, s₁, hrequire, hrun₁⟩ := bind_eq_ok.mp hrun
    obtain ⟨_, rfl⟩ := require_eq_ok.mp hrequire
    obtain ⟨_, s₂, hvalid, hrun₂⟩ := bind_eq_ok.mp hrun₁
    obtain ⟨_, rfl⟩ := ofExcept_eq_ok.mp hvalid
    obtain ⟨g, s₃, hlookup, hrun₃⟩ := bind_eq_ok.mp hrun₂
    obtain ⟨hgeometry, rfl⟩ := geometry_eq_ok.mp hlookup
    cases hrun₃
    refine ⟨⟨iff_of_true rfl rfl, fun _ => rfl, Nat.zero_le _, nofun, h.validated, ?_, ?_⟩, rfl, rfl⟩
    · intro session hsession
      cases hsession
      exact find?_geometry hgeometry
    · intro session position hsession hposition
      cases hsession
      cases hposition
  | respawn respawn =>
    obtain ⟨_, s₁, hvalid, hrun₁⟩ := bind_eq_ok.mp hrun
    obtain ⟨_, rfl⟩ := ofExcept_eq_ok.mp hvalid
    obtain ⟨g, s₂, hlookup, hrun₂⟩ := bind_eq_ok.mp hrun₁
    obtain ⟨hgeometry, rfl⟩ := geometry_eq_ok.mp hlookup
    obtain ⟨session, s₃, hsome, hrun₃⟩ := bind_eq_ok.mp hrun₂
    obtain ⟨hactive, hsession, rfl⟩ := activeMut_eq_ok.mp hsome
    cases hrun₃
    obtain ⟨hspawn, hg, hposition, hteleport⟩ := respawned_cases session respawn g
    refine ⟨Coherent.clearContents (h.ofSession hactive ?_ ?_), rfl, ?_⟩
    · rw [hspawn, hg]
      exact find?_geometry hgeometry
    · rw [hposition]
      exact nofun
    · unfold Follows lastTeleport
      change (respawned session respawn g).lastTeleportId = _
      rw [hteleport, hsession]
      rfl
  | synchronizePlayerPosition update =>
    obtain ⟨session, s₁, hsome, hrun₁⟩ := bind_eq_ok.mp hrun
    obtain ⟨hactive, hsession, rfl⟩ := activeMut_eq_ok.mp hsome
    obtain ⟨position, s₂, hposition, hrun₂⟩ := bind_eq_ok.mp hrun₁
    obtain ⟨happlied, rfl⟩ := ofExcept_eq_ok.mp hposition
    cases hrun₂
    obtain ⟨hteleport, hnewer⟩ := applyPosition_ok happlied
    refine ⟨h.ofSession hactive (h.installed session hsession) ?_, rfl, ?_, ?_⟩
    · intro position' hposition'
      cases hposition'
      rfl
    · exact congrArg some hteleport
    · unfold lastTeleport
      rw [hsession]
      exact hnewer
  | synchronizePlayerRotation update =>
    obtain ⟨session, s₁, hsome, hrun₁⟩ := bind_eq_ok.mp hrun
    obtain ⟨hactive, hsession, rfl⟩ := activeMut_eq_ok.mp hsome
    obtain ⟨rotation, s₂, hrotation, hrun₂⟩ := bind_eq_ok.mp hrun₁
    obtain ⟨_, rfl⟩ := ofExcept_eq_ok.mp hrotation
    cases hrun₂
    refine ⟨h.ofSession hactive (h.installed session hsession) ?_, rfl, ?_⟩
    · intro position hposition
      obtain ⟨before, _, rfl⟩ := Option.map_eq_some_iff.mp hposition
      rfl
    · unfold Follows lastTeleport
      change session.lastTeleportId = _
      rw [hsession]
      rfl
  | setSpawn spawn =>
    obtain ⟨_, s₁, hvalid, hrun₁⟩ := bind_eq_ok.mp hrun
    obtain ⟨_, rfl⟩ := ofExcept_eq_ok.mp hvalid
    apply h.edit hrun₁
    · exact fun _ => ⟨rfl, rfl⟩
    · exact fun _ => ⟨rfl, rfl, rfl⟩
    · exact id
  | setTime time =>
    obtain ⟨_, s₁, hvalid, hrun₁⟩ := bind_eq_ok.mp hrun
    obtain ⟨_, rfl⟩ := ofExcept_eq_ok.mp hvalid
    apply h.edit hrun₁
    · exact fun _ => ⟨rfl, rfl⟩
    · exact fun _ => ⟨rfl, rfl, rfl⟩
    · exact id
  | setDifficulty difficulty locked =>
    apply h.edit hrun
    · exact fun _ => ⟨rfl, rfl⟩
    · exact fun _ => ⟨rfl, rfl, rfl⟩
    · exact id
  | setRaining raining =>
    apply h.edit hrun
    · exact fun _ => ⟨rfl, rfl⟩
    · exact fun _ => ⟨rfl, rfl, rfl⟩
    · exact id
  | setRainLevel level =>
    obtain ⟨_, s₁, hvalid, hrun₁⟩ := bind_eq_ok.mp hrun
    obtain ⟨_, rfl⟩ := ofExcept_eq_ok.mp hvalid
    apply h.edit hrun₁
    · exact fun _ => ⟨rfl, rfl⟩
    · exact fun _ => ⟨rfl, rfl, rfl⟩
    · exact id
  | setThunderLevel level =>
    obtain ⟨_, s₁, hvalid, hrun₁⟩ := bind_eq_ok.mp hrun
    obtain ⟨_, rfl⟩ := ofExcept_eq_ok.mp hvalid
    apply h.edit hrun₁
    · exact fun _ => ⟨rfl, rfl⟩
    · exact fun _ => ⟨rfl, rfl, rfl⟩
    · exact id
  | setGameMode mode =>
    apply h.edit hrun
    · exact fun _ => ⟨rfl, rfl⟩
    · exact fun _ => ⟨rfl, rfl, rfl⟩
    · exact id
  | setWorldBorder border =>
    obtain ⟨_, s₁, hvalid, hrun₁⟩ := bind_eq_ok.mp hrun
    obtain ⟨_, rfl⟩ := ofExcept_eq_ok.mp hvalid
    apply h.edit hrun₁
    · exact fun _ => ⟨rfl, rfl⟩
    · exact fun _ => ⟨rfl, rfl, rfl⟩
    · exact id
  | loadChunk chunk =>
    obtain ⟨_, s₁, hrequire, hrun₁⟩ := bind_eq_ok.mp hrun
    obtain ⟨hactive, rfl⟩ := require_eq_ok.mp hrequire
    rw [get_bind] at hrun₁
    obtain ⟨chunks, s₂, hinsert, hrun₂⟩ := bind_eq_ok.mp hrun₁
    obtain ⟨hroom, rfl⟩ := ofExcept_eq_ok.mp (mapErr_eq_ok.mp hinsert)
    cases hrun₂
    obtain ⟨hchunks, hbounded⟩ := insert_ok hroom h.bounded
    refine ⟨h.ofChunks hactive hbounded ?_, rfl, rfl⟩
    intro coordinate chunk' hchunk'
    rw [hchunks, OrderedMap.lookup_insert] at hchunk'
    split at hchunk'
    · rename_i heq
      cases hchunk'
      exact heq.symm
    · exact h.keyed coordinate chunk' hchunk'
  | unloadChunk coordinate =>
    obtain ⟨_, s₁, hrequire, hrun₁⟩ := bind_eq_ok.mp hrun
    obtain ⟨hactive, rfl⟩ := require_eq_ok.mp hrequire
    cases hrun₁
    refine ⟨h.ofChunks hactive ((OrderedMap.size_remove_le _ _).trans h.bounded) ?_, rfl, rfl⟩
    intro coordinate' chunk hchunk
    rw [OrderedMap.lookup_remove] at hchunk
    split at hchunk
    · cases hchunk
    · exact h.keyed coordinate' chunk hchunk
  | updateChunkLight coordinate light =>
    obtain ⟨_, s₁, hrequire, hrun₁⟩ := bind_eq_ok.mp hrun
    obtain ⟨hactive, rfl⟩ := require_eq_ok.mp hrequire
    cases hrun₁
    refine ⟨?_, rfl, rfl⟩
    unfold LoadedChunks.updateLight
    dsimp only
    cases hchunk : s₁.chunks.lookup coordinate with
    | none => exact h
    | some chunk => exact h.ofReplaced hactive hchunk rfl

theorem checkedAddU64_one {a b : UInt64} (h : checkedAddU64 a 1 = some b) :
    b.toNat = a.toNat + 1 := by
  unfold checkedAddU64 at h
  split at h
  · rename_i hlt
    change a.toNat + 1 < 2 ^ 64 at hlt
    cases h
    rw [UInt64.toNat_add]
    exact Nat.mod_eq_of_lt hlt
  · cases h

/-- An event that succeeds keeps the invariant and draws the next revision. -/
theorem Coherent.applied (h : s.Coherent) {sums : FloatSums} {event : WorldEvent}
    {transition : WorldTransition} (hrun : apply sums event s = .ok transition t) :
    t.Coherent ∧ Follows event s t ∧ t.revision.toNat = s.revision.toNat + 1 ∧
      transition.revision = t.revision := by
  unfold apply at hrun
  rw [get_bind] at hrun
  obtain ⟨revision, s₁, hrevision, hrun₁⟩ := bind_eq_ok.mp hrun
  obtain ⟨hnext, rfl⟩ := okOr_eq_ok.mp hrevision
  obtain ⟨r, u, hhandle, hrun₂⟩ := bind_eq_ok.mp hrun₁
  have hhandled := h.handled hhandle
  cases hrun₂
  refine ⟨hhandled.coherent.ofRevision revision, ?_, checkedAddU64_one hnext, rfl⟩
  exact hhandled.follows

/-- However a call ends, the state it leaves is coherent and the last teleport id stays. -/
def keepsCoherent {α : Type} (s : WorldState Rest) : Post WorldError (WorldState Rest) α :=
  Post.keeps fun t => t.Coherent ∧ t.lastTeleport = s.lastTeleport

theorem Coherent.committed {chunks : LoadedChunks} (hchunks : Coherent { s with chunks := chunks })
    (changed : List ChunkCoordinate) (ignored : Nat) :
    wp (commit chunks changed ignored) (keepsCoherent s) s := by
  unfold wp
  rcases commit_cases s chunks changed ignored with ⟨_, hrun⟩ | ⟨_, _, hrun⟩ | ⟨_, _, hrun⟩
  · rw [hrun]
    exact ⟨hchunks, rfl⟩
  · rw [hrun]
    exact ⟨hchunks, rfl⟩
  · rw [hrun]
    exact ⟨hchunks.ofRevision (s.revision + 1), rfl⟩

theorem Coherent.blocksUpdated (h : s.Coherent) (updates : List BlockStateUpdate) :
    wp (applyBlockUpdates updates) (keepsCoherent s) s := by
  rcases s.applyBlockUpdates_cases updates with ⟨_, e, hrun⟩ | ⟨session, progress, haccepts, hbatch,
    hrun⟩
  · unfold wp
    rw [hrun]
    exact ⟨h, rfl⟩
  · unfold wp
    rw [hrun]
    exact (h.ofBatch haccepts.1 hbatch).committed _ _

theorem Coherent.blockEntityUpdated (h : s.Coherent) (position : BlockCoordinates)
    (typeRawId : UInt32) (data : BlockEntityData) :
    wp (applyBlockEntityUpdate position typeRawId data) (keepsCoherent s) s := by
  rcases s.applyBlockEntityUpdate_cases position typeRawId data with
    ⟨_, e, hrun⟩ | ⟨_, _, hrun⟩ | ⟨hactive, place, _, hrun⟩
  · unfold wp
    rw [hrun]
    exact ⟨h, rfl⟩
  · unfold wp
    rw [hrun]
    exact ⟨h, rfl⟩
  · unfold wp
    rw [hrun]
    dsimp only
    refine Coherent.committed ?_ _ _
    cases hchunk : s.chunks.lookup (chunkOf position) with
    | none =>
      rw [updateBlockEntity_none hchunk]
      exact h
    | some chunk =>
      rw [updateBlockEntity_some hchunk]
      exact h.ofReplaced hactive hchunk rfl

end WorldState

/-! ### Runs of calls -/

/-- A world state, with the teleport ids accepted since the last event that drops them. -/
structure History (Rest : Type) where
  state : WorldState Rest
  teleports : List Int32

/-- The teleport ids accepted once a call succeeds. -/
def WorldCall.teleports (accepted : List Int32) : WorldCall → List Int32
  | apply .beginConfiguration => []
  | apply (.enterWorld _) => []
  | apply .disconnect => []
  | apply (.synchronizePlayerPosition update) => accepted ++ [update.teleportId]
  | _ => accepted

def History.next (sums : FloatSums) (h : History Rest) (call : WorldCall) : Option (History Rest) :=
  match call.run sums h.state with
  | .ok _ t => some ⟨t, call.teleports h.teleports⟩
  | .err _ t => some ⟨t, h.teleports⟩
  | .panic => none

/-- The state is coherent, and the accepted teleport ids ascend to its last one. -/
structure History.Sound (h : History Rest) : Prop where
  coherent : h.state.Coherent
  ascending : h.teleports.Pairwise (· < ·)
  last : h.teleports.getLast? = h.state.lastTeleport

theorem pairwise_concat {xs : List Int32} {a : Int32} (h : xs.Pairwise (· < ·))
    (hlast : ∀ last, xs.getLast? = some last → last < a) : (xs ++ [a]).Pairwise (· < ·) := by
  refine List.pairwise_append.mpr ⟨h, List.pairwise_singleton _ _, ?_⟩
  intro x hx b hb
  obtain rfl := List.mem_singleton.mp hb
  rcases List.eq_nil_or_concat' xs with rfl | ⟨before, last, rfl⟩
  · cases hx
  · have hlt := hlast last List.getLast?_concat
    rcases List.mem_append.mp hx with hx | hx
    · exact ((List.pairwise_append.mp h).2.2 x hx last (List.mem_singleton_self _)).trans hlt
    · obtain rfl := List.mem_singleton.mp hx
      exact hlt

theorem History.Sound.kept {h : History Rest} (hsound : h.Sound) {t : WorldState Rest}
    (ht : t.Coherent ∧ t.lastTeleport = h.state.lastTeleport) : (⟨t, h.teleports⟩ : History Rest).Sound :=
  ⟨ht.1, hsound.ascending, hsound.last.trans ht.2.symm⟩

/-- A call that keeps the last teleport id keeps the accepted ones. -/
theorem History.Sound.next_of_keeps {sums : FloatSums} {h h' : History Rest} {call : WorldCall}
    (hsound : h.Sound) (hkeeps : wp (call.run sums) (WorldState.keepsCoherent h.state) h.state)
    (hteleports : call.teleports h.teleports = h.teleports)
    (hnext : h.next sums call = some h') : h'.Sound := by
  unfold History.next at hnext
  unfold wp at hkeeps
  cases hrun : call.run sums h.state with
  | ok reply t =>
    rw [hrun] at hnext hkeeps
    cases hnext
    rw [hteleports]
    exact hsound.kept hkeeps
  | err e t =>
    rw [hrun] at hnext hkeeps
    cases hnext
    exact hsound.kept hkeeps
  | panic =>
    rw [hrun] at hnext
    cases hnext

theorem History.Sound.next {sums : FloatSums} {h h' : History Rest} {call : WorldCall}
    (hsound : h.Sound) (hnext : h.next sums call = some h') : h'.Sound := by
  cases call with
  | apply event =>
    unfold History.next at hnext
    cases hrun : (WorldCall.apply event).run sums h.state with
    | ok reply t =>
      rw [hrun] at hnext
      cases hnext
      obtain ⟨transition, t', happly, hpure⟩ := bind_eq_ok.mp hrun
      cases hpure
      obtain ⟨hcoherent, hfollows, _⟩ := hsound.coherent.applied happly
      cases event with
      | beginConfiguration => exact ⟨hcoherent, List.Pairwise.nil, hfollows.symm⟩
      | enterWorld enter => exact ⟨hcoherent, List.Pairwise.nil, hfollows.symm⟩
      | disconnect => exact ⟨hcoherent, List.Pairwise.nil, hfollows.symm⟩
      | synchronizePlayerPosition update =>
        refine ⟨hcoherent, pairwise_concat hsound.ascending ?_, ?_⟩
        · rw [hsound.last]
          exact hfollows.2
        · exact List.getLast?_concat.trans hfollows.1.symm
      | _ => exact hsound.kept ⟨hcoherent, hfollows⟩
    | err e t =>
      rw [hrun] at hnext
      cases hnext
      have hsame : t = h.state :=
        err_of_wp (WorldState.guarded_apply sums event h.state) (bind_pure_eq_err.mp hrun)
      exact hsound.kept ⟨hsame ▸ hsound.coherent, congrArg _ hsame⟩
    | panic =>
      rw [hrun] at hnext
      cases hnext
  | applyBlockUpdates updates =>
    refine hsound.next_of_keeps ((wp_bind _ _).mpr ?_) rfl hnext
    exact hsound.coherent.blocksUpdated updates
  | applyBlockEntityUpdate position typeRawId data =>
    refine hsound.next_of_keeps ((wp_bind _ _).mpr ?_) rfl hnext
    exact hsound.coherent.blockEntityUpdated position typeRawId data

/-- Over every run of calls from a new world state: it is coherent, an event that succeeds
draws the next revision, and the teleport ids accepted between two events that drop them
ascend. -/
theorem reachable_coherent (sums : FloatSums) (calls : List WorldCall) (h : History Rest)
    (hrun : Run (fun h call h' => h.next sums call = some h') ⟨WorldState.new, []⟩ calls h) :
    h.state.Coherent ∧
      (∀ session, h.state.session = some session →
        validateDimensionGeometry session.dimensionGeometry = .ok ()) ∧
      (∀ event transition t, WorldState.apply sums event h.state = .ok transition t →
        t.revision.toNat = h.state.revision.toNat + 1 ∧ transition.revision = t.revision) ∧
      h.teleports.Pairwise (· < ·) := by
  have hsound : h.Sound := by
    refine hrun.invariant ?_ ⟨WorldState.coherent_new, List.Pairwise.nil, rfl⟩
    intro h call h' hsound hnext
    exact hsound.next hnext
  refine ⟨hsound.coherent, ?_, ?_, hsound.ascending⟩
  · intro session hsession
    obtain ⟨d, hd, _, hgeometry⟩ := hsound.coherent.installed session hsession
    exact hgeometry ▸ hsound.coherent.validated d hd
  · intro event transition t happly
    exact (hsound.coherent.applied happly).2.2

/-- A player enters the overworld and is moved twice. -/
theorem reachable_coherent_overworld :
    ∃ h : History Unit, Run (fun h call h' => h.next firstSum call = some h') ⟨WorldState.new, []⟩
        [.apply .beginConfiguration, .apply (.runtimeDimensionTypes [⟨0, overworld, ⟨-64, 384⟩⟩]),
          .apply (.enterWorld ⟨7, false, [overworld], 20, 10, 10, false, true, false, false,
            overworldSpawn⟩),
          .apply (.loadChunk (stoneChunk ⟨0, 0⟩)),
          .apply (.synchronizePlayerPosition ⟨3, F64.zero, F64.zero, F64.zero, F32.zero, F32.zero,
            ⟨false, false, false, false, false⟩⟩),
          .apply (.synchronizePlayerPosition ⟨4, F64.zero, F64.zero, F64.zero, F32.one, F32.zero,
            ⟨true, true, true, false, false⟩⟩)] h ∧
      (h.state.lifecycle = .active ∧ h.teleports = [3, 4]) ∧ h.state.Coherent ∧
      h.teleports.Pairwise (· < ·) := by
  have hruns : (List.foldlM (History.next firstSum) (⟨WorldState.new, []⟩ : History Unit)
      [.apply .beginConfiguration, .apply (.runtimeDimensionTypes [⟨0, overworld, ⟨-64, 384⟩⟩]),
        .apply (.enterWorld ⟨7, false, [overworld], 20, 10, 10, false, true, false, false,
          overworldSpawn⟩),
        .apply (.loadChunk (stoneChunk ⟨0, 0⟩)),
        .apply (.synchronizePlayerPosition ⟨3, F64.zero, F64.zero, F64.zero, F32.zero, F32.zero,
          ⟨false, false, false, false, false⟩⟩),
        .apply (.synchronizePlayerPosition ⟨4, F64.zero, F64.zero, F64.zero, F32.one, F32.zero,
          ⟨true, true, true, false, false⟩⟩)]).any
      (fun h => decide (h.state.lifecycle = .active ∧ h.teleports = [3, 4])) = true := by
    decide +kernel
  obtain ⟨h, hrun, hreached⟩ := Run.exists_of_foldlM hruns
  obtain ⟨hcoherent, _, _, hascending⟩ := reachable_coherent firstSum _ h hrun
  exact ⟨h, hrun, hreached, hcoherent, hascending⟩

end Cubic.World
