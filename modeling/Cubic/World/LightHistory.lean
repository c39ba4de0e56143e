import Cubic.World.BlockTable
import Cubic.World.LightLookup
import Mathlib.Logic.Function.Basic

/-!
# Light over a run

A light packet takes the place of all the light of its chunk. What an earlier packet said of a
section is kept only if the next one says something of it too.
-/

namespace Cubic.WireLightData

set_option autoImplicit false

open World

/-- A section is named by its bit in either mask. -/
def names (light : WireLightData) (kind : LightKind) (sectionOffset : Nat) : Bool :=
  wordsIsSet (light.dataMask kind) (sectionOffset + 1) ||
    wordsIsSet (light.emptyMask kind) (sectionOffset + 1)

/-- What the packet says of a block: no light, or four bits of the section's array. -/
def tells (light : WireLightData) (kind : LightKind) (sectionOffset : Nat) (x y z : UInt8) :
    Option UInt8 :=
  if wordsIsSet (light.emptyMask kind) (sectionOffset + 1) then some 0
  else if wordsIsSet (light.dataMask kind) (sectionOffset + 1) then do
    let array ← (light.arrays kind)[
      Rank.below (wordsIsSet (light.dataMask kind)) (sectionOffset + 1)]?
    let index := y.toNat * 256 + z.toNat * 16 + x.toNat
    let byte ← array[index / 2]?
    some (if index % 2 = 0 then byte % 16 else byte / 16)
  else none

/-- What the newest packet that names the section says of it. -/
def remembered (packets : List WireLightData) (kind : LightKind) (sectionOffset : Nat)
    (x y z : UInt8) : Option UInt8 := do
  let light ← packets.find? (·.names kind sectionOffset)
  light.tells kind sectionOffset x y z

end Cubic.WireLightData

namespace Cubic.World

set_option autoImplicit false

open Mut

variable {Rest : Type}

/-! ### Packets and calls -/

/-- A payload that a decoder takes as a whole. -/
def decodeWhole {α : Type} (decode : ChunkM α) (payload : Bytes) : Option α :=
  match decode (.new payload) with
  | .ok a r => if r.remaining = 0 then some a else none
  | _ => none

inductive Received where
  | levelChunk (payload : Bytes)
  | lightUpdate (payload : Bytes)
  | other (call : WorldCall)

def WorldCall.bringsLight : WorldCall → Bool
  | apply (.loadChunk _) => true
  | apply (.updateChunkLight _ _) => true
  | _ => false

/-- A world state, with the light packets of each chunk since it was loaded, newest first. -/
structure LitWorld (Rest : Type) where
  state : WorldState Rest
  packets : ChunkCoordinate → List WireLightData

namespace LitWorld

def new : LitWorld Rest := ⟨WorldState.new, fun _ => []⟩

/-- A call that fails has brought no packet. -/
def deliver (sums : FloatSums) (h : LitWorld Rest) (call : WorldCall)
    (packets : ChunkCoordinate → List WireLightData) : Option (LitWorld Rest) :=
  match call.run sums h.state with
  | .ok _ t => some ⟨t, packets⟩
  | .err _ t => some ⟨t, h.packets⟩
  | .panic => none

def receive (layout : NbtLayout) (sums : FloatSums) (h : LitWorld Rest) :
    Received → Option (LitWorld Rest)
  | .levelChunk payload => do
    let wire ← decodeWhole (Chunk.decodeLevelChunkWithLight layout) payload
    let chunk ← (semanticChunk wire).toOption
    h.deliver sums (.apply (.loadChunk chunk))
      (Function.update h.packets chunk.coordinate [wire.light])
  | .lightUpdate payload => do
    let update ← decodeWhole Chunk.decodeLightUpdate payload
    let coordinate : ChunkCoordinate := ⟨update.x, update.z⟩
    h.deliver sums (.apply (.updateChunkLight coordinate (semanticLight update.light)))
      (Function.update h.packets coordinate (update.light :: h.packets coordinate))
  | .other call => if call.bringsLight then none else h.deliver sums call h.packets

/-- Every lookup gives what the newest packet that names the section says. -/
def Remembers (h : LitWorld Rest) : Prop :=
  ∀ coordinate chunk, h.state.chunks.lookup coordinate = some chunk →
    ∀ kind sectionOffset x y z, x < 16 → y < 16 → z < 16 →
      chunk.light.lookup kind sectionOffset x y z =
        WireLightData.remembered (h.packets coordinate) kind sectionOffset x y z

end LitWorld

def ChunkLightSummary.names (light : ChunkLightSummary) : LightKind → Nat → Bool
  | .sky, sectionOffset => wordsIsSet light.skyMask (sectionOffset + 1) ||
      wordsIsSet light.emptySkyMask (sectionOffset + 1)
  | .block, sectionOffset => wordsIsSet light.blockMask (sectionOffset + 1) ||
      wordsIsSet light.emptyBlockMask (sectionOffset + 1)

/-- A light packet that is applied to a chunk names each section whose light the chunk has. -/
def Received.Covers (h : LitWorld Rest) : Received → Prop
  | .lightUpdate payload => ∀ update chunk,
      decodeWhole Chunk.decodeLightUpdate payload = some update →
      h.state.chunks.lookup ⟨update.x, update.z⟩ = some chunk →
      h.state.revision ≠ WorldState.lastRevision →
      ∀ kind sectionOffset, chunk.light.names kind sectionOffset →
        update.light.names kind sectionOffset
  | _ => True

/-! ### What a packet says -/

/-- The packet was accepted. -/
def Accepted (light : WireLightData) : Prop := ∃ r r', Chunk.decodeLightData r = .ok light r'

variable {light : WireLightData}

theorem Accepted.lookup_isSome (h : Accepted light) (kind : LightKind) (sectionOffset : Nat)
    {x y z : UInt8} (hx : x < 16) (hy : y < 16) (hz : z < 16) :
    ((semanticLight light).lookup kind sectionOffset x y z).isSome =
      light.names kind sectionOffset := by
  obtain ⟨r, r', h⟩ := h
  have hknown := (channel_of_decode h kind).known sectionOffset x y z hx hy hz
  rw [Bool.eq_iff_iff, hknown, WireLightData.names, Bool.or_eq_true]

theorem Accepted.lookup_eq (h : Accepted light) (kind : LightKind) (sectionOffset : Nat)
    {x y z : UInt8} (hx : x < 16) (hy : y < 16) (hz : z < 16) :
    (semanticLight light).lookup kind sectionOffset x y z =
      light.tells kind sectionOffset x y z := by
  have hsome := h.lookup_isSome kind sectionOffset hx hy hz
  obtain ⟨r, r', h⟩ := h
  have hchannel := channel_of_decode h kind
  unfold WireLightData.tells
  split
  · rename_i hempty
    exact hchannel.dark sectionOffset x y z hx hy hz hempty
  · rename_i hempty
    split
    · rename_i hdata
      obtain ⟨array, byte, harray, hbyte, hvalue⟩ := hchannel.lit sectionOffset x y z hx hy hz hdata
      rw [hvalue, harray]
      dsimp only [Option.bind_eq_bind, Option.bind_some]
      rw [hbyte, Option.bind_some]
    · rename_i hdata
      rw [← Option.isNone_iff_eq_none, ← Option.not_isSome, hsome, WireLightData.names]
      simp [hempty, hdata]

theorem names_semanticLight (light : WireLightData) (kind : LightKind) (sectionOffset : Nat) :
    (semanticLight light).names kind sectionOffset = light.names kind sectionOffset := by
  cases kind <;> rfl

/-! ### What each call does to the light -/

variable {s t : WorldState Rest}

namespace WorldState

theorem apply_updateChunkLight {sums : FloatSums} {coordinate : ChunkCoordinate}
    {light : ChunkLightSummary} {transition : WorldTransition}
    (h : apply sums (.updateChunkLight coordinate light) s = .ok transition t) :
    t.chunks = s.chunks.updateLight coordinate light := by
  obtain ⟨result, u, hhandle, _, hchunks⟩ := apply_eq_ok h
  obtain ⟨_, s₁, hrequire, hrun⟩ := bind_eq_ok.mp hhandle
  obtain ⟨-, rfl⟩ := require_eq_ok.mp hrequire
  cases hrun
  exact hchunks

/-- An active world fails a light packet at the last revision only. -/
theorem apply_updateChunkLight_ok (sums : FloatSums) (coordinate : ChunkCoordinate)
    (light : ChunkLightSummary) (hactive : s.lifecycle = .active)
    (hrevision : s.revision ≠ lastRevision) :
    ∃ transition t, apply sums (.updateChunkLight coordinate light) s = .ok transition t := by
  have hnext : ∃ next, checkedAddU64 s.revision 1 = some next := by
    have hlt := s.revision.toNat_lt
    refine ⟨_, if_pos ?_⟩
    rw [ne_eq, ← UInt64.toNat_inj] at hrevision
    change ¬ s.revision.toNat = 2 ^ 64 - 1 at hrevision
    change s.revision.toNat + 1 < 2 ^ 64
    omega
  obtain ⟨next, hnext⟩ := hnext
  have hhandle : handle sums (.updateChunkLight coordinate light) s = .ok (.none, false)
      { s with chunks := s.chunks.updateLight coordinate light } :=
    (bind_of_ok (require_active hactive _)).trans rfl
  unfold apply
  rw [get_bind, hnext]
  exact ⟨_, _, (bind_of_ok rfl).trans ((bind_of_ok hhandle).trans rfl)⟩

/-- What a call keeps however it ends holds of the state it leaves. -/
theorem state?_of_wp {α : Type} {m : WorldM Rest α} {I : WorldState Rest → Prop}
    (h : wp m (Post.keeps I) s) (hrun : (m s).state? = some t) : I t := by
  unfold wp at h
  cases hm : m s with
  | ok a u =>
    rw [hm] at h hrun
    cases hrun
    exact h
  | err e u =>
    rw [hm] at h hrun
    cases hrun
    exact h
  | panic =>
    rw [hm] at hrun
    cases hrun

/-- However a call ends, the state it leaves is coherent. -/
theorem Coherent.ran {sums : FloatSums} {call : WorldCall} (h : s.Coherent)
    (hrun : (call.run sums s).state? = some t) : t.Coherent := by
  cases call with
  | apply event =>
    rw [WorldCall.run, state?_bind_pure] at hrun
    cases happly : apply sums event s with
    | ok transition u =>
      rw [happly] at hrun
      cases hrun
      exact (h.applied happly).1
    | err e u =>
      rw [happly] at hrun
      cases hrun
      have hsame : t = s := err_of_wp (guarded_apply sums event s) happly
      exact hsame ▸ h
    | panic =>
      rw [happly] at hrun
      cases hrun
  | applyBlockUpdates updates =>
    rw [WorldCall.run, state?_bind_pure] at hrun
    exact (state?_of_wp (h.blocksUpdated updates) hrun).1
  | applyBlockEntityUpdate position typeRawId data =>
    rw [WorldCall.run, state?_bind_pure] at hrun
    exact (state?_of_wp (h.blockEntityUpdated position typeRawId data) hrun).1

end WorldState

/-! ### The invariant -/

/-- The light is the newest packet's, which names all that the packets before it name. -/
def Newest (packets : List WireLightData) (light : ChunkLightSummary) : Prop :=
  ∃ last rest, packets = last :: rest ∧ light = semanticLight last ∧ Accepted last ∧
    ∀ packet ∈ rest, ∀ kind sectionOffset, packet.names kind sectionOffset = true →
      last.names kind sectionOffset = true

theorem Newest.remembered {packets : List WireLightData} {summary : ChunkLightSummary}
    (h : Newest packets summary) (kind : LightKind) (sectionOffset : Nat) {x y z : UInt8}
    (hx : x < 16) (hy : y < 16) (hz : z < 16) :
    summary.lookup kind sectionOffset x y z =
      WireLightData.remembered packets kind sectionOffset x y z := by
  obtain ⟨last, rest, rfl, rfl, haccepted, hnames⟩ := h
  unfold WireLightData.remembered
  cases hlast : last.names kind sectionOffset with
  | true =>
    have hfind : (last :: rest).find? (·.names kind sectionOffset) = some last :=
      List.find?_cons_of_pos hlast
    rw [hfind]
    exact haccepted.lookup_eq kind sectionOffset hx hy hz
  | false =>
    have hfind : (last :: rest).find? (·.names kind sectionOffset) = none := by
      rw [List.find?_eq_none]
      intro packet hpacket hnamed
      have hlast' : last.names kind sectionOffset = true := by
        rcases List.mem_cons.mp hpacket with rfl | hpacket
        · exact hnamed
        · exact hnames packet hpacket kind sectionOffset hnamed
      rw [hlast'] at hlast
      cases hlast
    have hnone := haccepted.lookup_isSome kind sectionOffset hx hy hz
    rw [hlast, ← Bool.not_eq_true, Option.not_isSome_iff_eq_none] at hnone
    rw [hfind, hnone]
    rfl

namespace LitWorld

structure Tracked (h : LitWorld Rest) : Prop where
  coherent : h.state.Coherent
  newest : EveryChunk (fun chunk => Newest (h.packets chunk.coordinate) chunk.light)
    h.state.chunks

variable {h h' : LitWorld Rest} {layout : NbtLayout} {sums : FloatSums}

theorem tracked_new : (new : LitWorld Rest).Tracked := ⟨WorldState.coherent_new, EveryChunk.empty⟩

theorem Tracked.remembers (htracked : h.Tracked) : h.Remembers := by
  intro coordinate chunk hchunk kind sectionOffset x y z hx hy hz
  have hnewest : Newest (h.packets chunk.coordinate) chunk.light :=
    htracked.newest coordinate chunk hchunk
  rw [htracked.coherent.keyed coordinate chunk hchunk] at hnewest
  exact hnewest.remembered kind sectionOffset hx hy hz

theorem deliver_apply {event : WorldEvent} {packets : ChunkCoordinate → List WireLightData}
    (hstep : h.deliver sums (.apply event) packets = some h') :
    (∃ transition t, WorldState.apply sums event h.state = .ok transition t ∧
      h' = ⟨t, packets⟩) ∨ h' = h := by
  unfold deliver at hstep
  cases hrun : (WorldCall.apply event).run sums h.state with
  | ok reply t =>
    rw [hrun] at hstep
    cases hstep
    obtain ⟨transition, u, happly, hpure⟩ := bind_eq_ok.mp hrun
    cases hpure
    exact Or.inl ⟨_, _, happly, rfl⟩
  | err e t =>
    rw [hrun] at hstep
    cases hstep
    have hsame : t = h.state :=
      err_of_wp (WorldState.guarded_apply sums event h.state) (bind_pure_eq_err.mp hrun)
    exact Or.inr (hsame ▸ rfl)
  | panic =>
    rw [hrun] at hstep
    cases hstep

theorem decodeWhole_eq_some {α : Type} {decode : ChunkM α} {payload : Bytes} {a : α}
    (hdecode : decodeWhole decode payload = some a) : ∃ r, decode (.new payload) = .ok a r := by
  unfold decodeWhole at hdecode
  cases hrun : decode (.new payload) with
  | ok b r =>
    rw [hrun] at hdecode
    dsimp only at hdecode
    split at hdecode
    · cases hdecode
      exact ⟨r, rfl⟩
    · cases hdecode
  | err e r =>
    rw [hrun] at hdecode
    cases hdecode
  | panic =>
    rw [hrun] at hdecode
    cases hdecode

theorem accepted_levelChunk {payload : Bytes} {wire : LevelChunkWithLight}
    (hdecode : decodeWhole (Chunk.decodeLevelChunkWithLight layout) payload = some wire) :
    Accepted wire.light := by
  obtain ⟨r, hrun⟩ := decodeWhole_eq_some hdecode
  obtain ⟨x, _, _, hrun⟩ := bind_eq_ok.mp hrun
  obtain ⟨z, _, _, hrun⟩ := bind_eq_ok.mp hrun
  obtain ⟨heightmaps, _, _, hrun⟩ := bind_eq_ok.mp hrun
  obtain ⟨bytes, _, _, hrun⟩ := bind_eq_ok.mp hrun
  obtain ⟨sections, _, _, hrun⟩ := bind_eq_ok.mp hrun
  obtain ⟨entities, _, _, hrun⟩ := bind_eq_ok.mp hrun
  obtain ⟨light, _, hlight, hrun⟩ := bind_eq_ok.mp hrun
  cases hrun
  exact ⟨_, _, hlight⟩

theorem accepted_lightUpdate {payload : Bytes} {update : LightUpdate}
    (hdecode : decodeWhole Chunk.decodeLightUpdate payload = some update) :
    Accepted update.light := by
  obtain ⟨r, hrun⟩ := decodeWhole_eq_some hdecode
  obtain ⟨x, _, _, hrun⟩ := bind_eq_ok.mp hrun
  obtain ⟨z, _, _, hrun⟩ := bind_eq_ok.mp hrun
  obtain ⟨light, _, hlight, hrun⟩ := bind_eq_ok.mp hrun
  cases hrun
  exact ⟨_, _, hlight⟩

/-! ### Steps -/

/-- A chunk that is loaded starts with the light it comes with. -/
theorem Tracked.levelChunk (htracked : h.Tracked) {chunk : Chunk} (haccepted : Accepted light)
    (hlight : chunk.light = semanticLight light)
    (hstep : h.deliver sums (.apply (.loadChunk chunk))
      (Function.update h.packets chunk.coordinate [light]) = some h') : h'.Tracked := by
  rcases deliver_apply hstep with ⟨transition, t, happly, rfl⟩ | rfl
  · refine ⟨(htracked.coherent.applied happly).1, ?_⟩
    intro coordinate chunk' hchunk
    dsimp only at hchunk ⊢
    rw [(WorldState.apply_loadChunk_eq_ok happly).2, OrderedMap.lookup_insert] at hchunk
    split at hchunk
    · cases hchunk
      rw [Function.update_self]
      refine ⟨light, [], rfl, hlight, haccepted, ?_⟩
      exact fun packet hpacket => absurd hpacket List.not_mem_nil
    · rename_i hne
      have hkeyed := htracked.coherent.keyed coordinate chunk' hchunk
      rw [Function.update_of_ne (by rw [hkeyed]; exact hne)]
      exact htracked.newest coordinate chunk' hchunk
  · exact htracked

theorem revision_ne_last {event : WorldEvent} {s t : WorldState Rest}
    {transition : WorldTransition} (happly : WorldState.apply sums event s = .ok transition t) :
    s.revision ≠ WorldState.lastRevision := by
  intro hlast
  unfold WorldState.apply at happly
  rw [get_bind] at happly
  obtain ⟨revision, s₁, hrevision, -⟩ := bind_eq_ok.mp happly
  have hnext := (okOr_eq_ok.mp hrevision).1
  rw [hlast] at hnext
  cases hnext

/-- A light packet that names all of the chunk's light becomes the newest. -/
theorem Tracked.lightUpdate (htracked : h.Tracked) {coordinate : ChunkCoordinate}
    (haccepted : Accepted light)
    (hcovers : ∀ chunk, h.state.chunks.lookup coordinate = some chunk →
      h.state.revision ≠ WorldState.lastRevision → ∀ kind sectionOffset,
        chunk.light.names kind sectionOffset → light.names kind sectionOffset)
    (hstep : h.deliver sums (.apply (.updateChunkLight coordinate (semanticLight light)))
      (Function.update h.packets coordinate (light :: h.packets coordinate)) = some h') :
    h'.Tracked := by
  rcases deliver_apply hstep with ⟨transition, t, happly, rfl⟩ | rfl
  · refine ⟨(htracked.coherent.applied happly).1, ?_⟩
    intro coordinate' chunk' hchunk'
    dsimp only at hchunk' ⊢
    rw [WorldState.apply_updateChunkLight happly, LoadedChunks.updateLight] at hchunk'
    have hother : coordinate' ≠ coordinate → h.state.chunks.lookup coordinate' = some chunk' →
        Newest (Function.update h.packets coordinate (light :: h.packets coordinate)
          chunk'.coordinate) chunk'.light := by
      intro hne hlookup
      have hkeyed := htracked.coherent.keyed coordinate' chunk' hlookup
      rw [Function.update_of_ne (by rw [hkeyed]; exact hne)]
      exact htracked.newest coordinate' chunk' hlookup
    cases hchunk : h.state.chunks.lookup coordinate with
    | none =>
      rw [hchunk] at hchunk'
      refine hother ?_ hchunk'
      intro heq
      rw [heq, hchunk] at hchunk'
      cases hchunk'
    | some chunk =>
      rw [hchunk] at hchunk'
      dsimp only at hchunk'
      rw [OrderedMap.lookup_insert] at hchunk'
      split at hchunk'
      · cases hchunk'
        have hkeyed := htracked.coherent.keyed coordinate chunk hchunk
        obtain ⟨last, rest, hpackets, hlight, hlast, hnames⟩ :=
          htracked.newest coordinate chunk hchunk
        dsimp only
        rw [hkeyed] at hpackets ⊢
        rw [Function.update_self, hpackets]
        refine ⟨light, last :: rest, rfl, rfl, haccepted, ?_⟩
        intro packet hpacket kind sectionOffset hnamed
        have hcover := hcovers chunk hchunk (revision_ne_last happly) kind sectionOffset
        rw [hlight, names_semanticLight] at hcover
        rcases List.mem_cons.mp hpacket with rfl | hpacket
        · exact hcover hnamed
        · exact hcover (hnames packet hpacket kind sectionOffset hnamed)
      · rename_i hne
        exact hother hne hchunk'
  · exact htracked

theorem newest_batch {packets : ChunkCoordinate → List WireLightData}
    {geometry : DimensionGeometry} {chunks : LoadedChunks} {updates : List BlockStateUpdate}
    {progress : BlockUpdateProgress}
    (hnewest : EveryChunk (fun chunk => Newest (packets chunk.coordinate) chunk.light) chunks)
    (hbatch : Batch geometry chunks updates progress) :
    EveryChunk (fun chunk => Newest (packets chunk.coordinate) chunk.light) progress.chunks := by
  intro coordinate chunk hchunk
  have houtline := hbatch.outline coordinate
  unfold LoadedChunks.outline at houtline
  rw [hchunk] at houtline
  obtain ⟨chunk', hchunk', hbare⟩ := Option.map_eq_some_iff.mp houtline.symm
  unfold LoadedChunks.bare at hbare
  have hcoordinate := congrArg Chunk.coordinate hbare
  have hlight := congrArg Chunk.light hbare
  have hold := hnewest coordinate chunk' hchunk'
  dsimp only at hcoordinate hlight hold ⊢
  rwa [hcoordinate, hlight] at hold

theorem Tracked.other (htracked : h.Tracked) {call : WorldCall} (hcall : call.bringsLight = false)
    (hstep : h.deliver sums call h.packets = some h') : h'.Tracked := by
  have hrun : (call.run sums h.state).state? = some h'.state ∧ h'.packets = h.packets := by
    unfold deliver at hstep
    cases hrun : call.run sums h.state with
    | ok reply t =>
      rw [hrun] at hstep
      cases hstep
      exact ⟨rfl, rfl⟩
    | err e t =>
      rw [hrun] at hstep
      cases hstep
      exact ⟨rfl, rfl⟩
    | panic =>
      rw [hrun] at hstep
      cases hstep
  refine ⟨htracked.coherent.ran hrun.1, ?_⟩
  rw [hrun.2]
  cases call with
  | apply event =>
    refine Keeps.state? (WorldState.keeps_apply sums ?_ ?_) htracked.newest
      ((state?_bind_pure h.state).symm.trans hrun.1)
    · intro coordinate light hevent
      rw [hevent] at hcall
      cases hcall
    · cases event with
      | loadChunk chunk => cases hcall
      | _ => trivial
  | applyBlockUpdates updates =>
    exact WorldState.everyChunk_blockUpdates htracked.newest
      (fun _ _ _ hbatch => newest_batch htracked.newest hbatch)
      ((state?_bind_pure h.state).symm.trans hrun.1)
  | applyBlockEntityUpdate position typeRawId data =>
    exact WorldState.everyChunk_blockEntityUpdate htracked.newest
      (fun _ _ _ _ hnewest => hnewest) ((state?_bind_pure h.state).symm.trans hrun.1)

theorem semanticChunk_light {wire : LevelChunkWithLight} {chunk : Chunk}
    (hsemantic : (semanticChunk wire).toOption = some chunk) :
    chunk.light = semanticLight wire.light := by
  cases hwire : semanticChunk wire with
  | error e =>
    rw [hwire] at hsemantic
    cases hsemantic
  | ok chunk' =>
    rw [hwire] at hsemantic
    cases hsemantic
    obtain ⟨entities, _, hchunk⟩ := except_bind_eq_ok.mp hwire
    cases hchunk
    rfl

theorem Tracked.receive (htracked : h.Tracked) {received : Received}
    (hstep : h.receive layout sums received = some h') (hcovers : received.Covers h) :
    h'.Tracked := by
  cases received with
  | levelChunk payload =>
    obtain ⟨wire, hdecode, hstep⟩ := Option.bind_eq_some_iff.mp hstep
    obtain ⟨chunk, hsemantic, hstep⟩ := Option.bind_eq_some_iff.mp hstep
    exact htracked.levelChunk (accepted_levelChunk hdecode) (semanticChunk_light hsemantic) hstep
  | lightUpdate payload =>
    obtain ⟨update, hdecode, hstep⟩ := Option.bind_eq_some_iff.mp hstep
    exact htracked.lightUpdate (accepted_lightUpdate hdecode)
      (fun chunk => hcovers update chunk hdecode) hstep
  | other call =>
    unfold LitWorld.receive at hstep
    dsimp only at hstep
    split at hstep
    · cases hstep
    · rename_i hcall
      exact htracked.other (Bool.not_eq_true _ ▸ hcall) hstep

/-- A packet that leaves out a section of the chunk's light loses it. -/
theorem Tracked.covers (htracked : h.Tracked) {received : Received}
    (hstep : h.receive layout sums received = some h') (hremembers : h'.Remembers) :
    received.Covers h := by
  cases received with
  | levelChunk payload => trivial
  | other call => trivial
  | lightUpdate payload =>
    intro update chunk hdecode hchunk hrevision kind sectionOffset hnamed
    obtain ⟨update', hdecode', hstep⟩ := Option.bind_eq_some_iff.mp hstep
    obtain rfl := Option.some.inj (hdecode.symm.trans hdecode')
    have hactive : h.state.lifecycle = .active := by
      by_contra hinactive
      rw [htracked.coherent.inactive hinactive] at hchunk
      cases hchunk
    obtain ⟨transition, t, happly⟩ := WorldState.apply_updateChunkLight_ok sums
      ⟨update.x, update.z⟩ (semanticLight update.light) hactive hrevision
    have hnext : h' = ⟨t, Function.update h.packets ⟨update.x, update.z⟩
        (update.light :: h.packets ⟨update.x, update.z⟩)⟩ := by
      have hcall : (WorldCall.apply (.updateChunkLight ⟨update.x, update.z⟩
          (semanticLight update.light))).run sums h.state = .ok (.transition transition) t :=
        (bind_of_ok happly).trans rfl
      dsimp only at hstep
      unfold deliver at hstep
      rw [hcall] at hstep
      exact (Option.some.inj hstep).symm
    have hlookup : h'.state.chunks.lookup ⟨update.x, update.z⟩ =
        some { chunk with light := semanticLight update.light } := by
      rw [hnext]
      dsimp only
      rw [WorldState.apply_updateChunkLight happly, LoadedChunks.updateLight, hchunk]
      exact (OrderedMap.lookup_insert ..).trans (if_pos rfl)
    have htold := hremembers _ _ hlookup kind sectionOffset 0 0 0 (by decide) (by decide)
      (by decide)
    obtain ⟨last, rest, hpackets, hlight, haccepted, -⟩ := htracked.newest _ chunk hchunk
    rw [htracked.coherent.keyed _ chunk hchunk] at hpackets
    rw [hlight, names_semanticLight] at hnamed
    by_contra hmissing
    -- The lookup finds nothing, and the packet before has said something.
    have hnone := (accepted_lightUpdate hdecode).lookup_isSome kind sectionOffset
      (show (0 : UInt8) < 16 by decide) (show (0 : UInt8) < 16 by decide)
      (show (0 : UInt8) < 16 by decide)
    have hsome := haccepted.lookup_isSome kind sectionOffset
      (show (0 : UInt8) < 16 by decide) (show (0 : UInt8) < 16 by decide)
      (show (0 : UInt8) < 16 by decide)
    rw [haccepted.lookup_eq kind sectionOffset (by decide) (by decide) (by decide), hnamed] at hsome
    rw [Bool.eq_false_iff.mpr hmissing] at hnone
    rw [hnext] at htold
    dsimp only at htold
    have hfind : (update.light :: last :: rest).find? (·.names kind sectionOffset) = some last := by
      rw [List.find?_cons, Bool.eq_false_iff.mpr hmissing]
      exact List.find?_cons_of_pos hnamed
    rw [Function.update_self, hpackets, WireLightData.remembered, hfind] at htold
    change _ = last.tells kind sectionOffset 0 0 0 at htold
    rw [htold] at hnone
    exact absurd (hsome.symm.trans hnone) (by decide)

/-- All along a run the light is what the packets have said exactly when every light packet
names each section whose light its chunk has. -/
theorem remembers_iff (layout : NbtLayout) (sums : FloatSums) (received : List Received)
    (h : LitWorld Rest)
    (hrun : Run (fun m r m' => receive layout sums m r = some m') new received h) :
    (∀ before m, before <+: received →
        Run (fun m r m' => receive layout sums m r = some m') (new : LitWorld Rest) before m →
          m.Remembers) ↔
      Run (fun m r m' => receive layout sums m r = some m' ∧ r.Covers m) new received h := by
  apply Run.forall_iff_of_keeps (I := Tracked) ?_ ?_ ?_ ?_ hrun tracked_new
  · exact fun m r t t' ht ht' => Option.some.inj (ht.symm.trans ht')
  · exact fun m hm => hm.remembers
  · exact fun m r m' hm hstep hcovers => hm.receive hstep hcovers
  · exact fun m r m' hm hstep hremembers => hm.covers hstep hremembers

/-- The masks and arrays of a packet that names the sections of a word as ones without sky light. -/
def darkPayload (word : UInt8) : Bytes := [0, 0, 1, 0, 0, 0, 0, 0, 0, 0, word, 0, 0, 0]

/-- A player enters and a chunk without light is loaded. -/
def enterUnlit : List Received :=
  enterOverworld.map .other ++ [.levelChunk (levelChunkPayload [0])]

/-- Two light packets, the second of which names another section than the first. -/
def darkTwice : List Received :=
  enterUnlit ++ [.lightUpdate ([0, 0] ++ darkPayload 2), .lightUpdate ([0, 0] ++ darkPayload 4)]

theorem remembers_fails : ∃ (received : List Received) (h : LitWorld Unit),
    Run (fun m r m' => receive ⟨24, 32⟩ firstSum m r = some m') new received h ∧
      ¬ h.Remembers := by
  have hruns : ∃ h : LitWorld Unit,
      Run (fun m r m' => receive ⟨24, 32⟩ firstSum m r = some m') new darkTwice h ∧
        (h.state.chunks.lookup ⟨0, 0⟩).any (fun chunk =>
          decide (chunk.light.lookup .sky 0 0 0 0 ≠
            WireLightData.remembered (h.packets ⟨0, 0⟩) .sky 0 0 0 0)) = true :=
    Run.exists_of_foldlM (by decide +kernel)
  obtain ⟨h, hrun, hany⟩ := hruns
  obtain ⟨chunk, hchunk, hne⟩ := (Option.any_eq_true _ _).mp hany
  refine ⟨darkTwice, h, hrun, ?_⟩
  intro hremembers
  apply of_decide_eq_true hne
  exact hremembers ⟨0, 0⟩ chunk hchunk .sky 0 0 0 0 (by decide) (by decide) (by decide)

/-- A light packet for a chunk without light. -/
theorem remembers_iff_enterUnlit : ∃ h : LitWorld Unit,
    Run (fun m r m' => receive ⟨24, 32⟩ firstSum m r = some m') new
      (enterUnlit ++ [.lightUpdate ([0, 0] ++ darkPayload 2)]) h ∧
    ∀ before m, before <+: enterUnlit ++ [.lightUpdate ([0, 0] ++ darkPayload 2)] →
      Run (fun m r m' => receive ⟨24, 32⟩ firstSum m r = some m') (new : LitWorld Unit) before m →
        m.Remembers := by
  have hruns : ∃ m : LitWorld Unit,
      Run (fun m r m' => receive ⟨24, 32⟩ firstSum m r = some m') new enterUnlit m ∧
        ((receive ⟨24, 32⟩ firstSum m (.lightUpdate ([0, 0] ++ darkPayload 2))).isSome = true ∧
          m.state.chunks.lookup ⟨0, 0⟩ = some (levelChunk [])) :=
    Run.exists_of_foldlM (by decide +kernel)
  obtain ⟨m, hrun, hsome, hchunk⟩ := hruns
  obtain ⟨h, hlast⟩ := Option.isSome_iff_exists.mp hsome
  have hall := hrun.trans (Run.single hlast)
  refine ⟨h, hall, ?_⟩
  apply (remembers_iff ⟨24, 32⟩ firstSum _ h hall).mpr
  have hplain : ∀ r ∈ enterUnlit, ∀ m : LitWorld Unit, r.Covers m := by
    simp [enterUnlit, enterOverworld, Received.Covers]
  refine ((hrun.of_forall hplain).mono fun m r m' hstep => ⟨hstep.1, hstep.2 m⟩).trans
    (Run.single ⟨hlast, ?_⟩)
  intro update chunk hdecode hlookup _ kind sectionOffset hnamed
  have hupdate : (decodeWhole Chunk.decodeLightUpdate ([0, 0] ++ darkPayload 2)).map
      (fun update => (update.x, update.z)) = some (0, 0) := rfl
  rw [hdecode] at hupdate
  obtain ⟨hx, hz⟩ := Prod.ext_iff.mp (Option.some.inj hupdate)
  dsimp only at hx hz
  rw [hx, hz, hchunk] at hlookup
  cases hlookup
  have hunlit : (levelChunk []).light.names kind sectionOffset = false := by cases kind <;> rfl
  rw [hunlit] at hnamed
  cases hnamed

end LitWorld

end Cubic.World
