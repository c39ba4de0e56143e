import Cubic.Lib.Frame
import Cubic.World.BlockStore

/-!
# Which failed calls leave the world as it was

`apply` draws the next revision before it writes. The other two calls draw it afterwards,
so that the last revision of all fails them with the contents changed.
-/

namespace Cubic.World

set_option autoImplicit false

variable {Rest : Type} {s t : WorldState Rest}

/-! ### Events -/

namespace WorldState
open Mut

/-- Nothing of the state is asked to stay when a call succeeds. -/
abbrev whole : WorldState Rest → Unit := fun _ => ()

theorem guarded_okOr {α : Type} (o : Option α) (e : WorldError) :
    Guarded id (Mut.okOr o e : WorldM Rest α) := by
  cases o with
  | none => exact guarded_fail e
  | some a => exact steady_pure a

theorem guarded_ofExcept {α : Type} (r : Except WorldError α) :
    Guarded id (Mut.ofExcept r : WorldM Rest α) := by
  cases r with
  | error e => exact guarded_fail e
  | ok a => exact steady_pure a

theorem guarded_require (lifecycle : WorldLifecycle) (event : String) :
    Guarded id (require lifecycle event : WorldM Rest Unit) :=
  guarded_check steady_get fun _ => steady_ite _ (guarded_fail _) (steady_pure _)

theorem guarded_activeMut (event : String) :
    Guarded id (activeMut event : WorldM Rest WorldSession) :=
  guarded_check steady_get fun _ => steady_ite _ (guarded_fail _) (guarded_okOr _ _)

theorem guarded_geometry (rawId : UInt32) :
    Guarded id (geometry rawId : WorldM Rest DimensionGeometry) :=
  guarded_check steady_get fun _ => guarded_okOr _ _

/-- A write at the end cannot fail. -/
theorem guarded_write {α : Type} (f : WorldState Rest → WorldState Rest) (a : α) :
    Guarded whole (Mut.modify f >>= fun _ => pure a : WorldM Rest α) := by
  have hmodify : Guarded whole (Mut.modify f : WorldM Rest Unit) := steady_modify fun _ => rfl
  exact hmodify.bind_quiet fun _ => steady_pure a

theorem guarded_editSession {α : Type} (event : String) (f : WorldSession → WorldSession) (a : α) :
    Guarded whole (editSession event f >>= fun _ => pure a : WorldM Rest α) :=
  Guarded.bind_quiet
    (guarded_check (guarded_activeMut event) fun _ => (steady_modify fun _ => rfl))
    fun _ => steady_pure a

theorem guarded_handle (sums : FloatSums) (event : WorldEvent) :
    Guarded whole (handle sums event : WorldM Rest (ResetScope × Bool)) := by
  cases event with
  | beginConfiguration => exact guarded_write _ _
  | disconnect => exact guarded_write _ _
  | runtimeRegistries registries =>
    exact guarded_check (guarded_require _ _) fun _ =>
      guarded_check (guarded_ofExcept _) fun _ => guarded_write _ _
  | runtimeDimensionTypes dimensions =>
    exact guarded_check (guarded_require _ _) fun _ =>
      guarded_check (guarded_ofExcept _) fun _ => guarded_write _ _
  | runtimeBiomes biomes =>
    exact guarded_check (guarded_require _ _) fun _ =>
      guarded_check (guarded_ofExcept _) fun _ => guarded_write _ _
  | enterWorld enter =>
    exact guarded_check (guarded_require _ _) fun _ =>
      guarded_check (guarded_ofExcept _) fun _ =>
        guarded_check (guarded_geometry _) fun _ => guarded_write _ _
  | respawn respawn =>
    exact guarded_check (guarded_ofExcept _) fun _ =>
      guarded_check (guarded_geometry _) fun _ =>
        guarded_check (guarded_activeMut _) fun _ => guarded_write _ _
  | synchronizePlayerPosition update =>
    exact guarded_check (guarded_activeMut _) fun _ =>
      guarded_check (guarded_ofExcept _) fun _ => guarded_write _ _
  | synchronizePlayerRotation update =>
    exact guarded_check (guarded_activeMut _) fun _ =>
      guarded_check (guarded_ofExcept _) fun _ => guarded_write _ _
  | setSpawn spawn =>
    exact guarded_check (guarded_ofExcept _) fun _ => guarded_editSession _ _ _
  | setTime time =>
    exact guarded_check (guarded_ofExcept _) fun _ => guarded_editSession _ _ _
  | setDifficulty difficulty locked => exact guarded_editSession _ _ _
  | setRaining raining => exact guarded_editSession _ _ _
  | setRainLevel level =>
    exact guarded_check (guarded_ofExcept _) fun _ => guarded_editSession _ _ _
  | setThunderLevel level =>
    exact guarded_check (guarded_ofExcept _) fun _ => guarded_editSession _ _ _
  | setGameMode mode => exact guarded_editSession _ _ _
  | setWorldBorder border =>
    exact guarded_check (guarded_ofExcept _) fun _ => guarded_editSession _ _ _
  | loadChunk chunk =>
    refine guarded_check (guarded_require _ _) fun _ => guarded_check steady_get fun s => ?_
    refine guarded_check ?_ fun _ => guarded_write _ _
    cases s.chunks.insert chunk with
    | error e => exact guarded_fail _
    | ok chunks => exact steady_pure _
  | unloadChunk coordinate =>
    exact guarded_check (guarded_require _ _) fun _ => guarded_write _ _
  | updateChunkLight coordinate light =>
    exact guarded_check (guarded_require _ _) fun _ => guarded_write _ _

theorem guarded_apply (sums : FloatSums) (event : WorldEvent) :
    Guarded whole (apply sums event : WorldM Rest WorldTransition) := by
  refine guarded_check steady_get fun s => guarded_check (guarded_okOr _ _) fun _ => ?_
  exact Guarded.bind_quiet (guarded_handle sums event) fun _ =>
    Quiet.bind (steady_modify fun _ => rfl) fun _ => steady_pure _

theorem require_active (h : s.lifecycle = .active) (event : String) :
    require .active event s = .ok () s := by
  unfold require
  rw [get_bind, if_neg (not_not.mpr h)]
  rfl

theorem require_err {lifecycle : WorldLifecycle} (h : s.lifecycle ≠ lifecycle) (event : String) :
    require lifecycle event s = .err (.invalidLifecycle event s.lifecycle) s := by
  unfold require
  rw [get_bind, if_pos h]
  rfl

/-- The revision of the last change there can be. -/
def lastRevision : UInt64 := .ofNat (2 ^ 64 - 1)

theorem advance_cases (s : WorldState Rest) :
    s.revision = lastRevision ∧ advance s = .err .revisionOverflow s ∨
      s.revision ≠ lastRevision ∧ advance s = .ok () { s with revision := s.revision + 1 } := by
  have hlt := s.revision.toNat_lt
  have hiff : s.revision.toNat + (1 : UInt64).toNat < 2 ^ 64 ↔ s.revision ≠ lastRevision := by
    rw [ne_eq, ← UInt64.toNat_inj]
    change s.revision.toNat + 1 < 2 ^ 64 ↔ ¬ s.revision.toNat = 2 ^ 64 - 1
    omega
  unfold advance checkedAddU64
  rw [get_bind]
  by_cases hlast : s.revision = lastRevision
  · rw [if_neg (mt hiff.mp (not_not.mpr hlast))]
    exact .inl ⟨hlast, rfl⟩
  · rw [if_pos (hiff.mpr hlast)]
    exact .inr ⟨hlast, rfl⟩

theorem commit_cases (s : WorldState Rest) (chunks : LoadedChunks) (changed : List ChunkCoordinate)
    (ignored : Nat) :
    (changed = [] ∧ commit chunks changed ignored s =
        .ok ⟨s.revision, [], ignored⟩ { s with chunks := chunks }) ∨
      (changed ≠ [] ∧ s.revision = lastRevision ∧ commit chunks changed ignored s =
        .err .revisionOverflow { s with chunks := chunks }) ∨
      changed ≠ [] ∧ s.revision ≠ lastRevision ∧ commit chunks changed ignored s =
        .ok ⟨s.revision + 1, changed, ignored⟩
          { s with chunks := chunks, revision := s.revision + 1 } := by
  unfold commit
  cases changed with
  | nil => exact .inl ⟨rfl, rfl⟩
  | cons coordinate rest =>
    have hne : coordinate :: rest ≠ [] := List.cons_ne_nil _ _
    rw [modify_bind]
    rcases advance_cases { s with chunks := chunks } with ⟨hlast, hadvance⟩ | ⟨hlast, hadvance⟩
    · exact .inr (.inl ⟨hne, hlast, bind_of_err hadvance⟩)
    · exact .inr (.inr ⟨hne, hlast, bind_of_ok hadvance⟩)

/-- A commit is undone by its failure exactly when there was nothing to undo. -/
theorem commit_atomic_iff (s : WorldState Rest) (chunks : LoadedChunks)
    (changed : List ChunkCoordinate) (ignored : Nat) :
    (∀ e t, commit chunks changed ignored s = .err e t → t = s) ↔
      ¬ (s.revision = lastRevision ∧ changed ≠ [] ∧ chunks ≠ s.chunks) := by
  rcases commit_cases s chunks changed ignored with
    ⟨hnil, hok⟩ | ⟨hne, hlast, herr⟩ | ⟨hne, hlast, hok⟩
  · refine iff_of_true ?_ fun h => h.2.1 hnil
    intro e t herr
    cases hok.symm.trans herr
  · rw [herr]
    constructor
    · rintro hatomic ⟨_, _, hchunks⟩
      exact hchunks (congrArg WorldState.chunks (hatomic _ _ rfl))
    · intro hsame e t h
      cases h
      have hchunks : chunks = s.chunks := by
        by_contra hchunks
        exact hsame ⟨hlast, hne, hchunks⟩
      rw [hchunks]
  · refine iff_of_true ?_ fun h => hlast h.1
    intro e t herr
    cases hok.symm.trans herr

/-! ### Batches of block updates -/

/-- The state takes the batch. -/
def Accepts (s : WorldState Rest) (updates : List BlockStateUpdate) (session : WorldSession) : Prop :=
  s.lifecycle = .active ∧ updates.length ≤ maxBlockUpdatesPerEvent ∧ s.session = some session

/-- A batch fails before it writes, or it is written and committed. -/
theorem applyBlockUpdates_cases (s : WorldState Rest) (updates : List BlockStateUpdate) :
    (¬ ∃ session, s.Accepts updates session) ∧ (∃ e, applyBlockUpdates updates s = .err e s) ∨
    ∃ session progress, s.Accepts updates session ∧
      Batch session.dimensionGeometry s.chunks updates progress ∧
      applyBlockUpdates updates s =
        commit progress.chunks progress.changed.keys progress.ignored s := by
  unfold applyBlockUpdates
  by_cases hactive : s.lifecycle = .active
  · rw [bind_of_ok (require_active hactive _)]
    by_cases hlength : maxBlockUpdatesPerEvent < updates.length
    · rw [if_pos hlength]
      refine .inl ⟨?_, _, rfl⟩
      rintro ⟨_, _, hle, _⟩
      exact Nat.not_lt.mpr hle hlength
    · rw [if_neg hlength, get_bind]
      cases hsession : s.session with
      | none =>
        refine .inl ⟨?_, _, rfl⟩
        rintro ⟨_, _, _, hsome⟩
        cases hsession.symm.trans hsome
      | some session =>
        exact .inr ⟨session, _, ⟨hactive, Nat.le_of_not_lt hlength, hsession⟩,
          batch_foldl session.dimensionGeometry s.chunks updates, rfl⟩
  · rw [bind_of_err (require_err hactive _)]
    refine .inl ⟨?_, _, rfl⟩
    rintro ⟨_, h, _⟩
    exact hactive h

/-- A batch that is accepted before the last revision is committed. -/
theorem applyBlockUpdates_of_accepts {s : WorldState Rest} {updates : List BlockStateUpdate}
    {session : WorldSession} (haccepts : s.Accepts updates session)
    (hlast : s.revision ≠ lastRevision) : ∃ result t, applyBlockUpdates updates s = .ok result t := by
  rcases s.applyBlockUpdates_cases updates with ⟨hrefused, _⟩ | ⟨_, progress, _, _, hrun⟩
  · exact absurd ⟨session, haccepts⟩ hrefused
  rcases commit_cases s progress.chunks progress.changed.keys progress.ignored with
    ⟨_, hcommit⟩ | ⟨_, hoverflow, _⟩ | ⟨_, _, hcommit⟩
  · exact ⟨_, _, hrun.trans hcommit⟩
  · exact absurd hoverflow hlast
  · exact ⟨_, _, hrun.trans hcommit⟩

end WorldState

/-- Some update names another block than the one in its slot. -/
def Changes (geometry : DimensionGeometry) (chunks : LoadedChunks)
    (updates : List BlockStateUpdate) : Prop :=
  ∃ update ∈ updates, ∃ slot old, slotAt geometry update.position = some slot ∧
    chunks.cell? slot = some old ∧ old ≠ update.state

/-- In each slot that is written the last update is the block that was there, and the
container needed no materializing. -/
def Restores (geometry : DimensionGeometry) (chunks : LoadedChunks)
    (updates : List BlockStateUpdate) : Prop :=
  ∀ update ∈ updates, ∀ slot old, slotAt geometry update.position = some slot →
    chunks.cell? slot = some old → lastUpdate geometry updates slot = some old ∧
      ∃ values, chunks.container? slot.coordinate slot.sectionOffset = some (.direct values)

theorem cell?_direct {chunks : LoadedChunks} {coordinate : ChunkCoordinate} {sectionOffset : Nat}
    {values : List RuntimeBlockStateId}
    (h : chunks.container? coordinate sectionOffset = some (.direct values)) (index : Nat) :
    chunks.cell? ⟨coordinate, sectionOffset, index⟩ = values[index]? := by
  unfold LoadedChunks.cell?
  rw [h]
  rfl

theorem cell?_single {chunks : LoadedChunks} {coordinate : ChunkCoordinate} {sectionOffset len : Nat}
    {state : RuntimeBlockStateId}
    (h : chunks.container? coordinate sectionOffset = some (.single state len)) (index : Nat) :
    chunks.cell? ⟨coordinate, sectionOffset, index⟩ = if index < len then some state else none := by
  have hvalues : (PalettedContainer.single state len).materialize =
      some (List.replicate len state) := by
    have hget : (List.range (PalettedContainer.single state len).len).filterMap
        (PalettedContainer.single state len).get = List.replicate len state := by
      change (List.range len).filterMap _ = _
      have hall : ∀ i ∈ List.range len, (PalettedContainer.single state len).get i = some state :=
        fun i hi => if_pos (List.mem_range.mp hi)
      rw [List.filterMap_congr hall, List.filterMap_eq_map', List.map_const', List.length_range]
    change (if _ then none else some _) = _
    rw [hget]
    exact if_neg (not_not.mpr List.length_replicate)
  unfold LoadedChunks.cell?
  rw [h, Option.bind_some, hvalues, Option.bind_some, List.getElem?_replicate]

/-- An update for a slot of the batch leaves a last one. -/
theorem lastUpdate_isSome {geometry : DimensionGeometry} {updates : List BlockStateUpdate}
    {update : BlockStateUpdate} {slot : BlockSlot} (hmem : update ∈ updates)
    (hslot : slotAt geometry update.position = some slot) :
    ∃ last, lastUpdate geometry updates slot = some last := by
  have hfilter : update ∈ updates.filter fun update =>
      slotAt geometry update.position = some slot :=
    List.mem_filter.mpr ⟨hmem, decide_eq_true hslot⟩
  cases hlast : (updates.filter fun update =>
      slotAt geometry update.position = some slot).getLast? with
  | none => exact absurd (List.getLast?_eq_none_iff.mp hlast) (List.ne_nil_of_mem hfilter)
  | some last => exact ⟨last.state, congrArg (Option.map _) hlast⟩

theorem Batch.chunks_eq_iff {geometry : DimensionGeometry} {chunks : LoadedChunks}
    {updates : List BlockStateUpdate} {progress : BlockUpdateProgress}
    (h : Batch geometry chunks updates progress) :
    progress.chunks = chunks ↔ Restores geometry chunks updates := by
  constructor
  · intro heq update hmem slot old hslot hold
    obtain ⟨last, hlast⟩ := lastUpdate_isSome hmem hslot
    have hcell := h.cell slot
    rw [heq, hold, hlast] at hcell
    refine ⟨hlast.trans hcell.symm, ?_⟩
    have hdirect := h.direct update hmem slot hslot (Option.isSome_of_eq_some hold)
    rw [heq] at hdirect
    exact hdirect
  · intro hrestores
    refine LoadedChunks.ext_container h.outline ?_
    intro coordinate sectionOffset
    rcases h.touched coordinate sectionOffset with hsame | ⟨update, hmem, slot, hslot, rfl, rfl, hsome⟩
    · exact hsame
    · obtain ⟨old, hold⟩ := Option.isSome_iff_exists.mp hsome
      obtain ⟨values', hvalues'⟩ := h.direct update hmem slot hslot hsome
      obtain ⟨_, values, hvalues⟩ := hrestores update hmem slot old hslot hold
      rw [hvalues', hvalues]
      apply congrArg (fun values => some (PalettedContainer.direct values))
      apply List.ext_getElem?
      intro i
      have hcell := h.cell ⟨slot.coordinate, slot.sectionOffset, i⟩
      rw [cell?_direct hvalues', cell?_direct hvalues] at hcell
      rw [hcell]
      cases hi : values[i]? with
      | none => rfl
      | some before =>
        have hbefore : chunks.cell? ⟨slot.coordinate, slot.sectionOffset, i⟩ = some before :=
          (cell?_direct hvalues i).trans hi
        cases hlast : lastUpdate geometry updates ⟨slot.coordinate, slot.sectionOffset, i⟩ with
        | none => rfl
        | some last =>
          obtain ⟨final, hfinal, rfl⟩ := Option.map_eq_some_iff.mp hlast
          obtain ⟨hfinal, hslot'⟩ := List.mem_filter.mp (List.mem_of_getLast? hfinal)
          have hrestored := (hrestores final hfinal _ before (of_decide_eq_true hslot') hbefore).1
          rw [hlast] at hrestored
          exact hrestored

/-! ### Block entities -/

namespace LoadedChunks

/-- The first block entity at a place of the chunk. -/
def entityAt (localX : UInt8) (y : Int16) (localZ : UInt8) (entities : List BlockEntitySummary) :
    Option BlockEntitySummary :=
  entities.find? fun entity => entity.localX = localX ∧ entity.y = y ∧ entity.localZ = localZ

/-- The update has nothing to say about the entity. -/
def Current (typeRawId : UInt32) (data : BlockEntityData) (entity : BlockEntitySummary) : Prop :=
  entity.typeRawId = typeRawId ∧ entity.data = some data ∧ entity.hasData

theorem putBlockEntity_cases (localX : UInt8) (y : Int16) (localZ : UInt8) (typeRawId : UInt32)
    (data : BlockEntityData) (entities : List BlockEntitySummary) :
    (∃ entity, entityAt localX y localZ entities = some entity ∧ Current typeRawId data entity) ∧
      putBlockEntity localX y localZ typeRawId data entities = (false, entities) ∨
    (¬ ∃ entity, entityAt localX y localZ entities = some entity ∧ Current typeRawId data entity) ∧
      (putBlockEntity localX y localZ typeRawId data entities).1 = true ∧
      (putBlockEntity localX y localZ typeRawId data entities).2 ≠ entities := by
  unfold entityAt
  induction entities with
  | nil => exact .inr ⟨nofun, rfl, List.cons_ne_nil _ _⟩
  | cons entity rest ih =>
    unfold putBlockEntity
    rw [List.find?_cons]
    by_cases hat : entity.localX = localX ∧ entity.y = y ∧ entity.localZ = localZ
    · rw [if_pos hat, decide_eq_true hat]
      by_cases hcurrent : Current typeRawId data entity
      · obtain ⟨htype, hdata, hhas⟩ := hcurrent
        refine .inl ⟨⟨entity, rfl, htype, hdata, hhas⟩, ?_⟩
        cases entity
        cases htype
        cases hdata
        cases hhas
        rw [decide_eq_false]
        rintro (hne | hne | hne)
        · exact hne rfl
        · exact hne rfl
        · exact hne rfl
      · refine .inr ⟨?_, ?_, ?_⟩
        · rintro ⟨entity', hentity', hcurrent'⟩
          cases hentity'
          exact hcurrent hcurrent'
        · apply decide_eq_true
          by_contra hnone
          rw [not_or, not_or, not_not, not_not, not_not] at hnone
          exact hcurrent hnone
        · intro heq
          apply hcurrent
          rw [← (List.cons.inj heq).1]
          exact ⟨rfl, rfl, rfl⟩
    · rw [if_neg hat, decide_eq_false hat]
      rcases ih with ⟨hcurrent, hput⟩ | ⟨hstale, hchanged, hne⟩
      · rw [hput]
        exact .inl ⟨hcurrent, rfl⟩
      · refine .inr ⟨hstale, hchanged, ?_⟩
        intro heq
        exact hne (List.cons.inj heq).2

end LoadedChunks

theorem u8TryFrom_remEuclid (a : Int32) :
    ∃ v : UInt8, u8TryFrom (remEuclid a 16) = some v ∧ (v.toNat : Int) = a.toInt % 16 := by
  unfold u8TryFrom
  rw [toInt_remEuclid_sixteen, if_pos (by omega)]
  refine ⟨_, rfl, ?_⟩
  rw [UInt8.toNat_ofNat_of_lt' (by rw [UInt8.size]; omega)]
  omega

/-- The place of a block entity, unless its height fits no `i16`. -/
structure EntityPlace where
  localX : UInt8
  y : Int16
  localZ : UInt8
  deriving DecidableEq

def entityPlace? (position : BlockCoordinates) : Option EntityPlace := do
  let localX ← u8TryFrom (remEuclid position.x 16)
  let localZ ← u8TryFrom (remEuclid position.z 16)
  let y ← i16TryFrom position.y
  pure ⟨localX, y, localZ⟩

namespace WorldState
open Mut

theorem applyBlockEntityUpdate_cases (s : WorldState Rest) (position : BlockCoordinates)
    (typeRawId : UInt32) (data : BlockEntityData) :
    (s.lifecycle ≠ .active ∧ ∃ e, applyBlockEntityUpdate position typeRawId data s = .err e s) ∨
    s.lifecycle = .active ∧ entityPlace? position = none ∧
      applyBlockEntityUpdate position typeRawId data s = .ok ⟨s.revision, [], 1⟩ s ∨
    s.lifecycle = .active ∧ ∃ place, entityPlace? position = some place ∧
      applyBlockEntityUpdate position typeRawId data s =
        let update := s.chunks.updateBlockEntity (chunkOf position) place.localX place.y place.localZ
          typeRawId data
        commit update.2 (if update.1 = some true then [chunkOf position] else [])
          (if update.1.isNone then 1 else 0) s := by
  unfold applyBlockEntityUpdate entityPlace?
  by_cases hactive : s.lifecycle = .active
  · rw [bind_of_ok (require_active hactive _), get_bind]
    obtain ⟨localX, hx, _⟩ := u8TryFrom_remEuclid position.x
    obtain ⟨localZ, hz, _⟩ := u8TryFrom_remEuclid position.z
    rw [hx, hz]
    cases hy : i16TryFrom position.y with
    | none => exact .inr (.inl ⟨hactive, rfl, rfl⟩)
    | some y => exact .inr (.inr ⟨hactive, ⟨localX, y, localZ⟩, rfl, rfl⟩)
  · rw [bind_of_err (require_err hactive _)]
    exact .inl ⟨hactive, _, rfl⟩

end WorldState

/-! ### The calls -/

/-- The calls that fail with the contents changed: at the last revision, a batch that changes a
block and does not put everything back, and an update that does change a block entity. -/
def WorldCall.Tears (s : WorldState Rest) : WorldCall → Prop
  | apply _ => False
  | applyBlockUpdates updates =>
    s.revision = WorldState.lastRevision ∧ ∃ session, s.Accepts updates session ∧
      Changes session.dimensionGeometry s.chunks updates ∧
      ¬ Restores session.dimensionGeometry s.chunks updates
  | applyBlockEntityUpdate position typeRawId data =>
    s.revision = WorldState.lastRevision ∧ s.lifecycle = .active ∧
      ∃ place chunk, entityPlace? position = some place ∧
        s.chunks.lookup (chunkOf position) = some chunk ∧
        ¬ ∃ entity, LoadedChunks.entityAt place.localX place.y place.localZ chunk.blockEntities =
          some entity ∧ LoadedChunks.Current typeRawId data entity

theorem updateBlockEntity_none {chunks : LoadedChunks} {coordinate : ChunkCoordinate}
    (h : chunks.lookup coordinate = none) (place : EntityPlace) (typeRawId : UInt32)
    (data : BlockEntityData) :
    chunks.updateBlockEntity coordinate place.localX place.y place.localZ typeRawId data =
      (none, chunks) := by
  unfold LoadedChunks.updateBlockEntity
  rw [h]

theorem updateBlockEntity_some {chunks : LoadedChunks} {coordinate : ChunkCoordinate} {chunk : Chunk}
    (h : chunks.lookup coordinate = some chunk) (place : EntityPlace) (typeRawId : UInt32)
    (data : BlockEntityData) :
    chunks.updateBlockEntity coordinate place.localX place.y place.localZ typeRawId data =
      let put := LoadedChunks.putBlockEntity place.localX place.y place.localZ typeRawId data
        chunk.blockEntities
      (some put.1, OrderedMap.insert chunks coordinate { chunk with blockEntities := put.2 }) := by
  unfold LoadedChunks.updateBlockEntity
  rw [h]

/-- A failed call leaves the whole world state as it was, except for the calls that tear it. -/
theorem errors_atomic_iff (sums : FloatSums) (s : WorldState Rest) (call : WorldCall) :
    (∀ e t, call.run sums s = .err e t → t = s) ↔ ¬ call.Tears s := by
  cases call with
  | apply event =>
    refine iff_of_true ?_ fun h => h
    intro e t herr
    exact Mut.err_of_wp (WorldState.guarded_apply sums event s) (Mut.bind_pure_eq_err.mp herr)
  | applyBlockUpdates updates =>
    unfold WorldCall.run WorldCall.Tears
    simp only [Mut.bind_pure_eq_err]
    rcases s.applyBlockUpdates_cases updates with ⟨hrefused, e, herr⟩ | ⟨session, progress, haccepts,
      hbatch, hrun⟩
    · refine iff_of_true ?_ ?_
      · intro e' t herr'
        cases herr.symm.trans herr'
        rfl
      · rintro ⟨_, session, haccepts, _⟩
        exact hrefused ⟨session, haccepts⟩
    · rw [hrun, WorldState.commit_atomic_iff, hbatch.changed_iff]
      apply not_congr
      constructor
      · rintro ⟨hlast, hchanges, hchunks⟩
        exact ⟨hlast, session, haccepts, hchanges, mt hbatch.chunks_eq_iff.mpr hchunks⟩
      · rintro ⟨hlast, session', haccepts', hchanges, hrestores⟩
        cases haccepts.2.2.symm.trans haccepts'.2.2
        exact ⟨hlast, hchanges, mt hbatch.chunks_eq_iff.mp hrestores⟩
  | applyBlockEntityUpdate position typeRawId data =>
    unfold WorldCall.run WorldCall.Tears
    simp only [Mut.bind_pure_eq_err]
    rcases s.applyBlockEntityUpdate_cases position typeRawId data with
      ⟨hinactive, e, herr⟩ | ⟨hactive, hplace, hok⟩ | ⟨hactive, place, hplace, hrun⟩
    · refine iff_of_true ?_ fun h => hinactive h.2.1
      intro e' t herr'
      cases herr.symm.trans herr'
      rfl
    · refine iff_of_true ?_ ?_
      · intro e t herr
        cases hok.symm.trans herr
      · rintro ⟨_, _, place, _, hplace', _⟩
        cases hplace.symm.trans hplace'
    · rw [hrun]
      dsimp only
      rw [WorldState.commit_atomic_iff]
      apply not_congr
      cases hchunk : s.chunks.lookup (chunkOf position) with
      | none =>
        rw [updateBlockEntity_none hchunk]
        refine iff_of_false (fun h => h.2.1 rfl) ?_
        rintro ⟨_, _, _, chunk, _, hchunk', _⟩
        cases hchunk'
      | some chunk =>
        rw [updateBlockEntity_some hchunk]
        dsimp only
        rcases LoadedChunks.putBlockEntity_cases place.localX place.y place.localZ typeRawId data
          chunk.blockEntities with ⟨hcurrent, hput⟩ | ⟨hstale, hchanged, hne⟩
        · rw [hput]
          refine iff_of_false (fun h => h.2.1 rfl) ?_
          rintro ⟨_, _, place', chunk', hplace', hchunk', hstale⟩
          cases hplace.symm.trans hplace'
          cases hchunk'
          exact hstale hcurrent
        · rw [if_pos (congrArg some hchanged)]
          constructor
          · rintro ⟨hlast, _, _⟩
            exact ⟨hlast, hactive, place, chunk, hplace, rfl, hstale⟩
          · rintro ⟨hlast, _⟩
            refine ⟨hlast, List.cons_ne_nil _ _, ?_⟩
            intro hsame
            have hlookup := congrArg (OrderedMap.lookup · (chunkOf position)) hsame
            rw [OrderedMap.lookup_insert, if_pos rfl, hchunk] at hlookup
            exact hne (congrArg Chunk.blockEntities (Option.some.inj hlookup))

def stoneSection : ChunkSection := ⟨4096, 0, .single ⟨1⟩ 4096, .single ⟨0⟩ 64⟩

def stoneChunk (coordinate : ChunkCoordinate) : Chunk :=
  ⟨coordinate, [stoneSection], [], [], ⟨[], [], [], [], 0, 0, [], []⟩⟩

def overworld : MinecraftIdentifier := ⟨"minecraft:overworld", by decide +kernel⟩

def overworldSpawn : SpawnContext :=
  ⟨⟨overworld, 0⟩, overworld, 0, .survival, none, false, false, none, 0, 63⟩

def overworldSession : WorldSession :=
  sessionFromEnter
    ⟨7, false, [overworld], 20, 10, 10, false, true, false, false, overworldSpawn⟩ ⟨0, 16⟩

/-- One loaded chunk of stone, after the last change there can be. -/
def worldAtLastRevision : WorldState Unit :=
  { WorldState.new with
    lifecycle := .active
    revision := WorldState.lastRevision
    dimensionTypes := [⟨0, overworld, ⟨0, 16⟩⟩]
    session := some overworldSession
    chunks := OrderedMap.empty.insert ⟨0, 0⟩ (stoneChunk ⟨0, 0⟩) }

def firstSum : FloatSums := ⟨fun a _ => a, fun a _ => a⟩

/-- The stone is gone although the call failed. -/
theorem errors_atomic_fails :
    ∃ e t, (WorldCall.applyBlockUpdates [⟨⟨3, 5, 7⟩, ⟨0⟩⟩]).run firstSum worldAtLastRevision =
      .err e t ∧ t ≠ worldAtLastRevision := by
  have hstone : worldAtLastRevision.chunks.cell? ⟨⟨0, 0⟩, 0, 1395⟩ = some ⟨1⟩ :=
    (cell?_single rfl 1395).trans (if_pos (by decide : 1395 < 4096))
  rcases worldAtLastRevision.applyBlockUpdates_cases [⟨⟨3, 5, 7⟩, ⟨0⟩⟩] with
    ⟨hrefused, _⟩ | ⟨session, progress, haccepts, hbatch, hcommit⟩
  · exact absurd ⟨overworldSession, rfl, by decide, rfl⟩ hrefused
  cases haccepts.2.2
  have hchanged : progress.changed.keys ≠ [] :=
    hbatch.changed_iff.mpr ⟨_, List.mem_cons_self, _, _, by decide, hstone, by decide⟩
  rcases worldAtLastRevision.commit_cases progress.chunks progress.changed.keys progress.ignored with
    ⟨hnil, _⟩ | ⟨_, _, herr⟩ | ⟨_, hearlier, _⟩
  · exact absurd hnil hchanged
  · refine ⟨_, _, Mut.bind_of_err (hcommit.trans herr), fun hsame => ?_⟩
    have hchunks : progress.chunks = worldAtLastRevision.chunks := congrArg WorldState.chunks hsame
    have hair := hbatch.cell ⟨⟨0, 0⟩, 0, 1395⟩
    rw [hchunks, hstone] at hair
    exact absurd hair (by decide)
  · exact absurd rfl hearlier

end Cubic.World
