import Cubic.World.BlockUpdates

/-!
# Loaded chunks as a store of blocks

A block lies in a slot: a place in the container of a section of a chunk. What a batch of
updates does is told slot by slot.
-/

namespace Cubic

set_option autoImplicit false

theorem set_of_getElem? {α : Type} {xs : List α} {i : Nat} {a : α} (h : xs[i]? = some a) :
    xs.set i a = xs := by
  obtain ⟨hlt, hget⟩ := List.getElem?_eq_some_iff.mp h
  rw [← hget, List.set_getElem_self]

/-- When nothing is filtered out, the list is read through the function. -/
theorem filterMap_range_complete {α : Type} {f : Nat → Option α} {n : Nat}
    (h : ((List.range n).filterMap f).length = n) (i : Nat) :
    ((List.range n).filterMap f)[i]? = if i < n then f i else none := by
  induction n with
  | zero => simp
  | succ n ih =>
    rw [List.range_succ, List.filterMap_append] at h ⊢
    have hle : ((List.range n).filterMap f).length ≤ n :=
      (List.length_filterMap_le _ _).trans (List.length_range).le
    cases hn : f n with
    | none =>
      rw [List.filterMap_cons_none hn, List.filterMap_nil, List.append_nil] at h
      omega
    | some a =>
      rw [List.filterMap_cons_some hn, List.filterMap_nil] at h ⊢
      rw [List.length_append, List.length_singleton] at h
      have hlength : ((List.range n).filterMap f).length = n := by omega
      rcases Nat.lt_trichotomy i n with hlt | heq | hgt
      · rw [List.getElem?_append_left (hlt.trans_eq hlength.symm), ih hlength, if_pos hlt,
          if_pos (Nat.lt_succ_of_lt hlt)]
      · rw [heq, if_pos (Nat.lt_succ_self n), hn,
          List.getElem?_append_right hlength.le, hlength, Nat.sub_self]
        rfl
      · rw [if_neg (by omega), List.getElem?_eq_none_iff, List.length_append, List.length_singleton]
        omega

namespace PalettedContainer
variable {T : Type} {c : PalettedContainer T} {values : List T}

/-- A container that can be materialized is the list it materializes to. -/
theorem get_of_materialize (h : c.materialize = some values) (i : Nat) :
    c.get i = values[i]? := by
  have hfilter : (if ((List.range c.len).filterMap c.get).length ≠ c.len then none
      else some ((List.range c.len).filterMap c.get)) = some values →
      (∀ i, c.len ≤ i → c.get i = none) → c.get i = values[i]? := by
    intro hif hout
    split at hif
    · cases hif
    · rename_i hlength
      cases hif
      rw [filterMap_range_complete (not_not.mp hlength)]
      split
      · rfl
      · rename_i hge
        exact hout i (Nat.le_of_not_lt hge)
  cases c with
  | direct values' =>
    cases h
    rfl
  | single value entries =>
    refine hfilter h fun i hi => ?_
    exact if_neg (Nat.not_lt.mpr hi)
  | indirect palette indices =>
    refine hfilter h fun i hi => ?_
    change (indices[i]?).bind _ = none
    rw [List.getElem?_eq_none_iff.mpr hi]
    rfl

theorem length_materialize (h : c.materialize = some values) : values.length = c.len := by
  have hfilter : (if ((List.range c.len).filterMap c.get).length ≠ c.len then none
      else some ((List.range c.len).filterMap c.get)) = some values → values.length = c.len := by
    intro hif
    split at hif
    · cases hif
    · rename_i hlength
      cases hif
      exact not_not.mp hlength
  cases c with
  | direct values' =>
    cases h
    rfl
  | single value entries => exact hfilter h
  | indirect palette indices => exact hfilter h

/-- A container all of whose entries can be read can be materialized. -/
theorem materialize_of_get (h : ∀ i < c.len, (c.get i).isSome) :
    ∃ values, c.materialize = some values := by
  have hlength : ((List.range c.len).filterMap c.get).length = c.len := by
    rw [List.length_filterMap_eq_countP, List.countP_eq_length.mpr, List.length_range]
    intro i hi
    exact h i (List.mem_range.mp hi)
  cases c with
  | direct values => exact ⟨values, rfl⟩
  | single value entries => exact ⟨_, if_neg (not_not.mpr hlength)⟩
  | indirect palette indices => exact ⟨_, if_neg (not_not.mpr hlength)⟩

variable [DecidableEq T]

/-- A write changes nothing at all, or leaves the container materialized with the entry in
place. -/
theorem set_cases (c : PalettedContainer T) (i : Nat) (v : T) :
    c.materialize.bind (fun values => values[i]?) = none ∧ c.set i v = (false, c) ∨
    ∃ values old, c.materialize = some values ∧ values[i]? = some old ∧
      c.set i v = (decide (old ≠ v), direct (values.set i v)) := by
  unfold set
  cases hvalues : c.materialize with
  | none =>
    refine .inl ⟨rfl, ?_⟩
    split <;> rfl
  | some values =>
    have hlength := length_materialize hvalues
    cases hold : values[i]? with
    | none =>
      have hle : c.len ≤ i := hlength ▸ List.getElem?_eq_none_iff.mp hold
      refine .inl ⟨hold, ?_⟩
      rw [if_pos hle]
    | some old =>
      have hlt : ¬ c.len ≤ i :=
        Nat.not_le.mpr (hlength ▸ (List.getElem?_eq_some_iff.mp hold).1)
      refine .inr ⟨values, old, rfl, hold, ?_⟩
      rw [if_neg hlt]
      dsimp only
      rw [hold]
      dsimp only
      by_cases heq : old = v
      · rw [if_pos heq, set_of_getElem? (heq ▸ hold), decide_eq_false (not_not.mpr heq)]
      · rw [if_neg heq, decide_eq_true heq]

end PalettedContainer

end Cubic

namespace Cubic.World

/-- A block's place: an entry of the container of a section. -/
structure BlockSlot where
  coordinate : ChunkCoordinate
  sectionOffset : Nat
  index : Nat
  deriving DecidableEq

def BlockLocation.slot? (l : BlockLocation) : Option BlockSlot :=
  (sectionIndex l.localX l.localY l.localZ 16).map fun index =>
    ⟨l.coordinate, l.sectionOffset, index⟩

/-- The slot of a position of the dimension. -/
def slotAt (geometry : DimensionGeometry) (position : BlockCoordinates) : Option BlockSlot :=
  (locate geometry position).bind BlockLocation.slot?

namespace LoadedChunks

def container? (chunks : LoadedChunks) (coordinate : ChunkCoordinate) (sectionOffset : Nat) :
    Option (PalettedContainer RuntimeBlockStateId) :=
  (chunks.lookup coordinate).bind fun chunk => chunk.sections[sectionOffset]?.map (·.blocks)

/-- The block a write to the slot would replace. -/
def cell? (chunks : LoadedChunks) (slot : BlockSlot) : Option RuntimeBlockStateId :=
  (container? chunks slot.coordinate slot.sectionOffset).bind fun blocks =>
    blocks.materialize.bind fun values => values[slot.index]?

def bare (chunk : Chunk) : Chunk :=
  { chunk with sections := chunk.sections.map fun s => { s with blocks := .direct [] } }

/-- What there is beside the blocks. -/
def outline (chunks : LoadedChunks) (coordinate : ChunkCoordinate) : Option Chunk :=
  (chunks.lookup coordinate).map bare

/-- The old block of a slot gives way to a new one, in a container of its own. -/
structure Wrote (chunks chunks' : LoadedChunks) (slot : BlockSlot) (old new : RuntimeBlockStateId) :
    Prop where
  container : ∃ blocks values,
    container? chunks slot.coordinate slot.sectionOffset = some blocks ∧
      blocks.materialize = some values ∧ values[slot.index]? = some old ∧
      ∀ coordinate sectionOffset, container? chunks' coordinate sectionOffset =
        if coordinate = slot.coordinate ∧ sectionOffset = slot.sectionOffset then
          some (.direct (values.set slot.index new))
        else container? chunks coordinate sectionOffset
  outline : ∀ coordinate, outline chunks' coordinate = outline chunks coordinate

variable {chunks chunks' : LoadedChunks} {slot : BlockSlot} {old new : RuntimeBlockStateId}

theorem Wrote.cell?_old (h : Wrote chunks chunks' slot old new) : cell? chunks slot = some old := by
  obtain ⟨blocks, values, hblocks, hvalues, hold, _⟩ := h.container
  unfold cell?
  rw [hblocks, Option.bind_some, hvalues]
  exact hold

theorem Wrote.cell? (h : Wrote chunks chunks' slot old new) (slot' : BlockSlot) :
    cell? chunks' slot' = if slot' = slot then some new else cell? chunks slot' := by
  obtain ⟨blocks, values, hblocks, hvalues, hold, hwritten⟩ := h.container
  have hlt := (List.getElem?_eq_some_iff.mp hold).1
  unfold LoadedChunks.cell?
  rw [hwritten]
  by_cases hplace : slot'.coordinate = slot.coordinate ∧ slot'.sectionOffset = slot.sectionOffset
  · rw [if_pos hplace, Option.bind_some]
    change (values.set slot.index new)[slot'.index]? = _
    by_cases hindex : slot'.index = slot.index
    · have hslot : slot' = slot := by
        cases slot'
        cases slot
        obtain ⟨rfl, rfl⟩ := hplace
        cases hindex
        rfl
      rw [if_pos hslot, hindex, List.getElem?_set_self hlt]
    · have hslot : slot' ≠ slot := fun heq => hindex (congrArg BlockSlot.index heq)
      rw [if_neg hslot, List.getElem?_set_ne (Ne.symm hindex), hplace.1, hplace.2, hblocks,
        Option.bind_some, hvalues]
      rfl
  · have hslot : slot' ≠ slot := fun heq => hplace (heq ▸ ⟨rfl, rfl⟩)
    rw [if_neg hplace, if_neg hslot]

/-- The section of a chunk is written at an index, or stays as it is. -/
theorem updateSection_cases (chunk : Chunk) (sectionOffset : Nat) (x y z : UInt8)
    (new : RuntimeBlockStateId) :
    (∀ changed chunk', updateSection chunk sectionOffset x y z new = some (changed, chunk') →
        changed = false ∧ chunk' = chunk) ∧
      (∀ index s, sectionIndex x y z 16 = some index → chunk.sections[sectionOffset]? = some s →
        s.blocks.materialize.bind (fun values => values[index]?) = none) ∨
    ∃ index s values old, sectionIndex x y z 16 = some index ∧
      chunk.sections[sectionOffset]? = some s ∧ s.blocks.materialize = some values ∧
      values[index]? = some old ∧
      updateSection chunk sectionOffset x y z new = some (decide (old ≠ new), { chunk with
        sections := chunk.sections.set sectionOffset
          { s with blocks := .direct (values.set index new) } }) := by
  unfold updateSection
  cases hsection : chunk.sections[sectionOffset]? with
  | none => exact .inl ⟨nofun, nofun⟩
  | some s =>
    cases hindex : sectionIndex x y z 16 with
    | none => exact .inl ⟨nofun, nofun⟩
    | some index =>
      rcases s.blocks.set_cases index new with ⟨hnone, hset⟩ | ⟨values, old, hvalues, hold, hset⟩
      · refine .inl ⟨?_, ?_⟩
        · intro changed chunk' h
          dsimp only [bind, Option.bind, pure] at h
          rw [hset] at h
          cases h
          refine ⟨rfl, ?_⟩
          change { chunk with sections := chunk.sections.set sectionOffset s } = chunk
          rw [set_of_getElem? hsection]
        · intro index' s' hindex' hsection'
          cases hindex'
          cases hsection'
          exact hnone
      · refine .inr ⟨index, s, values, old, rfl, rfl, hvalues, hold, ?_⟩
        dsimp only [bind, Option.bind, pure]
        rw [hset]

theorem insert_same {coordinate : ChunkCoordinate} {chunk : Chunk}
    (h : chunks.lookup coordinate = some chunk) :
    OrderedMap.insert chunks coordinate chunk = chunks := by
  apply OrderedMap.ext_lookup
  intro k
  rw [OrderedMap.lookup_insert]
  split
  · rename_i heq
    rw [heq, h]
  · rfl

theorem wrote_insert {coordinate : ChunkCoordinate} {chunk : Chunk} {sectionOffset index : Nat}
    {s : ChunkSection} {values : List RuntimeBlockStateId}
    (hchunk : chunks.lookup coordinate = some chunk)
    (hsection : chunk.sections[sectionOffset]? = some s)
    (hvalues : s.blocks.materialize = some values) (hold : values[index]? = some old)
    (new : RuntimeBlockStateId) :
    Wrote chunks (OrderedMap.insert chunks coordinate { chunk with
      sections := chunk.sections.set sectionOffset
        { s with blocks := .direct (values.set index new) } })
      ⟨coordinate, sectionOffset, index⟩ old new := by
  refine ⟨⟨s.blocks, values, ?_, hvalues, hold, ?_⟩, ?_⟩
  · unfold container?
    rw [hchunk, Option.bind_some, hsection]
    rfl
  · intro coordinate' sectionOffset'
    unfold container?
    rw [OrderedMap.lookup_insert]
    dsimp only
    by_cases hcoordinate : coordinate' = coordinate
    · rw [if_pos hcoordinate, Option.bind_some, hcoordinate, hchunk, Option.bind_some]
      by_cases hoffset : sectionOffset' = sectionOffset
      · rw [if_pos ⟨rfl, hoffset⟩, hoffset,
          List.getElem?_set_self (List.getElem?_eq_some_iff.mp hsection).1]
        rfl
      · rw [if_neg fun h => hoffset h.2, List.getElem?_set_ne (Ne.symm hoffset)]
    · rw [if_neg hcoordinate, if_neg fun h => hcoordinate h.1]
  · intro coordinate'
    unfold LoadedChunks.outline
    rw [OrderedMap.lookup_insert]
    split
    · rename_i hcoordinate
      rw [hcoordinate, hchunk, Option.map_some, Option.map_some]
      unfold bare
      rw [List.map_set]
      have hset := set_of_getElem? ((List.getElem?_map ..).trans (congrArg
        (Option.map fun s : ChunkSection => { s with blocks := .direct [] }) hsection))
      exact congrArg (fun sections => some { chunk with sections := sections }) hset
    · rfl

/-- An update misses and leaves the chunks as they are, or it writes to its slot. -/
theorem updateBlock_cases (chunks : LoadedChunks) (l : BlockLocation) (new : RuntimeBlockStateId) :
    l.slot?.bind (LoadedChunks.cell? chunks) = none ∧
      chunks.updateBlock l.coordinate l.sectionOffset l.localX l.localY l.localZ new =
        (false, chunks) ∨
    ∃ slot old chunks', l.slot? = some slot ∧ Wrote chunks chunks' slot old new ∧
      chunks.updateBlock l.coordinate l.sectionOffset l.localX l.localY l.localZ new =
        (decide (old ≠ new), chunks') := by
  unfold updateBlock BlockLocation.slot?
  cases hchunk : chunks.lookup l.coordinate with
  | none =>
    refine .inl ⟨?_, rfl⟩
    cases sectionIndex l.localX l.localY l.localZ 16 with
    | none => rfl
    | some index =>
      have hnone : container? chunks l.coordinate l.sectionOffset = none := by
        unfold container?
        rw [hchunk]
        rfl
      exact congrArg (Option.bind · _) hnone
  | some chunk =>
    rw [Option.bind_some]
    rcases updateSection_cases chunk l.sectionOffset l.localX l.localY l.localZ new with
      ⟨hsame, hmiss⟩ | ⟨index, s, values, old, hindex, hsection, hvalues, hold, hupdate⟩
    · refine .inl ⟨?_, ?_⟩
      · cases hindex : sectionIndex l.localX l.localY l.localZ 16 with
        | none => rfl
        | some index =>
          change LoadedChunks.cell? chunks ⟨l.coordinate, l.sectionOffset, index⟩ = none
          unfold LoadedChunks.cell? container?
          rw [hchunk, Option.bind_some]
          cases hsection : chunk.sections[l.sectionOffset]? with
          | none => rfl
          | some s => exact hmiss index s hindex hsection
      · cases hupdate : updateSection chunk l.sectionOffset l.localX l.localY l.localZ new with
        | none => rfl
        | some result =>
          obtain ⟨hfalse, hchunk'⟩ := hsame result.1 result.2 hupdate
          change (result.1, OrderedMap.insert chunks l.coordinate result.2) = _
          rw [hfalse, hchunk', insert_same hchunk]
    · have hslot : (sectionIndex l.localX l.localY l.localZ 16).map (fun index =>
          (⟨l.coordinate, l.sectionOffset, index⟩ : BlockSlot)) =
          some ⟨l.coordinate, l.sectionOffset, index⟩ := by
        rw [hindex]
        rfl
      have hwrote := wrote_insert hchunk hsection hvalues hold new
      refine .inr ⟨_, old, _, hslot, hwrote, ?_⟩
      rw [hupdate]

/-- Chunks are known by what they hold beside the blocks and by their containers. -/
theorem ext_container (houtline : ∀ coordinate, outline chunks' coordinate = outline chunks coordinate)
    (hcontainer : ∀ coordinate sectionOffset, container? chunks' coordinate sectionOffset =
      container? chunks coordinate sectionOffset) : chunks' = chunks := by
  apply OrderedMap.ext_lookup
  intro coordinate
  have hcontainer := hcontainer coordinate
  have houtline := houtline coordinate
  unfold outline at houtline
  unfold container? at hcontainer
  cases hchunk : chunks.lookup coordinate with
  | none =>
    rw [hchunk] at houtline
    exact Option.map_eq_none_iff.mp houtline
  | some chunk =>
    rw [hchunk] at houtline hcontainer
    obtain ⟨chunk', hchunk', hbare⟩ := Option.map_eq_some_iff.mp houtline
    rw [hchunk'] at hcontainer ⊢
    have hsections : chunk'.sections = chunk.sections := by
      apply List.ext_getElem?
      intro i
      have hblocks := hcontainer i
      have hrest := congrArg (·[i]?) (congrArg Chunk.sections hbare)
      unfold bare at hrest
      dsimp only at hrest
      rw [List.getElem?_map, List.getElem?_map] at hrest
      rw [Option.bind_some, Option.bind_some] at hblocks
      cases hs : chunk.sections[i]? with
      | none =>
        rw [hs] at hblocks
        exact Option.map_eq_none_iff.mp hblocks
      | some s =>
        rw [hs] at hblocks hrest
        obtain ⟨s', hs', hb⟩ := Option.map_eq_some_iff.mp hblocks
        rw [hs'] at hrest ⊢
        cases s
        cases s'
        cases hb
        cases hrest
        rfl
    cases chunk
    cases chunk'
    cases hsections
    cases hbare
    rfl

end LoadedChunks

theorem loaded_of_cell {chunks : LoadedChunks} {slot : BlockSlot} {old : RuntimeBlockStateId}
    (h : chunks.cell? slot = some old) : (chunks.lookup slot.coordinate).isSome := by
  unfold LoadedChunks.cell? LoadedChunks.container? at h
  cases hchunk : chunks.lookup slot.coordinate with
  | none =>
    rw [hchunk] at h
    cases h
  | some chunk => rfl

/-! ### Batches of updates -/

open LoadedChunks

/-- The last of the updates for a slot. -/
def lastUpdate (geometry : DimensionGeometry) (updates : List BlockStateUpdate) (slot : BlockSlot) :
    Option RuntimeBlockStateId :=
  ((updates.filter fun update => slotAt geometry update.position = some slot).getLast?).map (·.state)

theorem lastUpdate_concat (geometry : DimensionGeometry) (updates : List BlockStateUpdate)
    (update : BlockStateUpdate) (slot : BlockSlot) :
    lastUpdate geometry (updates ++ [update]) slot =
      if slotAt geometry update.position = some slot then some update.state
      else lastUpdate geometry updates slot := by
  unfold lastUpdate
  rw [List.filter_append]
  split
  · rename_i hslot
    rw [List.filter_cons, if_pos (decide_eq_true hslot), List.filter_nil, List.getLast?_concat]
    rfl
  · rename_i hslot
    rw [List.filter_cons, if_neg (by simpa using hslot), List.filter_nil, List.append_nil]

variable {geometry : DimensionGeometry} {chunks : LoadedChunks} {progress : BlockUpdateProgress}
  {updates : List BlockStateUpdate}

namespace BlockUpdateProgress

theorem next_cases (geometry : DimensionGeometry) (progress : BlockUpdateProgress)
    (update : BlockStateUpdate) :
    (slotAt geometry update.position).bind (cell? progress.chunks) = none ∧
      (progress.next geometry update).chunks = progress.chunks ∧
      (progress.next geometry update).changed = progress.changed ∨
    ∃ slot old, slotAt geometry update.position = some slot ∧
      Wrote progress.chunks (progress.next geometry update).chunks slot old update.state ∧
      (progress.next geometry update).changed =
        if old ≠ update.state then progress.changed.insert slot.coordinate () else progress.changed := by
  unfold BlockUpdateProgress.next slotAt
  cases locate geometry update.position with
  | none => exact .inl ⟨rfl, rfl, rfl⟩
  | some l =>
    rw [Option.bind_some]
    dsimp only
    rcases updateBlock_cases progress.chunks l update.state with
      ⟨hmiss, hupdate⟩ | ⟨slot, old, chunks', hslot, hwrote, hupdate⟩
    · rw [hupdate]
      exact .inl ⟨hmiss, rfl, rfl⟩
    · rw [hupdate]
      have hcoordinate : slot.coordinate = l.coordinate := by
        obtain ⟨_, _, rfl⟩ := Option.map_eq_some_iff.mp hslot
        rfl
      refine .inr ⟨slot, old, hslot, ?_⟩
      by_cases hne : old ≠ update.state
      · rw [decide_eq_true hne, if_pos hne, hcoordinate]
        exact ⟨hwrote, rfl⟩
      · rw [decide_eq_false hne, if_neg hne]
        exact ⟨hwrote, rfl⟩

end BlockUpdateProgress

/-- What is known of the chunks once some updates are done. -/
structure Batch (geometry : DimensionGeometry) (chunks : LoadedChunks)
    (done : List BlockStateUpdate) (progress : BlockUpdateProgress) : Prop where
  cell : ∀ slot, cell? progress.chunks slot =
    (cell? chunks slot).map fun old => (lastUpdate geometry done slot).getD old
  outline : ∀ coordinate, outline progress.chunks coordinate = outline chunks coordinate
  direct : ∀ update ∈ done, ∀ slot, slotAt geometry update.position = some slot →
    (cell? chunks slot).isSome → ∃ values,
      container? progress.chunks slot.coordinate slot.sectionOffset = some (.direct values)
  touched : ∀ coordinate sectionOffset,
    container? progress.chunks coordinate sectionOffset = container? chunks coordinate sectionOffset ∨
    ∃ update ∈ done, ∃ slot, slotAt geometry update.position = some slot ∧
      slot.coordinate = coordinate ∧ slot.sectionOffset = sectionOffset ∧
      (cell? chunks slot).isSome
  changed_loaded : ∀ coordinate ∈ progress.changed.keys, (chunks.lookup coordinate).isSome
  changed_of_ne : ∀ slot, cell? progress.chunks slot ≠ cell? chunks slot →
    slot.coordinate ∈ progress.changed.keys
  changed_iff : progress.changed.keys ≠ [] ↔ ∃ update ∈ done, ∃ slot old,
    slotAt geometry update.position = some slot ∧ cell? chunks slot = some old ∧
      old ≠ update.state

namespace Batch

theorem start (geometry : DimensionGeometry) (chunks : LoadedChunks) :
    Batch geometry chunks [] ⟨chunks, OrderedMap.empty, 0⟩ := by
  refine ⟨?_, fun _ => rfl, nofun, fun _ _ => .inl rfl, nofun, ?_, ?_⟩
  · intro slot
    exact (Option.map_id' (x := cell? chunks slot)).symm
  · exact fun slot hne => absurd rfl hne
  · exact iff_of_false (fun hne => hne rfl) nofun

theorem cell_of_unchanged (h : Batch geometry chunks updates progress)
    (hempty : progress.changed.keys = []) (slot : BlockSlot) :
    cell? progress.chunks slot = cell? chunks slot := by
  by_contra hdiffer
  have hmem := h.changed_of_ne slot hdiffer
  rw [hempty] at hmem
  cases hmem

/-- An update whose slot cannot be written changes nothing. -/
theorem miss (h : Batch geometry chunks updates progress) {update : BlockStateUpdate}
    (hmiss : (slotAt geometry update.position).bind (cell? progress.chunks) = none)
    {progress' : BlockUpdateProgress} (hchunks : progress'.chunks = progress.chunks)
    (hchanged : progress'.changed = progress.changed) :
    Batch geometry chunks (updates ++ [update]) progress' := by
  have hnone : ∀ slot, slotAt geometry update.position = some slot → cell? chunks slot = none := by
    intro slot hslot
    rw [hslot, Option.bind_some, h.cell] at hmiss
    exact Option.map_eq_none_iff.mp hmiss
  refine ⟨?_, ?_, ?_, ?_, ?_, ?_, ?_⟩
  · intro slot
    rw [hchunks, h.cell, lastUpdate_concat]
    split
    · rename_i hslot
      rw [hnone slot hslot]
      rfl
    · rfl
  · rw [hchunks]
    exact h.outline
  · intro update' hupdate slot hslot hcell
    rw [hchunks]
    rcases List.mem_append.mp hupdate with hmem | hmem
    · exact h.direct update' hmem slot hslot hcell
    · obtain rfl := List.mem_singleton.mp hmem
      rw [hnone slot hslot] at hcell
      cases hcell
  · intro coordinate sectionOffset
    rw [hchunks]
    rcases h.touched coordinate sectionOffset with hsame | ⟨update', hmem, htouched⟩
    · exact .inl hsame
    · exact .inr ⟨update', List.mem_append_left _ hmem, htouched⟩
  · rw [hchanged]
    exact h.changed_loaded
  · rw [hchunks, hchanged]
    exact h.changed_of_ne
  · rw [hchanged, h.changed_iff]
    constructor
    · rintro ⟨update', hmem, hchange⟩
      exact ⟨update', List.mem_append_left _ hmem, hchange⟩
    · rintro ⟨update', hmem, slot, old, hslot, hcell, hne⟩
      rcases List.mem_append.mp hmem with hmem | hmem
      · exact ⟨update', hmem, slot, old, hslot, hcell, hne⟩
      · obtain rfl := List.mem_singleton.mp hmem
        cases (hnone slot hslot).symm.trans hcell

/-- An update that writes is the last one for its slot. -/
theorem hit (h : Batch geometry chunks updates progress) {update : BlockStateUpdate}
    {slot : BlockSlot} {old : RuntimeBlockStateId}
    (hslot : slotAt geometry update.position = some slot) {progress' : BlockUpdateProgress}
    (hwrote : Wrote progress.chunks progress'.chunks slot old update.state)
    (hchanged : progress'.changed = if old ≠ update.state then
      progress.changed.insert slot.coordinate () else progress.changed) :
    Batch geometry chunks (updates ++ [update]) progress' := by
  obtain ⟨first, hfirst, hold⟩ := Option.map_eq_some_iff.mp ((h.cell slot).symm.trans hwrote.cell?_old)
  have hcell := hwrote.cell?
  have hkeys : ∀ coordinate, coordinate ∈ progress'.changed.keys ↔
      coordinate ∈ progress.changed.keys ∨ coordinate = slot.coordinate ∧ old ≠ update.state := by
    intro coordinate
    rw [hchanged]
    split
    · rename_i hne
      rw [OrderedMap.mem_keys_insert, and_iff_left hne]
      exact or_comm
    · rename_i heq
      exact (or_iff_left fun hne => heq hne.2).symm
  refine ⟨?_, ?_, ?_, ?_, ?_, ?_, ?_⟩
  · intro slot'
    rw [hcell, lastUpdate_concat, hslot]
    by_cases heq : slot' = slot
    · rw [if_pos heq, if_pos (congrArg some heq.symm), heq, hfirst]
      rfl
    · rw [if_neg heq, if_neg fun hsome => heq (Option.some.inj hsome).symm]
      exact h.cell slot'
  · intro coordinate
    exact (hwrote.outline coordinate).trans (h.outline coordinate)
  · intro update' hupdate slot' hslot' hreadable
    obtain ⟨_, values, _, _, _, hwritten⟩ := hwrote.container
    rw [hwritten]
    split
    · exact ⟨_, rfl⟩
    · rename_i hplace
      rcases List.mem_append.mp hupdate with hmem | hmem
      · exact h.direct update' hmem slot' hslot' hreadable
      · obtain rfl := List.mem_singleton.mp hmem
        cases hslot.symm.trans hslot'
        exact absurd ⟨rfl, rfl⟩ hplace
  · intro coordinate sectionOffset
    obtain ⟨_, values, _, _, _, hwritten⟩ := hwrote.container
    rw [hwritten]
    split
    · rename_i hplace
      refine .inr ⟨update, List.mem_append_right _ (List.mem_singleton_self _), slot, hslot,
        hplace.1.symm, hplace.2.symm, ?_⟩
      rw [hfirst]
      rfl
    · rcases h.touched coordinate sectionOffset with hsame | ⟨update', hmem, htouched⟩
      · exact .inl hsame
      · exact .inr ⟨update', List.mem_append_left _ hmem, htouched⟩
  · intro coordinate hmem
    rcases (hkeys coordinate).mp hmem with hmem | ⟨rfl, _⟩
    · exact h.changed_loaded coordinate hmem
    · exact loaded_of_cell hfirst
  · intro slot' hne
    rw [hkeys]
    by_cases hsame : cell? progress.chunks slot' = cell? chunks slot'
    · rw [hcell] at hne
      split at hne
      · rename_i heq
        refine .inr ⟨congrArg BlockSlot.coordinate heq, ?_⟩
        intro hold
        rw [← hold, ← hwrote.cell?_old, ← heq] at hne
        exact hne hsame
      · exact absurd hsame hne
    · exact .inl (h.changed_of_ne slot' hsame)
  · constructor
    · intro hne
      obtain ⟨coordinate, hmem⟩ := List.exists_mem_of_ne_nil _ hne
      by_cases hempty : progress.changed.keys = []
      · rcases (hkeys coordinate).mp hmem with hmem | ⟨rfl, hne⟩
        · rw [hempty] at hmem
          cases hmem
        · exact ⟨update, List.mem_append_right _ (List.mem_singleton_self _), slot, old, hslot,
            (h.cell_of_unchanged hempty slot).symm.trans hwrote.cell?_old, hne⟩
      · obtain ⟨update', hmem', hchange⟩ := h.changed_iff.mp hempty
        exact ⟨update', List.mem_append_left _ hmem', hchange⟩
    · rintro ⟨update', hmem, slot', old', hslot', hold', hne⟩
      by_cases hempty : progress.changed.keys = []
      · rcases List.mem_append.mp hmem with hmem | hmem
        · exact absurd hempty (h.changed_iff.mpr ⟨update', hmem, slot', old', hslot', hold', hne⟩)
        · obtain rfl := List.mem_singleton.mp hmem
          cases hslot.symm.trans hslot'
          have hsame := h.cell_of_unchanged hempty slot
          rw [hwrote.cell?_old, hold'] at hsame
          cases hsame
          exact List.ne_nil_of_mem ((hkeys _).mpr (.inr ⟨rfl, hne⟩))
      · obtain ⟨coordinate, hmem⟩ := List.exists_mem_of_ne_nil _ hempty
        exact List.ne_nil_of_mem ((hkeys coordinate).mpr (.inl hmem))

theorem next (h : Batch geometry chunks updates progress) (update : BlockStateUpdate) :
    Batch geometry chunks (updates ++ [update]) (progress.next geometry update) := by
  rcases BlockUpdateProgress.next_cases geometry progress update with
    ⟨hmiss, hchunks, hchanged⟩ | ⟨slot, old, hslot, hwrote, hchanged⟩
  · exact h.miss hmiss hchunks hchanged
  · exact h.hit hslot hwrote hchanged

theorem foldl (more : List BlockStateUpdate) : ∀ {updates progress},
    Batch geometry chunks updates progress → Batch geometry chunks (updates ++ more)
      (more.foldl (BlockUpdateProgress.next geometry) progress) := by
  induction more with
  | nil =>
    intro updates progress h
    rw [List.append_nil]
    exact h
  | cons update more ih =>
    intro updates progress h
    rw [← List.singleton_append, ← List.append_assoc]
    exact ih (h.next update)

end Batch

/-- What a whole batch does. -/
theorem batch_foldl (geometry : DimensionGeometry) (chunks : LoadedChunks)
    (updates : List BlockStateUpdate) : Batch geometry chunks updates
      (updates.foldl (BlockUpdateProgress.next geometry) ⟨chunks, OrderedMap.empty, 0⟩) :=
  Batch.foldl updates (Batch.start geometry chunks)

end Cubic.World
