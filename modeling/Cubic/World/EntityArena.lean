import Cubic.Lib.Run
import Cubic.World.EntityStore

/-!
# The entity store is a sound generational arena
-/

namespace Cubic.World

set_option autoImplicit false

variable {Rest : Type}

/-- The index names the live entities and no others, and the free stack the empty slots. -/
structure EntityStore.Sound (store : EntityStore Rest) : Prop where
  indexed : ∀ id handle, store.handle id = some handle →
    ∃ slot entity, store.slots[handle.slot.toNat]? = some slot ∧
      slot.generation = handle.generation ∧ slot.entity = some entity ∧ entity.id = id
  live : ∀ (index : UInt32) slot entity, store.slots[index.toNat]? = some slot →
    slot.entity = some entity → store.handle entity.id = some ⟨index, slot.generation⟩
  free_iff : ∀ index, index ∈ store.free ↔
    ∃ slot, store.slots[index.toNat]? = some slot ∧ slot.entity = none
  free_nodup : store.free.Nodup
  bounded : store.slots.length ≤ maxRemoteEntities

namespace EntityStore

theorem sound_empty : (empty : EntityStore Rest).Sound :=
  ⟨nofun, nofun, fun _ => iff_of_false List.not_mem_nil nofun, List.nodup_nil, Nat.zero_le _⟩

variable {store store' : EntityStore Rest}

/-! ### Removing -/

/-- The slot of an id is emptied. -/
structure Removed (store store' : EntityStore Rest) (id : Int32) (handle : EntityHandle)
    (slot : EntitySlot Rest) : Prop where
  handle_eq : store.handle id = some handle
  slot_eq : store.slots[handle.slot.toNat]? = some slot
  generation_eq : slot.generation = handle.generation
  result : store' = {
    slots := store.slots.set handle.slot.toNat
      { slot with entity := none, generation := slot.generation + 1 }
    byId := store.byId.remove id
    free := handle.slot :: store.free }

theorem Sound.remove_cases (h : store.Sound) (id : Int32) :
    store.handle id = none ∧ (store.remove id).2 = store ∨
      ∃ handle slot, Removed store (store.remove id).2 id handle slot := by
  unfold EntityStore.remove
  cases hhandle : store.byId.lookup id with
  | none => exact .inl ⟨hhandle, rfl⟩
  | some handle =>
    obtain ⟨slot, entity, hslot, hgeneration, _⟩ := h.indexed id handle hhandle
    refine .inr ⟨handle, slot, hhandle, hslot, hgeneration, ?_⟩
    dsimp only
    rw [hslot]

theorem Removed.slots_eq {id : Int32} {handle : EntityHandle} {slot : EntitySlot Rest}
    (h : Removed store store' id handle slot) (i : Nat) :
    store'.slots[i]? = if i = handle.slot.toNat then
      some { slot with entity := none, generation := slot.generation + 1 }
    else store.slots[i]? := by
  have hlt := (List.getElem?_eq_some_iff.mp h.slot_eq).1
  rw [h.result]
  dsimp only
  split
  · rename_i heq
    rw [heq, List.getElem?_set_self hlt]
  · rename_i hne
    exact List.getElem?_set_ne (Ne.symm hne)

theorem Removed.handle_eq' {id : Int32} {handle : EntityHandle} {slot : EntitySlot Rest}
    (h : Removed store store' id handle slot) (id' : Int32) :
    store'.handle id' = if id' = id then none else store.handle id' := by
  rw [h.result]
  exact OrderedMap.lookup_remove store.byId id id'

/-- Two ids in the same slot are one id. -/
theorem Sound.id_eq (h : store.Sound) {id id' : Int32} {handle handle' : EntityHandle}
    (hid : store.handle id = some handle) (hid' : store.handle id' = some handle')
    (hslot : handle.slot = handle'.slot) : id = id' := by
  obtain ⟨slot, entity, hs, _, he, rfl⟩ := h.indexed id handle hid
  obtain ⟨slot', entity', hs', _, he', rfl⟩ := h.indexed id' handle' hid'
  rw [hslot, hs'] at hs
  cases hs
  cases he.symm.trans he'
  rfl

theorem Sound.removed (h : store.Sound) {id : Int32} {handle : EntityHandle}
    {slot : EntitySlot Rest} (hremoved : Removed store store' id handle slot) : store'.Sound := by
  obtain ⟨slot', entity, hslot', _, hentity, hid⟩ := h.indexed id handle hremoved.handle_eq
  cases hslot'.symm.trans hremoved.slot_eq
  have hused : handle.slot ∉ store.free := by
    intro hmem
    obtain ⟨empty, hempty, hnone⟩ := (h.free_iff handle.slot).mp hmem
    cases hempty.symm.trans hremoved.slot_eq
    cases hnone.symm.trans hentity
  refine ⟨?_, ?_, ?_, ?_, ?_⟩
  · intro id' handle' hid'
    rw [hremoved.handle_eq'] at hid'
    split at hid'
    · cases hid'
    · rename_i hne
      have hslot : handle'.slot.toNat ≠ handle.slot.toNat := by
        intro heq
        exact hne (h.id_eq hid' hremoved.handle_eq (UInt32.toNat_inj.mp heq))
      rw [hremoved.slots_eq, if_neg hslot]
      exact h.indexed id' handle' hid'
  · intro index slot' entity' hindex hentity'
    rw [hremoved.slots_eq] at hindex
    split at hindex
    · cases hindex
      cases hentity'
    · rename_i hne
      have hlive := h.live index slot' entity' hindex hentity'
      rw [hremoved.handle_eq', if_neg, hlive]
      intro heq
      rw [heq, hremoved.handle_eq] at hlive
      cases hlive
      exact hne rfl
  · intro index
    rw [hremoved.slots_eq, hremoved.result, List.mem_cons]
    split
    · rename_i heq
      exact iff_of_true (.inl (UInt32.toNat_inj.mp heq)) ⟨_, rfl, rfl⟩
    · rename_i hne
      have hindex : index ≠ handle.slot := fun heq => hne (congrArg UInt32.toNat heq)
      rw [or_iff_right hindex]
      exact h.free_iff index
  · rw [hremoved.result]
    exact List.nodup_cons.mpr ⟨hused, h.free_nodup⟩
  · rw [hremoved.result]
    dsimp only
    rw [List.length_set]
    exact h.bounded

theorem Sound.remove (h : store.Sound) (id : Int32) : (store.remove id).2.Sound := by
  rcases h.remove_cases id with ⟨_, hsame⟩ | ⟨handle, slot, hremoved⟩
  · rw [hsame]
    exact h
  · exact h.removed hremoved

/-! ### Placing -/

/-- An entity is put into an empty or new slot and indexed there. -/
structure Placed (store store' : EntityStore Rest) (entity : Entity Rest) (handle : EntityHandle) :
    Prop where
  slots_eq : ∃ slot, slot.generation = handle.generation ∧ slot.entity = some entity ∧
    ∀ i, store'.slots[i]? = if i = handle.slot.toNat then some slot else store.slots[i]?
  was : (∃ slot, store.slots[handle.slot.toNat]? = some slot ∧ slot.entity = none ∧
      slot.generation = handle.generation) ∨
    store.slots[handle.slot.toNat]? = none ∧ handle.generation = 0
  handle_eq : ∀ id, store'.handle id = if id = entity.id then some handle else store.handle id
  mem_free : ∀ index, index ∈ store'.free ↔ index ∈ store.free ∧ index ≠ handle.slot
  free_nodup : store'.free.Nodup
  bounded : store'.slots.length ≤ maxRemoteEntities

theorem Sound.place_cases (h : store.Sound) (entity : Entity Rest) (atMs : UInt64) :
    store.free = [] ∧ store.place entity atMs = (.error .capacity, store) ∨
      ∃ handle store', store.place entity atMs = (.ok handle, store') ∧
        Placed store store' entity handle := by
  unfold EntityStore.place takeSlot
  cases hfree : store.free with
  | cons index free =>
    have hnodup := hfree ▸ h.free_nodup
    obtain ⟨hindex, hnodup⟩ := List.nodup_cons.mp hnodup
    obtain ⟨slot, hslot, hnone⟩ := (h.free_iff index).mp (hfree ▸ List.mem_cons_self)
    have hlt := (List.getElem?_eq_some_iff.mp hslot).1
    dsimp only
    rw [hslot]
    refine .inr ⟨_, _, rfl, ⟨⟨slot.generation, some entity, entity.authoritative, atMs⟩, rfl, rfl, ?_⟩,
      .inl ⟨slot, hslot, hnone, rfl⟩, ?_, ?_, hnodup, ?_⟩
    · intro i
      dsimp only
      split
      · rename_i heq
        rw [heq, List.getElem?_set_self hlt]
      · rename_i hne
        exact List.getElem?_set_ne (Ne.symm hne)
    · exact fun id => OrderedMap.lookup_insert store.byId entity.id id _
    · intro j
      dsimp only
      rw [hfree, List.mem_cons]
      constructor
      · intro hj
        exact ⟨.inr hj, fun heq => hindex (heq ▸ hj)⟩
      · rintro ⟨rfl | hj, hne⟩
        · exact absurd rfl hne
        · exact hj
    · dsimp only
      rw [List.length_set]
      exact h.bounded
  | nil =>
    dsimp only
    by_cases hfull : maxRemoteEntities ≤ store.slots.length
    · rw [if_pos hfull]
      exact .inl ⟨rfl, rfl⟩
    have hlength : store.slots.length < maxRemoteEntities := Nat.lt_of_not_le hfull
    have hsize : ¬ 2 ^ 32 ≤ store.slots.length := by
      rw [maxRemoteEntities] at hlength
      omega
    have hindex : (UInt32.ofNat store.slots.length).toNat = store.slots.length :=
      UInt32.toNat_ofNat_of_lt' (by rw [UInt32.size]; omega)
    rw [if_neg hfull, if_neg hsize]
    dsimp only
    rw [hindex, List.getElem?_append_right (Nat.le_refl _), Nat.sub_self]
    refine .inr ⟨_, _, rfl, ⟨⟨0, some entity, entity.authoritative, atMs⟩, rfl, rfl, ?_⟩,
      .inr ⟨?_, rfl⟩, ?_, ?_, ?_, ?_⟩
    · intro i
      dsimp only
      rw [hindex]
      split
      · rename_i heq
        rw [heq, List.getElem?_set_self (by rw [List.length_append]; exact Nat.lt_succ_self _)]
      · rename_i hne
        rw [List.getElem?_set_ne (Ne.symm hne)]
        rcases Nat.lt_or_ge i store.slots.length with hlt | hge
        · exact List.getElem?_append_left hlt
        · have hgt : store.slots.length < i := Nat.lt_of_le_of_ne hge (Ne.symm hne)
          rw [List.getElem?_eq_none_iff.mpr hge, List.getElem?_eq_none_iff]
          rw [List.length_append]
          exact hgt
    · rw [hindex]
      exact List.getElem?_eq_none_iff.mpr (Nat.le_refl _)
    · exact fun id => OrderedMap.lookup_insert store.byId entity.id id _
    · intro j
      dsimp only
      rw [hfree]
      exact iff_of_false List.not_mem_nil fun hj => List.not_mem_nil hj.1
    · exact List.nodup_nil
    · dsimp only
      rw [List.length_set, List.length_append]
      exact hlength

theorem Sound.placed (h : store.Sound) {entity : Entity Rest} {handle : EntityHandle}
    (hfresh : store.handle entity.id = none) (hplaced : Placed store store' entity handle) :
    store'.Sound := by
  obtain ⟨slot, hgeneration, hentity, hslots⟩ := hplaced.slots_eq
  have hempty : ∀ slot, store.slots[handle.slot.toNat]? = some slot → slot.entity = none := by
    intro slot hslot
    rcases hplaced.was with ⟨old, hold, hnone, _⟩ | ⟨hnone, _⟩
    · cases hold.symm.trans hslot
      exact hnone
    · cases hnone.symm.trans hslot
  refine ⟨?_, ?_, ?_, hplaced.free_nodup, hplaced.bounded⟩
  · intro id handle' hid
    rw [hplaced.handle_eq] at hid
    split at hid
    · rename_i heq
      cases hid
      exact ⟨slot, entity, (hslots _).trans (if_pos rfl), hgeneration, hentity, heq.symm⟩
    · obtain ⟨slot', entity', hslot', hgeneration', hentity', heq⟩ := h.indexed id handle' hid
      refine ⟨slot', entity', ?_, hgeneration', hentity', heq⟩
      rw [hslots, if_neg, hslot']
      intro hsame
      have hnone := hempty slot' (hsame ▸ hslot')
      cases hnone.symm.trans hentity'
  · intro index slot' entity' hindex hentity'
    rw [hslots] at hindex
    split at hindex
    · rename_i heq
      cases hindex
      cases hentity.symm.trans hentity'
      rw [hplaced.handle_eq, if_pos rfl, hgeneration, UInt32.toNat_inj.mp heq]
    · have hlive := h.live index slot' entity' hindex hentity'
      rw [hplaced.handle_eq, if_neg, hlive]
      intro heq
      rw [heq, hfresh] at hlive
      cases hlive
  · intro index
    rw [hplaced.mem_free, hslots]
    split
    · rename_i heq
      refine iff_of_false (fun hmem => hmem.2 (UInt32.toNat_inj.mp heq)) ?_
      rintro ⟨_, hslot', hnone⟩
      cases hslot'
      cases hnone.symm.trans hentity
    · rename_i hne
      have hindex : index ≠ handle.slot := fun heq => hne (congrArg UInt32.toNat heq)
      rw [and_iff_left hindex]
      exact h.free_iff index

/-! ### Spawning, clearing and editing -/

/-- A spawn that fails leaves the store as it was; otherwise the old self of the entity is
removed and the new one placed. -/
theorem Sound.spawn_cases (h : store.Sound) (entity : Entity Rest) (atMs : UInt64) :
    (∃ e, store.spawn entity atMs = (.error e, store)) ∨
      ∃ handle store', store.spawn entity atMs = (.ok handle, store') ∧
        Placed (store.remove entity.id).2 store' entity handle := by
  unfold EntityStore.spawn
  split
  · exact .inl ⟨_, rfl⟩
  split
  · exact .inl ⟨_, rfl⟩
  rcases (h.remove entity.id).place_cases entity atMs with ⟨hfree, hplace⟩ | hplace
  · rcases h.remove_cases entity.id with ⟨_, hsame⟩ | ⟨handle, slot, hremoved⟩
    · rw [hplace, hsame]
      exact .inl ⟨_, rfl⟩
    · rw [hremoved.result] at hfree
      cases hfree
  · exact .inr hplace

theorem edit_cases (store : EntityStore Rest) (handle : EntityHandle)
    (f : Entity Rest → Entity Rest) :
    store.edit handle f = store ∨ ∃ slot, store.slots[handle.slot.toNat]? = some slot ∧
      store.edit handle f = { store with
        slots := store.slots.set handle.slot.toNat { slot with entity := slot.entity.map f } } := by
  unfold EntityStore.edit
  cases hslot : store.slots[handle.slot.toNat]? with
  | none => exact .inl rfl
  | some slot =>
    dsimp only
    split
    · exact .inl rfl
    · exact .inr ⟨slot, rfl, rfl⟩

/-- The slot at an index before and after an edit. -/
theorem edit_slots (store : EntityStore Rest) (handle : EntityHandle)
    (f : Entity Rest → Entity Rest) (i : Nat) :
    (store.edit handle f).slots[i]? = store.slots[i]? ∨
      ∃ slot, store.slots[i]? = some slot ∧
        (store.edit handle f).slots[i]? = some { slot with entity := slot.entity.map f } := by
  rcases edit_cases store handle f with hsame | ⟨slot, hslot, hedit⟩
  · rw [hsame]
    exact .inl rfl
  · have hlt := (List.getElem?_eq_some_iff.mp hslot).1
    rw [hedit]
    dsimp only
    by_cases hi : i = handle.slot.toNat
    · rw [hi, List.getElem?_set_self hlt]
      exact .inr ⟨slot, hslot, rfl⟩
    · exact .inl (List.getElem?_set_ne (Ne.symm hi))

theorem edit_index (store : EntityStore Rest) (handle : EntityHandle)
    (f : Entity Rest → Entity Rest) :
    (store.edit handle f).byId = store.byId ∧ (store.edit handle f).free = store.free ∧
      (store.edit handle f).slots.length = store.slots.length := by
  rcases edit_cases store handle f with hsame | ⟨slot, hslot, hedit⟩
  · rw [hsame]
    exact ⟨rfl, rfl, rfl⟩
  · rw [hedit]
    exact ⟨rfl, rfl, List.length_set⟩

theorem Sound.edit (h : store.Sound) (handle : EntityHandle) (f : Entity Rest → Entity Rest)
    (hf : ∀ entity, (f entity).id = entity.id) : (store.edit handle f).Sound := by
  obtain ⟨hbyId, hfree, hlength⟩ := edit_index store handle f
  have hslots := edit_slots store handle f
  refine ⟨?_, ?_, ?_, hfree ▸ h.free_nodup, hlength ▸ h.bounded⟩
  · intro id handle' hid
    unfold EntityStore.handle at hid
    rw [hbyId] at hid
    obtain ⟨slot, entity, hslot, hgeneration, hentity, heq⟩ := h.indexed id handle' hid
    rcases hslots handle'.slot.toNat with hsame | ⟨slot', hslot', hedit⟩
    · exact ⟨slot, entity, hsame.trans hslot, hgeneration, hentity, heq⟩
    · cases hslot.symm.trans hslot'
      exact ⟨_, f entity, hedit, hgeneration, congrArg (Option.map f) hentity,
        (hf entity).trans heq⟩
  · intro index slot entity hslot hentity
    unfold EntityStore.handle
    rw [hbyId]
    rcases hslots index.toNat with hsame | ⟨slot', hslot', hedit⟩
    · exact h.live index slot entity (hsame.symm.trans hslot) hentity
    · cases hslot.symm.trans hedit
      obtain ⟨old, hold, rfl⟩ := Option.map_eq_some_iff.mp hentity
      rw [hf]
      exact h.live index slot' old hslot' hold
  · intro index
    rw [hfree, h.free_iff]
    rcases hslots index.toNat with hsame | ⟨slot', hslot', hedit⟩
    · rw [hsame]
    · rw [hedit, hslot']
      constructor
      · rintro ⟨slot, hslot, hnone⟩
        cases hslot
        exact ⟨_, rfl, congrArg (Option.map f) hnone⟩
      · rintro ⟨slot, hslot, hnone⟩
        cases hslot
        exact ⟨_, rfl, Option.map_eq_none_iff.mp hnone⟩

end EntityStore

/-! ### Handles over a run -/

/-- What a spawn returned, with the removals its slot had seen by then. -/
structure Birth where
  id : Int32
  handle : EntityHandle
  removals : Nat
  deriving DecidableEq

/-- The store, and beside it which spawn the entity under each id comes from. -/
structure Arena (Rest : Type) where
  store : EntityStore Rest
  births : List Birth
  live : Int32 → Option Nat
  removals : UInt32 → Nat

inductive ArenaOp (Rest : Type) where
  | spawn (entity : Entity Rest) (atMs : UInt64)
  | remove (id : Int32)
  | clear
  | edit (handle : EntityHandle) (f : Entity Rest → Entity Rest)
      (keepsId : ∀ entity, (f entity).id = entity.id)

namespace Arena

def empty : Arena Rest := ⟨EntityStore.empty, [], fun _ => none, fun _ => 0⟩

/-- The removals each slot has seen once the entity of an id is removed. -/
def countRemoval (store : EntityStore Rest) (removals : UInt32 → Nat) (id : Int32) :
    UInt32 → Nat :=
  match store.handle id with
  | some handle => Function.update removals handle.slot (removals handle.slot + 1)
  | none => removals

def remove (a : Arena Rest) (id : Int32) : Arena Rest :=
  { store := (a.store.remove id).2
    births := a.births
    live := Function.update a.live id none
    removals := countRemoval a.store a.removals id }

def next (a : Arena Rest) : ArenaOp Rest → Arena Rest
  | .spawn entity atMs =>
    match a.store.spawn entity atMs with
    | (.error _, store) => { a with store := store }
    | (.ok handle, store) =>
      let removals := countRemoval a.store a.removals entity.id
      { store := store
        births := a.births ++ [⟨entity.id, handle, removals handle.slot⟩]
        live := Function.update a.live entity.id (some a.births.length)
        removals := removals }
  | .remove id => a.remove id
  | .clear =>
    { store := a.store.clear
      births := a.births
      live := fun _ => none
      removals := (a.store.byId.keys.foldl remove a).removals }
  | .edit handle f _ => { a with store := a.store.edit handle f }

end Arena

/-- Generations count removals, the index follows the live spawns, and a spawn that is
not live has seen its slot emptied. -/
structure Arena.Tracked (a : Arena Rest) : Prop where
  sound : a.store.Sound
  generation : ∀ (index : UInt32) slot, a.store.slots[index.toNat]? = some slot →
    slot.generation = .ofNat (a.removals index)
  untouched : ∀ index : UInt32, a.store.slots[index.toNat]? = none → a.removals index = 0
  live_birth : ∀ id n, a.live id = some n → ∃ birth, a.births[n]? = some birth ∧ birth.id = id ∧
    a.store.handle id = some birth.handle ∧ a.removals birth.handle.slot = birth.removals
  indexed : ∀ id handle, a.store.handle id = some handle → ∃ n, a.live id = some n
  born : ∀ birth ∈ a.births, birth.handle.generation = .ofNat birth.removals ∧
    birth.removals ≤ a.removals birth.handle.slot
  dead : ∀ n birth, a.births[n]? = some birth → a.live birth.id ≠ some n →
    birth.removals < a.removals birth.handle.slot

namespace Arena
variable {a : Arena Rest}

theorem tracked_empty : (empty : Arena Rest).Tracked :=
  ⟨EntityStore.sound_empty, nofun, fun _ _ => rfl, nofun, nofun,
    fun _ h => absurd h List.not_mem_nil, nofun⟩

theorem Tracked.live_eq_none (h : a.Tracked) {id : Int32} (hid : a.store.handle id = none) :
    a.live id = none := by
  cases hlive : a.live id with
  | none => rfl
  | some n =>
    obtain ⟨birth, _, _, hhandle, _⟩ := h.live_birth id n hlive
    cases hid.symm.trans hhandle

theorem remove_handle (h : a.store.Sound) (id id' : Int32) :
    (a.remove id).store.handle id' = if id' = id then none else a.store.handle id' := by
  change (a.store.remove id).2.handle id' = _
  rcases h.remove_cases id with ⟨hnone, hsame⟩ | ⟨handle, slot, hremoved⟩
  · rw [hsame]
    split
    · rename_i heq
      exact heq ▸ hnone
    · rfl
  · exact hremoved.handle_eq' id'

theorem countRemoval_some {store : EntityStore Rest} {id : Int32} {handle : EntityHandle}
    (h : store.handle id = some handle) (removals : UInt32 → Nat) :
    countRemoval store removals id =
      Function.update removals handle.slot (removals handle.slot + 1) := by
  unfold countRemoval
  rw [h]

theorem countRemoval_none {store : EntityStore Rest} {id : Int32} (h : store.handle id = none)
    (removals : UInt32 → Nat) : countRemoval store removals id = removals := by
  unfold countRemoval
  rw [h]

theorem Tracked.remove_absent (h : a.Tracked) {id : Int32} (hid : a.store.handle id = none) :
    a.remove id = a := by
  obtain ⟨_, hsame⟩ | ⟨handle, slot, hremoved⟩ := h.sound.remove_cases id
  · unfold Arena.remove
    rw [hsame, countRemoval_none hid, ← h.live_eq_none hid, Function.update_eq_self]
  · cases hid.symm.trans hremoved.handle_eq

theorem Tracked.remove (h : a.Tracked) (id : Int32) : (a.remove id).Tracked := by
  rcases h.sound.remove_cases id with ⟨hnone, _⟩ | ⟨handle, slot, hremoved⟩
  · rw [h.remove_absent hnone]
    exact h
  have hcount := countRemoval_some hremoved.handle_eq a.removals
  have hself : (a.remove id).removals handle.slot = a.removals handle.slot + 1 := by
    change countRemoval a.store a.removals id handle.slot = _
    rw [hcount, Function.update_self]
  have hother : ∀ index, index ≠ handle.slot → (a.remove id).removals index = a.removals index := by
    intro index hne
    change countRemoval a.store a.removals id index = _
    rw [hcount, Function.update_of_ne hne]
  have hmono : ∀ index, a.removals index ≤ (a.remove id).removals index := by
    intro index
    by_cases hindex : index = handle.slot
    · rw [hindex, hself]
      exact Nat.le_succ _
    · rw [hother index hindex]
  have hslots : ∀ index : UInt32, (a.remove id).store.slots[index.toNat]? =
      if index.toNat = handle.slot.toNat then
        some { slot with entity := none, generation := slot.generation + 1 }
      else a.store.slots[index.toNat]? := fun index => hremoved.slots_eq index.toNat
  refine ⟨h.sound.removed hremoved, ?_, ?_, ?_, ?_, ?_, ?_⟩
  · intro index slot' hslot'
    rw [hslots] at hslot'
    split at hslot'
    · rename_i heq
      obtain rfl := UInt32.toNat_inj.mp heq
      cases hslot'
      rw [hself, h.generation _ slot hremoved.slot_eq]
      exact (UInt64.ofNat_add _ 1).symm
    · rename_i hne
      rw [hother index fun heq => hne (congrArg UInt32.toNat heq)]
      exact h.generation index slot' hslot'
  · intro index hindex
    rw [hslots] at hindex
    split at hindex
    · cases hindex
    · rename_i hne
      rw [hother index fun heq => hne (congrArg UInt32.toNat heq)]
      exact h.untouched index hindex
  · intro id' n hlive
    by_cases hid : id' = id
    · have hnone : (a.remove id).live id' = none := hid ▸ Function.update_self ..
      cases hnone.symm.trans hlive
    · have hsame : (a.remove id).live id' = a.live id' := Function.update_of_ne hid _ _
      obtain ⟨birth, hbirth, hbid, hhandle, hremovals⟩ := h.live_birth id' n (hsame ▸ hlive)
      have hslot : birth.handle.slot ≠ handle.slot :=
        fun heq => hid (h.sound.id_eq hhandle hremoved.handle_eq heq)
      refine ⟨birth, hbirth, hbid, ?_, (hother _ hslot).trans hremovals⟩
      rw [remove_handle h.sound, if_neg hid]
      exact hhandle
  · intro id' handle' hhandle
    rw [remove_handle h.sound] at hhandle
    split at hhandle
    · cases hhandle
    · rename_i hid
      obtain ⟨n, hn⟩ := h.indexed id' handle' hhandle
      exact ⟨n, (Function.update_of_ne hid _ _).trans hn⟩
  · intro birth hbirth
    obtain ⟨hgeneration, hle⟩ := h.born birth hbirth
    exact ⟨hgeneration, hle.trans (hmono _)⟩
  · intro n birth hbirth hdead
    by_cases hlive : a.live birth.id = some n
    · by_cases hid : birth.id = id
      · obtain ⟨birth', hbirth', _, hhandle, hremovals⟩ := h.live_birth _ n hlive
        cases hbirth.symm.trans hbirth'
        have hslot : birth.handle = handle :=
          Option.some.inj (hhandle.symm.trans (hid ▸ hremoved.handle_eq))
        rw [hslot, hself, ← hslot, hremovals]
        exact Nat.lt_succ_self _
      · exact absurd ((Function.update_of_ne hid _ _).trans hlive) hdead
    · exact (h.dead n birth hbirth hlive).trans_le (hmono _)

theorem Tracked.placed (h : a.Tracked) {store' : EntityStore Rest} {entity : Entity Rest}
    {handle : EntityHandle} (hfresh : a.store.handle entity.id = none)
    (hplaced : EntityStore.Placed a.store store' entity handle) :
    Tracked {
      store := store'
      births := a.births ++ [⟨entity.id, handle, a.removals handle.slot⟩]
      live := Function.update a.live entity.id (some a.births.length)
      removals := a.removals } := by
  obtain ⟨slot, hgeneration, hentity, hslots⟩ := hplaced.slots_eq
  have hbirths : handle.generation = .ofNat (a.removals handle.slot) := by
    rcases hplaced.was with ⟨old, hold, _, heq⟩ | ⟨hnone, hzero⟩
    · rw [← heq]
      exact h.generation _ old hold
    · rw [hzero, h.untouched _ hnone]
      rfl
  refine ⟨h.sound.placed hfresh hplaced, ?_, ?_, ?_, ?_, ?_, ?_⟩
  · intro index slot' hslot'
    rw [hslots] at hslot'
    split at hslot'
    · rename_i heq
      cases hslot'
      rw [hgeneration, hbirths, UInt32.toNat_inj.mp heq]
    · exact h.generation index slot' hslot'
  · intro index hindex
    rw [hslots] at hindex
    split at hindex
    · cases hindex
    · exact h.untouched index hindex
  · intro id n hlive
    by_cases hid : id = entity.id
    · subst hid
      dsimp only at hlive ⊢
      rw [Function.update_self] at hlive
      cases hlive
      exact ⟨_, List.getElem?_concat_length, rfl, (hplaced.handle_eq _).trans (if_pos rfl), rfl⟩
    · dsimp only at hlive ⊢
      rw [Function.update_of_ne hid] at hlive
      obtain ⟨birth, hbirth, hbid, hhandle, hremovals⟩ := h.live_birth id n hlive
      refine ⟨birth, ?_, hbid, (hplaced.handle_eq id).trans ((if_neg hid).trans hhandle), hremovals⟩
      exact (List.getElem?_append_left (List.getElem?_eq_some_iff.mp hbirth).1).trans hbirth
  · intro id handle' hhandle
    dsimp only at hhandle ⊢
    rw [hplaced.handle_eq] at hhandle
    split at hhandle
    · rename_i hid
      refine ⟨a.births.length, ?_⟩
      rw [hid]
      exact Function.update_self ..
    · rename_i hid
      obtain ⟨n, hn⟩ := h.indexed id handle' hhandle
      exact ⟨n, (Function.update_of_ne hid _ _).trans hn⟩
  · refine List.forall_mem_append.mpr ⟨h.born, List.forall_mem_singleton.mpr ?_⟩
    exact ⟨hbirths, Nat.le_refl _⟩
  · intro n birth hbirth hdead
    dsimp only at hbirth hdead ⊢
    rcases Nat.lt_or_ge n a.births.length with hlt | hge
    · rw [List.getElem?_append_left hlt] at hbirth
      refine h.dead n birth hbirth ?_
      intro hlive
      by_cases hid : birth.id = entity.id
      · rw [hid, h.live_eq_none hfresh] at hlive
        cases hlive
      · exact hdead ((Function.update_of_ne hid _ _).trans hlive)
    · have hlength := (List.getElem?_eq_some_iff.mp hbirth).1
      rw [List.length_append, List.length_singleton] at hlength
      obtain rfl : n = a.births.length := by omega
      rw [List.getElem?_concat_length] at hbirth
      cases hbirth
      exact absurd (Function.update_self ..) hdead

theorem Tracked.spawn (h : a.Tracked) (entity : Entity Rest) (atMs : UInt64) :
    (a.next (.spawn entity atMs)).Tracked := by
  rcases h.sound.spawn_cases entity atMs with ⟨e, hspawn⟩ | ⟨handle, store', hspawn, hplaced⟩
  · have hnext : a.next (.spawn entity atMs) = a := by
      unfold Arena.next
      dsimp only
      rw [hspawn]
    rw [hnext]
    exact h
  · have hfresh : (a.remove entity.id).store.handle entity.id = none :=
      (remove_handle h.sound _ _).trans (if_pos rfl)
    have hplaced := (h.remove entity.id).placed hfresh hplaced
    unfold Arena.next
    dsimp only
    rw [hspawn]
    unfold Arena.remove at hplaced
    rw [Function.update_idem] at hplaced
    exact hplaced

theorem foldl_remove (ids : List Int32) : ∀ a : Arena Rest, a.Tracked →
    (ids.foldl remove a).Tracked ∧
      (ids.foldl remove a).store = ids.foldl (fun store id => (store.remove id).2) a.store ∧
      (ids.foldl remove a).births = a.births ∧
      ∀ id, (ids.foldl remove a).store.handle id =
        if id ∈ ids then none else a.store.handle id := by
  induction ids with
  | nil => exact fun a h => ⟨h, rfl, rfl, fun id => (if_neg List.not_mem_nil).symm⟩
  | cons id ids ih =>
    intro a h
    obtain ⟨htracked, hstore, hbirths, hhandle⟩ := ih (a.remove id) (h.remove id)
    refine ⟨htracked, hstore, hbirths, ?_⟩
    intro id'
    rw [List.foldl_cons, hhandle, remove_handle h.sound]
    by_cases hmem : id' ∈ ids
    · rw [if_pos hmem, if_pos (List.mem_cons_of_mem id hmem)]
    · by_cases hid : id' = id
      · rw [if_neg hmem, if_pos hid, if_pos (List.mem_cons.mpr (.inl hid))]
      · rw [if_neg hmem, if_neg hid, if_neg]
        exact fun h => (List.mem_cons.mp h).elim hid hmem

theorem Tracked.clear (h : a.Tracked) : (a.next .clear).Tracked := by
  obtain ⟨htracked, hstore, hbirths, hhandle⟩ := foldl_remove a.store.byId.keys a h
  have hnone : ∀ id, (a.store.byId.keys.foldl Arena.remove a).store.handle id = none := by
    intro id
    rw [hhandle]
    split
    · rfl
    · rename_i hid
      exact Option.not_isSome_iff_eq_none.mp (mt OrderedMap.mem_keys_iff.mpr hid)
  have hnext : a.next .clear = a.store.byId.keys.foldl Arena.remove a := by
    have hlive : (fun _ => none) = (a.store.byId.keys.foldl Arena.remove a).live :=
      (funext fun id => htracked.live_eq_none (hnone id)).symm
    unfold Arena.next EntityStore.clear
    dsimp only
    rw [← hstore, ← hbirths, hlive]
  rw [hnext]
  exact htracked

theorem Tracked.edit (h : a.Tracked) (handle : EntityHandle) (f : Entity Rest → Entity Rest)
    (hf : ∀ entity, (f entity).id = entity.id) : (a.next (.edit handle f hf)).Tracked := by
  have hslots := EntityStore.edit_slots a.store handle f
  have hhandle : ∀ id, (a.store.edit handle f).handle id = a.store.handle id := by
    intro id
    unfold EntityStore.handle
    rw [(EntityStore.edit_index a.store handle f).1]
  refine ⟨h.sound.edit handle f hf, ?_, ?_, ?_, ?_, h.born, h.dead⟩
  · intro index slot hslot
    rcases hslots index.toNat with hsame | ⟨slot', hslot', hedit⟩
    · exact h.generation index slot (hsame.symm.trans hslot)
    · cases hedit.symm.trans hslot
      exact h.generation index slot' hslot'
  · intro index hindex
    rcases hslots index.toNat with hsame | ⟨slot', hslot', hedit⟩
    · exact h.untouched index (hsame.symm.trans hindex)
    · cases hedit.symm.trans hindex
  · intro id n hlive
    obtain ⟨birth, hbirth, hbid, hold, hremovals⟩ := h.live_birth id n hlive
    exact ⟨birth, hbirth, hbid, (hhandle id).trans hold, hremovals⟩
  · intro id handle' hid
    exact h.indexed id handle' ((hhandle id).symm.trans hid)

theorem Tracked.next (h : a.Tracked) (op : ArenaOp Rest) : (a.next op).Tracked := by
  cases op with
  | spawn entity atMs => exact h.spawn entity atMs
  | remove id => exact h.remove id
  | clear => exact h.clear
  | edit handle f hf => exact h.edit handle f hf

/-- A handle resolves exactly as long as the entity of its spawn lives. -/
theorem Tracked.get_isSome_iff (h : a.Tracked) {n : Nat} {birth : Birth}
    (hbirth : a.births[n]? = some birth) (hfew : a.removals birth.handle.slot < 2 ^ 64) :
    (a.store.get birth.handle).isSome ↔ a.live birth.id = some n := by
  have hborn := (h.born birth (List.mem_of_getElem? hbirth)).1
  constructor
  · intro hsome
    by_contra hdead
    have hlt := h.dead n birth hbirth hdead
    unfold EntityStore.get at hsome
    cases hslot : a.store.slots[birth.handle.slot.toNat]? with
    | none =>
      rw [hslot] at hsome
      cases hsome
    | some slot =>
      have hne : slot.generation ≠ birth.handle.generation := by
        rw [h.generation _ slot hslot, hborn]
        intro heq
        have hnat := congrArg UInt64.toNat heq
        rw [UInt64.toNat_ofNat_of_lt' hfew, UInt64.toNat_ofNat_of_lt' (hlt.trans hfew)] at hnat
        omega
      rw [hslot] at hsome
      change Option.isSome (if slot.generation ≠ birth.handle.generation then none
        else slot.entity) = true at hsome
      rw [if_pos hne] at hsome
      cases hsome
  · intro hlive
    obtain ⟨birth', hbirth', _, hhandle, _⟩ := h.live_birth _ n hlive
    cases hbirth.symm.trans hbirth'
    obtain ⟨slot, entity, hslot, hgeneration, hentity, _⟩ := h.sound.indexed _ _ hhandle
    unfold EntityStore.get
    rw [hslot]
    change Option.isSome (if slot.generation ≠ birth.handle.generation then none
      else slot.entity) = true
    rw [if_neg (not_not.mpr hgeneration), hentity]
    rfl

end Arena

/-- Over every run from the empty store: the index and the free stack are exact, a spawn
that fails changes nothing, and a handle resolves exactly as long as the entity of its own
spawn has been neither removed nor cleared. -/
theorem entityStore_sound (ops : List (ArenaOp Rest)) (a : Arena Rest)
    (hrun : Run (fun a op a' => a.next op = a') Arena.empty ops a) :
    a.store.Sound ∧
      (∀ entity atMs e store, a.store.spawn entity atMs = (.error e, store) → store = a.store) ∧
      ∀ n birth, a.births[n]? = some birth → a.removals birth.handle.slot < 2 ^ 64 →
        ((a.store.get birth.handle).isSome ↔ a.live birth.id = some n) := by
  have htracked : a.Tracked := by
    refine hrun.invariant ?_ Arena.tracked_empty
    intro a op a' h hstep
    exact hstep ▸ h.next op
  refine ⟨htracked.sound, ?_, fun n birth => htracked.get_isSome_iff⟩
  intro entity atMs e store hspawn
  rcases htracked.sound.spawn_cases entity atMs with ⟨e', hsame⟩ | ⟨handle, store', hok, _⟩
  · cases hspawn.symm.trans hsame
    rfl
  · cases hspawn.symm.trans hok

def zombie (id : Int32) : Entity Unit :=
  ⟨id, "minecraft:zombie", ⟨⟨F64.zero, F64.zero, F64.zero⟩, F32.zero, F32.zero, F32.zero⟩,
    ⟨F64.zero, F64.zero, F64.zero⟩, ()⟩

/-- The second zombie takes the slot of the first under the next generation. -/
theorem entityStore_sound_reuse :
    ∃ a, Run (fun a op a' => Arena.next a op = a') Arena.empty
        [.spawn (zombie 7) 0, .remove 7, .spawn (zombie 7) 1] a ∧ a.store.Sound ∧
      ((a.store.get ⟨0, 0⟩).isSome ↔ a.live 7 = some 0) ∧
      ((a.store.get ⟨0, 1⟩).isSome ↔ a.live 7 = some 1) := by
  have hrun : Run (fun a op a' => Arena.next a op = a') Arena.empty
      [.spawn (zombie 7) 0, .remove 7, .spawn (zombie 7) 1] _ :=
    .cons rfl (.cons rfl (.cons rfl (.nil _)))
  obtain ⟨hsound, _, hresolve⟩ := entityStore_sound _ _ hrun
  exact ⟨_, hrun, hsound, hresolve 0 ⟨7, ⟨0, 0⟩, 0⟩ (by decide +kernel) (by decide +kernel),
    hresolve 1 ⟨7, ⟨0, 1⟩, 1⟩ (by decide +kernel) (by decide +kernel)⟩

end Cubic.World
