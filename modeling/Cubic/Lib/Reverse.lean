import Cubic.Lib.OrderedMap

/-!
# A map read backwards

Each value with the last key that holds it. Where no two keys hold one value this is the
inverse of the map; in any case a value is found just where some key holds it, and what is
found holds it.
-/

namespace Cubic.OrderedMap

set_option autoImplicit false

variable {κ ν : Type} [LinearOrder κ]

/-- No two keys hold one value. -/
def Injective (m : OrderedMap κ ν) : Prop :=
  ∀ k k' v, m.lookup k = some v → m.lookup k' = some v → k = k'

/-- A list in which a value comes with one key only is read into such a map. -/
theorem injective_ofList {xs : List (κ × ν)}
    (h : ∀ e ∈ xs, ∀ e' ∈ xs, e.2 = e'.2 → e.1 = e'.1) : (ofList xs).Injective := by
  intro k k' v hk hk'
  exact h (k, v) (mem_of_mem_ofList (mem_entries_iff.mpr hk)) (k', v)
    (mem_of_mem_ofList (mem_entries_iff.mpr hk')) rfl

theorem mem_foldl_insert_key {xs : List (κ × ν)} {k : κ} : ∀ {m : OrderedMap κ ν},
    k ∈ xs.map Prod.fst ∨ (m.lookup k).isSome →
      ((xs.foldl (fun m e => m.insert e.1 e.2) m).lookup k).isSome := by
  induction xs with
  | nil => exact fun h => h.resolve_left List.not_mem_nil
  | cons e rest ih =>
    intro m h
    apply ih
    by_cases hk : k = e.1
    · right
      rw [lookup_insert, if_pos hk]
      rfl
    · rw [lookup_insert, if_neg hk]
      rcases h with hmem | hm
      · exact .inl ((List.mem_cons.mp hmem).resolve_left hk)
      · exact .inr hm

variable [LinearOrder ν]

def reverse (m : OrderedMap κ ν) : OrderedMap ν κ := ofList (m.entries.map fun e => (e.2, e.1))

theorem lookup_of_reverse {m : OrderedMap κ ν} {k : κ} {v : ν} (h : m.reverse.lookup v = some k) :
    m.lookup k = some v := by
  obtain ⟨e, he, heq⟩ := List.mem_map.mp (mem_of_mem_ofList (mem_entries_iff.mpr h))
  cases heq
  exact mem_entries_iff.mp he

theorem exists_reverse {m : OrderedMap κ ν} {k : κ} {v : ν} (h : m.lookup k = some v) :
    ∃ k', m.reverse.lookup v = some k' := by
  apply Option.isSome_iff_exists.mp
  refine mem_foldl_insert_key (.inl ?_)
  rw [List.map_map]
  exact List.mem_map.mpr ⟨(k, v), mem_entries_iff.mpr h, rfl⟩

theorem Injective.lookup_reverse {m : OrderedMap κ ν} (hm : m.Injective) {k : κ} {v : ν} :
    m.reverse.lookup v = some k ↔ m.lookup k = some v := by
  constructor
  · exact lookup_of_reverse
  · intro h
    obtain ⟨k', hk'⟩ := exists_reverse h
    rw [hk', hm k' k v (lookup_of_reverse hk') h]

end Cubic.OrderedMap
