import Mathlib.Data.List.Basic

/-!
# Dense lists of the numbers with a property

The entry of a number stands where the numbers below it that have the property are counted.
-/

namespace Cubic.Rank

set_option autoImplicit false

def below (p : Nat → Bool) (n : Nat) : Nat := (List.range n).countP p

/-- Entries for the numbers below `n` that have the property, each once, ascending. -/
def Dense {α : Type} (p : Nat → Bool) (key : α → Nat) (n : Nat) (entries : List α) : Prop :=
  entries.map key = (List.range n).filter p

theorem range_eq_append {index n : Nat} (h : index < n) :
    ∃ later, List.range n = List.range index ++ index :: later := by
  obtain ⟨k, rfl⟩ := Nat.exists_eq_add_of_lt h
  refine ⟨(List.range k).map (index + 1 + ·), ?_⟩
  rw [Nat.add_right_comm, List.range_add, List.range_succ, List.append_assoc]
  rfl

variable {α : Type} {p : Nat → Bool} {key : α → Nat} {n index : Nat} {entries : List α}

theorem Dense.length (h : Dense p key n entries) : entries.length = below p n := by
  rw [below, List.countP_eq_length_filter, ← h, List.length_map]

theorem Dense.find_absent (h : Dense p key n entries) (hindex : ¬ p index = true) :
    entries.find? (fun entry => key entry = index) = none := by
  rw [List.find?_eq_none]
  intro entry hentry hkey
  have hmem : key entry ∈ (List.range n).filter p := by
    rw [← h]
    exact List.mem_map_of_mem hentry
  rw [of_decide_eq_true hkey] at hmem
  exact hindex (List.mem_filter.mp hmem).2

theorem Dense.find_present (h : Dense p key n entries) (hn : index < n) (hindex : p index = true) :
    ∃ entry, entries[below p index]? = some entry ∧
      entries.find? (fun entry => key entry = index) = some entry := by
  obtain ⟨later, hrange⟩ := range_eq_append hn
  unfold Dense at h
  rw [hrange, List.filter_append, List.filter_cons_of_pos hindex] at h
  obtain ⟨before, rest, hentries, hbefore, hrest⟩ := List.map_eq_append_iff.mp h
  obtain ⟨entry, after, hafter, hkey, -⟩ := List.map_eq_cons_iff.mp hrest
  have hlength : below p index = before.length := by
    rw [below, List.countP_eq_length_filter, ← hbefore, List.length_map]
  have hearlier : before.find? (fun entry => key entry = index) = none := by
    rw [List.find?_eq_none]
    intro other hother hsame
    have hmem : key other ∈ (List.range index).filter p := by
      rw [← hbefore]
      exact List.mem_map_of_mem hother
    have hlt := List.mem_range.mp (List.mem_filter.mp hmem).1
    exact absurd (of_decide_eq_true hsame) (Nat.ne_of_lt hlt)
  refine ⟨entry, ?_, ?_⟩
  · rw [hentries, hafter, hlength, List.getElem?_append_right (Nat.le_refl _), Nat.sub_self]
    rfl
  · rw [hentries, hafter, List.find?_append, hearlier, Option.none_or]
    exact List.find?_cons_of_pos (decide_eq_true hkey)

end Cubic.Rank
