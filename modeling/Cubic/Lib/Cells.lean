import Mathlib.Algebra.Order.Ring.Nat
import Mathlib.Data.List.Basic

/-!
# A list as cells of one size

Writing a cell leaves the others alone, so after many writes a cell holds what the writes to it
agree on.
-/

namespace Cubic.Cells

set_option autoImplicit false

variable {α : Type} {k : Nat} {xs v : List α} {n m : Nat}

def cell (k : Nat) (xs : List α) (n : Nat) : List α := (xs.drop (k * n)).take k

def put (k : Nat) (xs : List α) (n : Nat) (v : List α) : List α :=
  xs.take (k * n) ++ (v ++ xs.drop (k * n + k))

/-- The writes in order. -/
def paint (k : Nat) (xs : List α) (writes : List (Nat × List α)) : List α :=
  writes.foldl (fun xs w => put k xs w.1 w.2) xs

theorem paint_append (writes rest : List (Nat × List α)) :
    paint k xs (writes ++ rest) = paint k (paint k xs writes) rest :=
  List.foldl_append

theorem length_put (hv : v.length = k) (h : k * n + k ≤ xs.length) :
    (put k xs n v).length = xs.length := by
  rw [put, List.length_append, List.length_append, List.length_take, List.length_drop, hv]
  omega

theorem cell_put_self (hv : v.length = k) (h : k * n + k ≤ xs.length) :
    cell k (put k xs n v) n = v := by
  have hprefix : (xs.take (k * n)).length = k * n := by
    rw [List.length_take]
    omega
  rw [cell, put, List.drop_append_of_le_length hprefix.ge, List.drop_eq_nil_of_le hprefix.le,
    List.nil_append, List.take_append_of_le_length hv.ge, List.take_of_length_le hv.le]

theorem cell_put_of_ne (hv : v.length = k) (h : k * n + k ≤ xs.length) (hne : m ≠ n) :
    cell k (put k xs n v) m = cell k xs m := by
  have hprefix : (xs.take (k * n)).length = k * n := by
    rw [List.length_take]
    omega
  rcases Nat.lt_or_gt_of_ne hne with hlt | hgt
  · -- the cell lies in the part before the written one
    have hle : k * m + k ≤ k * n := by
      rw [← Nat.mul_succ]
      exact Nat.mul_le_mul_left k hlt
    rw [cell, put, List.drop_append_of_le_length (by omega), List.take_append_of_le_length]
    · rw [List.drop_take, List.take_take, Nat.min_eq_left (by omega)]
      rfl
    · rw [List.length_drop]
      omega
  · have hle : k * n + k ≤ k * m := by
      rw [← Nat.mul_succ]
      exact Nat.mul_le_mul_left k hgt
    have hsplit : k * m = (k * n + k) + (k * m - (k * n + k)) := by
      omega
    have hlength : (xs.take (k * n) ++ v).length = k * n + k := by
      rw [List.length_append, hprefix, hv]
    rw [cell, put, ← List.append_assoc, hsplit, ← List.drop_drop, ← hlength, List.drop_left,
      List.drop_drop, hlength, ← hsplit]
    rfl

section
variable {writes : List (Nat × List α)}

theorem length_paint (hwrites : ∀ w ∈ writes, w.2.length = k ∧ k * w.1 + k ≤ xs.length) :
    (paint k xs writes).length = xs.length := by
  induction writes generalizing xs with
  | nil => rfl
  | cons w rest ih =>
    obtain ⟨⟨hlength, hinside⟩, hrest⟩ := List.forall_mem_cons.mp hwrites
    have hput := length_put hlength hinside
    have hlast := ih fun u hu => ⟨(hrest u hu).1, hput ▸ (hrest u hu).2⟩
    exact hlast.trans hput

theorem cell_paint_of_not_mem
    (hwrites : ∀ w ∈ writes, w.2.length = k ∧ k * w.1 + k ≤ xs.length)
    (h : ∀ w ∈ writes, w.1 ≠ n) : cell k (paint k xs writes) n = cell k xs n := by
  induction writes generalizing xs with
  | nil => rfl
  | cons w rest ih =>
    obtain ⟨⟨hlength, hinside⟩, hrest⟩ := List.forall_mem_cons.mp hwrites
    obtain ⟨hne, hothers⟩ := List.forall_mem_cons.mp h
    have hput := length_put hlength hinside
    have hlast := ih (fun u hu => ⟨(hrest u hu).1, hput ▸ (hrest u hu).2⟩) hothers
    exact hlast.trans (cell_put_of_ne hlength hinside hne.symm)

/-- A cell that is written holds the value that all its writes agree on. -/
theorem cell_paint (hwrites : ∀ w ∈ writes, w.2.length = k ∧ k * w.1 + k ≤ xs.length)
    (hagree : ∀ w ∈ writes, w.1 = n → w.2 = v) (h : ∃ w ∈ writes, w.1 = n) :
    cell k (paint k xs writes) n = v := by
  induction writes generalizing xs with
  | nil =>
    obtain ⟨w, hw, -⟩ := h
    exact absurd hw List.not_mem_nil
  | cons w rest ih =>
    obtain ⟨⟨hlength, hinside⟩, hrest⟩ := List.forall_mem_cons.mp hwrites
    obtain ⟨hfirst, hothers⟩ := List.forall_mem_cons.mp hagree
    have hput := length_put hlength hinside
    have hrest' : ∀ u ∈ rest, u.2.length = k ∧ k * u.1 + k ≤ (put k xs w.1 w.2).length :=
      fun u hu => ⟨(hrest u hu).1, hput ▸ (hrest u hu).2⟩
    change cell k (paint k (put k xs w.1 w.2) rest) n = v
    by_cases hlater : ∃ u ∈ rest, u.1 = n
    · exact ih hrest' hothers hlater
    · have hnone : ∀ u ∈ rest, u.1 ≠ n := fun u hu heq => hlater ⟨u, hu, heq⟩
      obtain ⟨u, hu, rfl⟩ := h
      rcases List.mem_cons.mp hu with rfl | hu
      · rw [cell_paint_of_not_mem hrest' hnone, cell_put_self hlength hinside]
        exact hfirst rfl
      · exact absurd rfl (hnone u hu)

end

end Cubic.Cells
