import Mathlib.Algebra.BigOperators.Group.List.Basic
import Mathlib.Algebra.GroupWithZero.Nat
import Mathlib.Logic.Function.Basic
import Mathlib.Order.Lattice

/-!
# Dealing a budget along a list

Each place in turn takes what it wishes, as far as the budget still reaches.
-/

namespace Cubic

set_option autoImplicit false

variable {ι : Type} [DecidableEq ι] {wish : ι → Nat} {xs ys : List ι} {i : ι} {budget : Nat}

/-- What place `i` receives. -/
def dealt (wish : ι → Nat) : List ι → Nat → ι → Nat
  | [], _, _ => 0
  | j :: rest, budget, i =>
    if i = j then min (wish j) budget else dealt wish rest (budget - wish j) i

theorem dealt_cons_apply (wish : ι → Nat) (j : ι) (rest : List ι) (budget : Nat) (i : ι) :
    dealt wish (j :: rest) budget i =
      if i = j then min (wish j) budget else dealt wish rest (budget - wish j) i := rfl

theorem dealt_of_not_mem (h : i ∉ xs) : ∀ budget, dealt wish xs budget i = 0 := by
  induction xs with
  | nil => exact fun _ => rfl
  | cons j rest ih =>
    intro budget
    obtain ⟨hj, hrest⟩ := not_or.mp fun hor => h (List.mem_cons.mpr hor)
    rw [dealt_cons_apply, if_neg hj, ih hrest]

@[simp] theorem dealt_zero : dealt wish xs 0 i = 0 := by
  induction xs with
  | nil => rfl
  | cons j rest ih =>
    rw [dealt_cons_apply, Nat.min_zero, Nat.zero_sub, ih]
    exact ite_self 0

theorem dealt_cons (wish : ι → Nat) (j : ι) (rest : List ι) (budget : Nat) :
    dealt wish (j :: rest) budget =
      Function.update (dealt wish rest (budget - wish j)) j (min (wish j) budget) := by
  funext i
  by_cases h : i = j
  · rw [h, Function.update_self, dealt_cons_apply, if_pos rfl]
  · rw [Function.update_of_ne h, dealt_cons_apply, if_neg h]

theorem dealt_le (wish : ι → Nat) (xs : List ι) (i : ι) :
    ∀ budget, dealt wish xs budget i ≤ wish i := by
  induction xs with
  | nil => exact fun _ => Nat.zero_le _
  | cons j rest ih =>
    intro budget
    rw [dealt_cons_apply]
    split
    · rename_i heq
      exact heq ▸ Nat.min_le_left _ _
    · exact ih _

theorem dealt_append_of_mem (h : i ∈ xs) : ∀ budget,
    dealt wish (xs ++ ys) budget i = dealt wish xs budget i := by
  induction xs with
  | nil => exact absurd h List.not_mem_nil
  | cons j rest ih =>
    intro budget
    rw [List.cons_append, dealt_cons_apply, dealt_cons_apply]
    split
    · rfl
    · rename_i hj
      exact ih ((List.mem_cons.mp h).resolve_left hj) _

/-- Who is not served in the first part is served from what it leaves. -/
theorem dealt_append_of_not_mem (h : i ∉ xs) : ∀ budget,
    dealt wish (xs ++ ys) budget i = dealt wish ys (budget - (xs.map wish).sum) i := by
  induction xs with
  | nil => exact fun _ => rfl
  | cons j rest ih =>
    intro budget
    obtain ⟨hj, hrest⟩ := not_or.mp fun hor => h (List.mem_cons.mpr hor)
    rw [List.cons_append, dealt_cons_apply, if_neg hj, ih hrest, List.map_cons, List.sum_cons,
      Nat.sub_sub]

theorem dealt_congr {wish' : ι → Nat} (h : ∀ j ∈ xs, wish j = wish' j) : ∀ budget,
    dealt wish xs budget i = dealt wish' xs budget i := by
  induction xs with
  | nil => exact fun _ => rfl
  | cons j rest ih =>
    intro budget
    obtain ⟨hj, hrest⟩ := List.forall_mem_cons.mp h
    rw [dealt_cons_apply, dealt_cons_apply, hj, ih hrest]

/-- Enough for all is enough for each. -/
theorem dealt_of_sum_le (h : i ∈ xs) : ∀ {budget}, (xs.map wish).sum ≤ budget →
    dealt wish xs budget i = wish i := by
  induction xs with
  | nil => exact absurd h List.not_mem_nil
  | cons j rest ih =>
    intro budget hsum
    rw [List.map_cons, List.sum_cons] at hsum
    rw [dealt_cons_apply]
    split
    · rename_i heq
      rw [heq]
      omega
    · rename_i hj
      exact ih ((List.mem_cons.mp h).resolve_left hj) (by omega)

theorem sum_dealt (wish : ι → Nat) (hnodup : xs.Nodup) : ∀ budget,
    (xs.map (dealt wish xs budget)).sum = min budget (xs.map wish).sum := by
  induction xs with
  | nil => exact fun budget => (Nat.min_zero budget).symm
  | cons j rest ih =>
    intro budget
    obtain ⟨hj, hrest⟩ := List.nodup_cons.mp hnodup
    have htail : rest.map (dealt wish (j :: rest) budget) =
        rest.map (dealt wish rest (budget - wish j)) := by
      refine List.map_congr_left fun i hi => ?_
      have hne : i ≠ j := fun heq => hj (heq ▸ hi)
      rw [dealt_cons_apply, if_neg hne]
    rw [List.map_cons, List.sum_cons, htail, ih hrest, dealt_cons_apply, if_pos rfl, List.map_cons,
      List.sum_cons]
    omega

/-- In ascending order, those before a place are the smaller ones. -/
theorem dealt_ascending [LinearOrder ι] (hxs : xs.Pairwise (· < ·)) (h : i ∈ xs) : ∀ budget,
    dealt wish xs budget i =
      min (wish i) (budget - ((xs.filter (· < i)).map wish).sum) := by
  induction xs with
  | nil => exact absurd h List.not_mem_nil
  | cons j rest ih =>
    intro budget
    obtain ⟨hj, hrest⟩ := List.pairwise_cons.mp hxs
    rw [dealt_cons_apply]
    split
    · rename_i heq
      have hnone : (j :: rest).filter (· < i) = [] := by
        rw [List.filter_eq_nil_iff, heq]
        intro k hk
        rw [decide_eq_true_iff]
        rcases List.mem_cons.mp hk with rfl | hk
        · exact lt_irrefl _
        · exact (hj k hk).asymm
      rw [hnone, heq]
      rfl
    · rename_i hne
      have hmem := (List.mem_cons.mp h).resolve_left hne
      rw [ih hrest hmem, List.filter_cons_of_pos (by simpa using hj i hmem), List.map_cons,
        List.sum_cons, Nat.sub_sub]

end Cubic
