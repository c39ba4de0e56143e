import Cubic.Lib.Machine

/-! # A list of places of which one is rewritten -/

namespace Cubic

set_option autoImplicit false

variable {α : Type}

theorem sum_map_set (f : α → Nat) {xs : List α} {i : Nat} {a : α} (h : xs[i]? = some a) (b : α) :
    ((xs.set i b).map f).sum + f a = (xs.map f).sum + f b := by
  induction xs generalizing i with
  | nil => simp at h
  | cons x rest ih =>
    cases i with
    | zero =>
      have hx : x = a := by simpa using h
      subst hx
      simp only [List.set_cons_zero, List.map_cons, List.sum_cons]
      omega
    | succ i =>
      have hrest := ih (i := i) (by simpa using h)
      simp only [List.set_cons_succ, List.map_cons, List.sum_cons]
      omega

/-- A property of every place survives writing a value that has it. -/
theorem forall_mem_set {P : α → Prop} {xs : List α} (h : ∀ x ∈ xs, P x) (i : Nat) {b : α}
    (hb : P b) : ∀ x ∈ xs.set i b, P x := by
  intro x hx
  rcases List.mem_or_eq_of_mem_set hx with hx | rfl
  · exact h x hx
  · exact hb

theorem mapIdx_self {f : Nat → α → α} (h : ∀ i a, f i a = a) (xs : List α) : xs.mapIdx f = xs := by
  apply List.ext_getElem?
  intro i
  rw [List.getElem?_mapIdx, funext (h i)]
  exact Option.map_id'

/-- One place is rewritten first, and then all the others. -/
theorem mapIdx_set {f g : Nat → α → α} {xs : List α} {i : Nat} {a : α} (hi : xs[i]? = some a)
    (hf : ∀ b, f i b = b) (hg : ∀ j, j ≠ i → g j = f j) :
    (xs.set i (g i a)).mapIdx f = xs.mapIdx g := by
  apply List.ext_getElem?
  intro j
  rw [List.getElem?_mapIdx, List.getElem?_mapIdx]
  by_cases hj : j = i
  · subst hj
    rw [List.getElem?_set_self (List.getElem?_eq_some_iff.mp hi).1, hi]
    exact congrArg some (hf _)
  · rw [List.getElem?_set_ne (Ne.symm hj), hg j hj]

end Cubic
