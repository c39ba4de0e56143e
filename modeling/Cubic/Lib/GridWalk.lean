import Cubic.Lib.Ray
import Mathlib.Algebra.BigOperators.Group.Finset.Basic
import Mathlib.Algebra.BigOperators.Ring.Finset
import Mathlib.Algebra.Order.BigOperators.Group.Finset

/-!
# Walking a grid along a line

From cell to cell, each time through the face that the point gets to first. The walk comes to every
cell that the point is ever within, and there are only so many cells before a given time.
-/

namespace Cubic.GridWalk

set_option autoImplicit false

open Ray

variable {ι K τ : Type} [DecidableEq ι] [Field K] [LinearOrder K]

/-- The next cell along an axis. -/
def advance (d : ι → K) (axis : ι) (cell : ι → ℤ) : ι → ℤ :=
  Function.update cell axis (cell axis + heading (d axis))

/-- The face across this axis is the first, or one of the first, that the point gets to. -/
def First (o d : ι → K) (cell : ι → ℤ) (axis : ι) : Prop :=
  ∀ i, leaves (o axis) (d axis) (cell axis) ≤ leaves (o i) (d i) (cell i)

/-- Look at so many cells at most, and stop where the next one is entered after the limit. -/
def search (o d : ι → K) (limit : K) (pick : (ι → ℤ) → ι) (visit : (ι → ℤ) → Option τ) :
    ℕ → (ι → ℤ) → Option τ
  | 0, _ => none
  | cells + 1, cell =>
    match visit cell with
    | some found => some found
    | none =>
      if (limit : WithTop K) < leaves (o (pick cell)) (d (pick cell)) (cell (pick cell)) then none
      else search o d limit pick visit cells (advance d (pick cell) cell)

theorem search_succ (o d : ι → K) (limit : K) (pick : (ι → ℤ) → ι) (visit : (ι → ℤ) → Option τ)
    (cells : ℕ) (cell : ι → ℤ) :
    search o d limit pick visit (cells + 1) cell =
      match visit cell with
      | some found => some found
      | none =>
        if (limit : WithTop K) < leaves (o (pick cell)) (d (pick cell)) (cell (pick cell)) then none
        else search o d limit pick visit cells (advance d (pick cell) cell) := rfl

section
variable {o d : ι → K} {limit t : K} {start cell target : ι → ℤ} {axis : ι}

theorem advance_self : advance d axis cell axis = cell axis + heading (d axis) :=
  Function.update_self ..

theorem advance_of_ne {i : ι} (h : i ≠ axis) : advance d axis cell i = cell i :=
  Function.update_of_ne h ..

theorem toward_advance (i : ι) : Toward (d i) (cell i) (advance d axis cell i) := by
  by_cases hi : i = axis
  · subst hi
    rw [advance_self]
    exact toward_heading _ _
  · rw [advance_of_ne hi]
    exact Toward.refl _ _

theorem search_found {pick : (ι → ℤ) → ι} {visit : (ι → ℤ) → Option τ} {cells : ℕ} {found : τ}
    (h : search o d limit pick visit cells cell = some found) :
    ∃ last, visit last = some found := by
  induction cells generalizing cell with
  | zero => cases h
  | succ cells ih =>
    rw [search_succ] at h
    cases hfound : visit cell with
    | some other =>
      rw [hfound] at h
      exact ⟨cell, hfound.trans h⟩
    | none =>
      rw [hfound] at h
      dsimp only at h
      split at h
      · cases h
      · exact ih h

variable [IsStrictOrderedRing K]

variable [Fintype ι]

/-- The number of steps between two cells. -/
def distance (cell target : ι → ℤ) : ℕ := ∑ i, (target i - cell i).natAbs

theorem sum_succ {f g : ι → ℕ} (axis : ι) (h : f axis + 1 = g axis)
    (hrest : ∀ i, i ≠ axis → f i = g i) : ∑ i, f i + 1 = ∑ i, g i := by
  have hcompl : ∑ i ∈ {axis}ᶜ, f i = ∑ i ∈ {axis}ᶜ, g i := by
    refine Finset.sum_congr rfl fun i hi => hrest i ?_
    rwa [Finset.mem_compl, Finset.mem_singleton] at hi
  rw [Fintype.sum_eq_add_sum_compl axis f, Fintype.sum_eq_add_sum_compl axis g, hcompl, ← h]
  ring

/-! ### Towards a cell that the point is within -/

/-- A cell on the way is left in time, and the next one is on the way as well. -/
theorem step_toward (hwithin : ∀ i, InCell (o i) (d i) t (target i))
    (htoward : ∀ i, Toward (d i) (cell i) (target i)) (hfirst : First o d cell axis)
    (hne : cell ≠ target) :
    leaves (o axis) (d axis) (cell axis) < t ∧
      (∀ i, Toward (d i) (advance d axis cell i) (target i)) ∧
      distance (advance d axis cell) target + 1 = distance cell target := by
  obtain ⟨i, hi⟩ := Function.ne_iff.mp hne
  have hleaves : leaves (o axis) (d axis) (cell axis) < t :=
    (hfirst i).trans_lt ((leaves_lt_iff (hwithin i) (htoward i)).mpr hi)
  have haxis := (leaves_lt_iff (hwithin axis) (htoward axis)).mp hleaves
  obtain ⟨hstep, hcount⟩ := (htoward axis).step haxis
  refine ⟨hleaves, fun j => ?_, sum_succ axis ?_ fun j hj => ?_⟩
  · by_cases hj : j = axis
    · subst hj
      rw [advance_self]
      exact hstep
    · rw [advance_of_ne hj]
      exact htoward j
  · rw [advance_self]
    exact hcount
  · rw [advance_of_ne hj]

/-- The search finds something in the cell or in one that the point leaves before. -/
theorem search_meets {pick : (ι → ℤ) → ι} (hpick : ∀ cell, First o d cell (pick cell))
    {visit : (ι → ℤ) → Option τ} (hvisit : (visit target).isSome) (ht : t ≤ limit)
    (hwithin : ∀ i, InCell (o i) (d i) t (target i)) {cells : ℕ}
    (htoward : ∀ i, Toward (d i) (cell i) (target i)) (hcells : distance cell target < cells) :
    ∃ last found, search o d limit pick visit cells cell = some found ∧ visit last = some found ∧
      (∀ i, Toward (d i) (cell i) (last i) ∧ Toward (d i) (last i) (target i)) ∧
      (last = target ∨ leaves (o (pick last)) (d (pick last)) (last (pick last)) < t) := by
  induction cells generalizing cell with
  | zero => exact absurd hcells (Nat.not_lt_zero _)
  | succ cells ih =>
    rw [search_succ]
    by_cases hne : cell = target
    · subst hne
      obtain ⟨found, hfound⟩ := Option.isSome_iff_exists.mp hvisit
      refine ⟨cell, found, ?_, hfound, fun i => ⟨Toward.refl _ _, htoward i⟩, Or.inl rfl⟩
      rw [hfound]
    · obtain ⟨hleaves, hnext, hcount⟩ := step_toward hwithin htoward (hpick cell) hne
      cases hfound : visit cell with
      | some found =>
        exact ⟨cell, found, rfl, hfound, fun i => ⟨Toward.refl _ _, htoward i⟩, Or.inr hleaves⟩
      | none =>
        have hlimit : ¬ (limit : WithTop K) <
            leaves (o (pick cell)) (d (pick cell)) (cell (pick cell)) :=
          (hleaves.trans_le (WithTop.coe_le_coe.mpr ht)).not_gt
        dsimp only
        rw [if_neg hlimit]
        obtain ⟨last, found, hsearch, hlast, hway, hend⟩ := ih hnext (by omega)
        exact ⟨last, found, hsearch, hlast,
          fun i => ⟨(toward_advance i).trans (hway i).1, (hway i).2⟩, hend⟩

/-! ### The cells before a time -/

/-- The cells that are entered by the time `limit`. -/
structure Travelled (o d : ι → K) (limit : K) (start cell : ι → ℤ) : Prop where
  toward : ∀ i, Toward (d i) (start i) (cell i)
  near : ∀ i, ((cell i - start i).natAbs : K) ≤ |d i| * limit + 1

omit [DecidableEq ι] [Fintype ι] in
theorem Travelled.refl (h : 0 ≤ limit) : Travelled o d limit start start := by
  refine ⟨fun i => Toward.refl _ _, fun i => ?_⟩
  rw [sub_self, Int.natAbs_zero, Nat.cast_zero]
  exact add_nonneg (mul_nonneg (abs_nonneg _) h) zero_le_one

theorem Travelled.advance (hstart : ∀ i, (start i : K) ≤ o i ∧ o i ≤ start i + 1)
    (h : Travelled o d limit start cell)
    (hleaves : leaves (o axis) (d axis) (cell axis) ≤ limit) :
    Travelled o d limit start (advance d axis cell) ∧
      distance start (GridWalk.advance d axis cell) = distance start cell + 1 := by
  have hmoves : d axis ≠ 0 := by
    intro hzero
    rw [hzero, leaves_zero] at hleaves
    exact absurd hleaves (not_le.mpr (WithTop.coe_lt_top limit))
  obtain ⟨hstep, hcount⟩ := (h.toward axis).advance hmoves
  refine ⟨⟨fun i => ?_, fun i => ?_⟩, (sum_succ axis ?_ fun i hi => ?_).symm⟩
  · by_cases hi : i = axis
    · subst hi
      rw [advance_self]
      exact hstep
    · rw [advance_of_ne hi]
      exact h.toward i
  · by_cases hi : i = axis
    · subst hi
      rw [advance_self]
      exact natAbs_le_of_leaves (hstart i) (h.toward i) hleaves
    · rw [advance_of_ne hi]
      exact h.near i
  · rw [advance_self, hcount]
  · rw [advance_of_ne hi]

omit [DecidableEq ι] in
theorem Travelled.distance_le (h : Travelled o d limit start cell) :
    (distance start cell : K) ≤ (∑ i, |d i|) * limit + Fintype.card ι := by
  calc (distance start cell : K) = ∑ i, ((cell i - start i).natAbs : K) := Nat.cast_sum _ _
    _ ≤ ∑ i, (|d i| * limit + 1) := Finset.sum_le_sum fun i _ => h.near i
    _ = (∑ i, |d i|) * limit + Fintype.card ι := by
      rw [Finset.sum_add_distrib, ← Finset.sum_mul, Finset.sum_const, Finset.card_univ,
        nsmul_eq_mul, mul_one]

/-- With cells enough for all that are entered by the limit, more of them make no difference. -/
theorem search_add {pick : (ι → ℤ) → ι} {visit : (ι → ℤ) → Option τ}
    (hstart : ∀ i, (start i : K) ≤ o i ∧ o i ≤ start i + 1) {enough cells : ℕ}
    (henough : (∑ i, |d i|) * limit + Fintype.card ι < enough)
    (h : Travelled o d limit start cell) (hcells : enough ≤ distance start cell + cells)
    (more : ℕ) :
    search o d limit pick visit (cells + more) cell = search o d limit pick visit cells cell := by
  induction cells generalizing cell with
  | zero =>
    have hlt : (distance start cell : K) < enough := h.distance_le.trans_lt henough
    exact absurd hcells (not_le.mpr (Nat.cast_lt.mp hlt))
  | succ cells ih =>
    rw [Nat.succ_add, search_succ, search_succ]
    cases visit cell with
    | some found => rfl
    | none =>
      dsimp only
      split
      · rfl
      · rename_i hleaves
        obtain ⟨hnext, hcount⟩ := h.advance hstart (not_lt.mp hleaves)
        exact ih hnext (by omega)

end

end Cubic.GridWalk
