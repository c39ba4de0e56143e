import Mathlib.Algebra.Order.Field.Basic
import Mathlib.Algebra.Order.Group.Unbundled.Int
import Mathlib.Algebra.Order.Monoid.WithTop
import Mathlib.Algebra.Order.Ring.Int
import Mathlib.Algebra.Order.Ring.Abs
import Mathlib.Tactic.Linarith
import Mathlib.Tactic.Ring

/-!
# A point that moves along a line

The point is at `o` to begin with and has the velocity `d`, so that it is at `o + d * t` at a time
`t`. Slabs and cells of length one lie across its way.
-/

namespace Cubic.Ray

set_option autoImplicit false

variable {K : Type} [Field K] {o d t lo hi : K}

/-- When the point is at `p`. -/
def timeAt (o d p : K) : K := (p - o) / d

theorem timeAt_add (o d p q : K) : timeAt o d (p + q) = timeAt o d p + q / d := by
  unfold timeAt
  rw [← add_div, sub_add_eq_add_sub]

variable [LinearOrder K]

/-! ### Slabs, cells and directions -/

def enters (o d lo hi : K) : K := min (timeAt o d lo) (timeAt o d hi)

def exits (o d lo hi : K) : K := max (timeAt o d lo) (timeAt o d hi)

theorem enters_le_exits : enters o d lo hi ≤ exits o d lo hi :=
  (min_le_left _ _).trans (le_max_left _ _)

/-- Which way the point moves. -/
def heading (d : K) : ℤ := if 0 < d then 1 else if d < 0 then -1 else 0

@[simp] theorem heading_of_pos (hd : 0 < d) : heading d = 1 := if_pos hd

@[simp] theorem heading_of_neg (hd : d < 0) : heading d = -1 := by
  unfold heading
  rw [if_neg hd.not_gt, if_pos hd]

@[simp] theorem heading_zero : heading (0 : K) = 0 := by
  unfold heading
  rw [if_neg (lt_irrefl _), if_neg (lt_irrefl _)]

/-- When the point leaves the cell from `c` to `c + 1`. -/
def leaves (o d : K) (c : ℤ) : WithTop K :=
  if 0 < d then (timeAt o d (c + 1) : K) else if d < 0 then (timeAt o d c : K) else ⊤

theorem leaves_of_pos {c : ℤ} (hd : 0 < d) : leaves o d c = (timeAt o d (c + 1) : K) := if_pos hd

theorem leaves_of_neg {c : ℤ} (hd : d < 0) : leaves o d c = (timeAt o d c : K) := by
  unfold leaves
  rw [if_neg hd.not_gt, if_pos hd]

theorem leaves_zero {c : ℤ} : leaves o 0 c = ⊤ := by
  unfold leaves
  rw [if_neg (lt_irrefl _), if_neg (lt_irrefl _)]

/-- Going on from the cell `c` leads to the cell `c'`. -/
def Toward (d : K) (c c' : ℤ) : Prop := |c' - c| = (c' - c) * heading d

theorem Toward.refl (d : K) (c : ℤ) : Toward d c c := by
  unfold Toward
  rw [sub_self, abs_zero, zero_mul]

theorem toward_of_pos {c c' : ℤ} (hd : 0 < d) : Toward d c c' ↔ c ≤ c' := by
  unfold Toward
  rw [heading_of_pos hd, mul_one, abs_eq_self, sub_nonneg]

theorem toward_of_neg {c c' : ℤ} (hd : d < 0) : Toward d c c' ↔ c' ≤ c := by
  unfold Toward
  rw [heading_of_neg hd, mul_neg_one, abs_eq_neg_self, sub_nonpos]

theorem toward_zero {c c' : ℤ} : Toward (0 : K) c c' ↔ c' = c := by
  unfold Toward
  rw [heading_zero, mul_zero, abs_eq_zero, sub_eq_zero]

theorem Toward.trans {c c' c'' : ℤ} (h : Toward d c c') (h' : Toward d c' c'') : Toward d c c'' := by
  rcases lt_trichotomy d 0 with hneg | rfl | hpos
  · rw [toward_of_neg hneg] at h h' ⊢
    exact h'.trans h
  · rw [toward_zero] at h h' ⊢
    exact h'.trans h
  · rw [toward_of_pos hpos] at h h' ⊢
    exact h.trans h'

theorem toward_heading (d : K) (c : ℤ) : Toward d c (c + heading d) := by
  rcases lt_trichotomy d 0 with hneg | rfl | hpos
  · rw [toward_of_neg hneg, heading_of_neg hneg]
    omega
  · rw [toward_zero, heading_zero, add_zero]
  · rw [toward_of_pos hpos, heading_of_pos hpos]
    omega

theorem Toward.step {c c' : ℤ} (h : Toward d c c') (hne : c ≠ c') :
    Toward d (c + heading d) c' ∧ (c' - (c + heading d)).natAbs + 1 = (c' - c).natAbs := by
  rcases lt_trichotomy d 0 with hneg | rfl | hpos
  · rw [toward_of_neg hneg] at h ⊢
    rw [heading_of_neg hneg]
    omega
  · exact absurd (toward_zero.mp h).symm hne
  · rw [toward_of_pos hpos] at h ⊢
    rw [heading_of_pos hpos]
    omega

theorem Toward.advance {c c' : ℤ} (h : Toward d c c') (hd : d ≠ 0) :
    Toward d c (c' + heading d) ∧ (c' + heading d - c).natAbs = (c' - c).natAbs + 1 := by
  rcases lt_or_gt_of_ne hd with hneg | hpos
  · rw [toward_of_neg hneg] at h ⊢
    rw [heading_of_neg hneg]
    omega
  · rw [toward_of_pos hpos] at h ⊢
    rw [heading_of_pos hpos]
    omega

/-- The point is within the cell, off its ends. -/
def InCell (o d t : K) (c : ℤ) : Prop := (c : K) < o + d * t ∧ o + d * t < c + 1

variable [IsStrictOrderedRing K]

/-! ### Times and places -/

theorem timeAt_le_of_pos {p : K} (hd : 0 < d) : timeAt o d p ≤ t ↔ p ≤ o + d * t := by
  unfold timeAt
  rw [div_le_iff₀ hd, sub_le_iff_le_add', mul_comm]

theorem le_timeAt_of_pos {p : K} (hd : 0 < d) : t ≤ timeAt o d p ↔ o + d * t ≤ p := by
  unfold timeAt
  rw [le_div_iff₀ hd, le_sub_iff_add_le', mul_comm]

theorem timeAt_le_of_neg {p : K} (hd : d < 0) : timeAt o d p ≤ t ↔ o + d * t ≤ p := by
  unfold timeAt
  rw [div_le_iff_of_neg hd, le_sub_iff_add_le', mul_comm]

theorem le_timeAt_of_neg {p : K} (hd : d < 0) : t ≤ timeAt o d p ↔ p ≤ o + d * t := by
  unfold timeAt
  rw [le_div_iff_of_neg hd, sub_le_iff_le_add', mul_comm]

/-! ### Passing a slab -/

theorem timeAt_mono (hd : 0 < d) (h : lo ≤ hi) : timeAt o d lo ≤ timeAt o d hi :=
  div_le_div_of_nonneg_right (sub_le_sub_right h o) hd.le

theorem timeAt_anti (hd : d < 0) (h : lo ≤ hi) : timeAt o d hi ≤ timeAt o d lo :=
  div_le_div_of_nonpos_of_le hd.le (sub_le_sub_right h o)

/-- The point is in the slab from when it enters it until it leaves it. -/
theorem between_iff (hd : d ≠ 0) (h : lo ≤ hi) :
    enters o d lo hi ≤ t ∧ t ≤ exits o d lo hi ↔ lo ≤ o + d * t ∧ o + d * t ≤ hi := by
  unfold enters exits
  rcases lt_or_gt_of_ne hd with hneg | hpos
  · have hle := timeAt_anti (o := o) hneg h
    rw [min_eq_right hle, max_eq_left hle, timeAt_le_of_neg hneg, le_timeAt_of_neg hneg, and_comm]
  · have hle := timeAt_mono (o := o) hpos h
    rw [min_eq_left hle, max_eq_right hle, timeAt_le_of_pos hpos, le_timeAt_of_pos hpos]

/-- A little after it has left the slab, the point is not far from it. -/
theorem exists_near {ε : K} (hd : d ≠ 0) (h : lo ≤ hi) (hε : 0 ≤ ε) (henters : enters o d lo hi ≤ t)
    (hexits : t ≤ exits o d lo hi + ε) :
    ∃ p, lo ≤ p ∧ p ≤ hi ∧ |o + d * t - p| ≤ |d| * ε := by
  obtain ⟨hlo, hhi⟩ := (between_iff (t := min t (exits o d lo hi)) hd h).mp
    ⟨le_min henters enters_le_exits, min_le_right _ _⟩
  refine ⟨_, hlo, hhi, ?_⟩
  have hback : 0 ≤ t - min t (exits o d lo hi) := sub_nonneg.mpr (min_le_left _ _)
  have hlate : t - min t (exits o d lo hi) ≤ ε := by
    rcases min_choice t (exits o d lo hi) with hmin | hmin
    · rw [hmin, sub_self]
      exact hε
    · rw [hmin]
      linarith
  calc |o + d * t - (o + d * min t (exits o d lo hi))|
      = |d * (t - min t (exits o d lo hi))| := by ring_nf
    _ = |d| * (t - min t (exits o d lo hi)) := by rw [abs_mul, abs_of_nonneg hback]
    _ ≤ |d| * ε := mul_le_mul_of_nonneg_left hlate (abs_nonneg d)

/-! ### Passing a cell -/

/-- It takes as long to pass any cell. -/
theorem leaves_heading {c : ℤ} (hd : d ≠ 0) :
    leaves o d (c + heading d) = leaves o d c + ((1 / |d| : K) : WithTop K) := by
  rcases lt_or_gt_of_ne hd with hneg | hpos
  · rw [leaves_of_neg hneg, leaves_of_neg hneg, heading_of_neg hneg, Int.cast_add, timeAt_add,
      Int.cast_neg, Int.cast_one, abs_of_neg hneg, neg_div, div_neg, WithTop.coe_add]
  · rw [leaves_of_pos hpos, leaves_of_pos hpos, heading_of_pos hpos, Int.cast_add, timeAt_add,
      Int.cast_one, abs_of_pos hpos, WithTop.coe_add]

/-- A slab within a cell is left no later than the cell. -/
theorem exits_le_leaves {c : ℤ} (hd : d ≠ 0) (h : lo ≤ hi) (hlo : (c : K) ≤ lo) (hhi : hi ≤ c + 1) :
    ((exits o d lo hi : K) : WithTop K) ≤ leaves o d c := by
  unfold exits
  rcases lt_or_gt_of_ne hd with hneg | hpos
  · rw [max_eq_left (timeAt_anti hneg h), leaves_of_neg hneg, WithTop.coe_le_coe]
    exact timeAt_anti hneg hlo
  · rw [max_eq_right (timeAt_mono hpos h), leaves_of_pos hpos, WithTop.coe_le_coe]
    exact timeAt_mono hpos hhi

/-! ### On the way to a cell -/

/-- The cell in which the point starts leads to every cell that it is in later. -/
theorem toward_of_within {c c' : ℤ} (hc : (c : K) ≤ o ∧ o ≤ c + 1) (ht : 0 ≤ t)
    (h : InCell o d t c') : Toward d c c' := by
  obtain ⟨hlo, hhi⟩ := h
  rcases lt_trichotomy d 0 with hneg | rfl | hpos
  · have hmoved := mul_nonpos_of_nonpos_of_nonneg hneg.le ht
    have hlt : (c' : K) < (c + 1 : ℤ) := by
      push_cast
      linarith
    exact (toward_of_neg hneg).mpr (Int.lt_add_one_iff.mp (Int.cast_lt.mp hlt))
  · rw [zero_mul, add_zero] at hlo hhi
    have hlt : (c' : K) < (c + 1 : ℤ) := by
      push_cast
      linarith
    have hgt : (c : K) < (c' + 1 : ℤ) := by
      push_cast
      linarith
    exact toward_zero.mpr (le_antisymm (Int.lt_add_one_iff.mp (Int.cast_lt.mp hlt))
      (Int.lt_add_one_iff.mp (Int.cast_lt.mp hgt)))
  · have hmoved := mul_nonneg hpos.le ht
    have hgt : (c : K) < (c' + 1 : ℤ) := by
      push_cast
      linarith
    exact (toward_of_pos hpos).mpr (Int.lt_add_one_iff.mp (Int.cast_lt.mp hgt))

/-- The point leaves each cell on the way before it is in the last, and that one afterwards. -/
theorem leaves_lt_iff {c c' : ℤ} (hwithin : InCell o d t c') (h : Toward d c c') :
    leaves o d c < t ↔ c ≠ c' := by
  obtain ⟨hlo, hhi⟩ := hwithin
  rcases lt_trichotomy d 0 with hneg | rfl | hpos
  · rw [toward_of_neg hneg] at h
    rw [leaves_of_neg hneg, WithTop.coe_lt_coe, ← not_le, le_timeAt_of_neg hneg, not_le]
    constructor
    · rintro hlt rfl
      exact absurd hlt hlo.not_gt
    · intro hne
      have hcell : ((c' + 1 : ℤ) : K) ≤ c := Int.cast_le.mpr (by omega)
      push_cast at hcell
      exact hhi.trans_le hcell
  · rw [leaves_zero]
    exact iff_of_false not_top_lt (not_not.mpr (toward_zero.mp h).symm)
  · rw [toward_of_pos hpos] at h
    rw [leaves_of_pos hpos, WithTop.coe_lt_coe, ← not_le, le_timeAt_of_pos hpos, not_le]
    constructor
    · rintro hlt rfl
      exact absurd hlt hhi.not_gt
    · intro hne
      have hcell : ((c + 1 : ℤ) : K) ≤ c' := Int.cast_le.mpr (by omega)
      push_cast at hcell
      exact hcell.trans_lt hlo

/-- How far the next cell is from the first, if it is entered by the time `t`. -/
theorem natAbs_le_of_leaves {start c : ℤ} (hstart : (start : K) ≤ o ∧ o ≤ start + 1)
    (h : Toward d start c) (hleaves : leaves o d c ≤ t) :
    ((c + heading d - start).natAbs : K) ≤ |d| * t + 1 := by
  obtain ⟨hlo, hhi⟩ := hstart
  have habs (n : ℤ) : ((n.natAbs : ℕ) : K) = ((|n| : ℤ) : K) := by
    rw [Int.abs_eq_natAbs, Int.cast_natCast]
  rw [habs]
  rcases lt_trichotomy d 0 with hneg | rfl | hpos
  · rw [toward_of_neg hneg] at h
    rw [leaves_of_neg hneg, WithTop.coe_le_coe, timeAt_le_of_neg hneg] at hleaves
    rw [heading_of_neg hneg, abs_of_nonpos (by omega), abs_of_neg hneg]
    push_cast
    linarith
  · rw [leaves_zero] at hleaves
    exact absurd hleaves (not_le.mpr (WithTop.coe_lt_top t))
  · rw [toward_of_pos hpos] at h
    rw [leaves_of_pos hpos, WithTop.coe_le_coe, timeAt_le_of_pos hpos] at hleaves
    rw [heading_of_pos hpos, abs_of_nonneg (by omega), abs_of_pos hpos]
    push_cast
    linarith

end Cubic.Ray
