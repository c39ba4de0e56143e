import Mathlib.Data.Int.Log
import Mathlib.Data.Rat.Floor
import Mathlib.Tactic.NormNum

/-!
# Numbers of 24 binary digits

A number is rounded to the nearest one of 24 digits, of two as near the even one. Overflow and
numbers below the normal ones are left out.
-/

namespace Cubic.Binary32

set_option autoImplicit false

/-- The nearest integer, of two as near the even one. -/
def roundEven (q : ℚ) : ℤ :=
  let low := ⌊q⌋
  if q - low < 1 / 2 then low
  else if 1 / 2 < q - low then low + 1
  else if low % 2 = 0 then low
  else low + 1

/-- The weight of the last of the 24 digits. -/
def lastDigit (q : ℚ) : ℚ := 2 ^ (Int.log 2 |q| - 23)

def nearest (q : ℚ) : ℚ := roundEven (q / lastDigit q) * lastDigit q

theorem roundEven_intCast (n : ℤ) : roundEven n = n := by
  have hlow : (n : ℚ) - ⌊(n : ℚ)⌋ < 1 / 2 := by
    rw [Int.floor_intCast, sub_self]
    norm_num
  rw [roundEven, if_pos hlow, Int.floor_intCast]

theorem lastDigit_ne_zero (q : ℚ) : lastDigit q ≠ 0 := zpow_ne_zero _ (by decide)

/-- The first of at most 24 digits is worth less than `2 ^ (24 - k)`, if the last of them is worth
`2 ^ (-k)`. -/
theorem log_lt {n k : Nat} (hpos : n ≠ 0) (hn : n < 2 ^ 24) :
    Int.log 2 |(n / 2 ^ k : ℚ)| < 24 - k := by
  have hq : (0 : ℚ) < n / 2 ^ k :=
    div_pos (Nat.cast_pos.mpr (Nat.pos_of_ne_zero hpos)) (pow_pos (by decide) k)
  have hlog := Int.zpow_log_le_self (b := 2) (by decide) hq
  have hbound : (n / 2 ^ k : ℚ) < 2 ^ (24 - k : ℤ) := by
    rw [zpow_sub₀ (by decide), zpow_natCast]
    apply div_lt_div_of_pos_right _ (pow_pos (by decide) k)
    exact_mod_cast hn
  rw [abs_of_pos hq]
  exact (zpow_lt_zpow_iff_right₀ (by norm_num : (1 : ℚ) < 2)).mp (hlog.trans_lt hbound)

/-- A number of at most 24 digits stays as it is. -/
theorem nearest_eq {n : Nat} (k : Nat) (hn : n < 2 ^ 24) : nearest (n / 2 ^ k) = n / 2 ^ k := by
  by_cases hzero : n = 0
  · subst hzero
    have hround : roundEven 0 = 0 := roundEven_intCast 0
    rw [nearest, Nat.cast_zero, zero_div, zero_div, hround, Int.cast_zero, zero_mul]
  · have hlog := log_lt (k := k) hzero hn
    obtain ⟨d, hd⟩ := Int.eq_ofNat_of_zero_le (a := -k - (Int.log 2 |(n / 2 ^ k : ℚ)| - 23)) (by omega)
    have hdigits : (n / 2 ^ k : ℚ) / lastDigit (n / 2 ^ k) = ((n * 2 ^ d : ℤ) : ℚ) := by
      rw [lastDigit, div_div, ← zpow_natCast, ← zpow_add₀ (by decide), div_eq_mul_inv, ← zpow_neg]
      have hexp : -((k : ℤ) + (Int.log 2 |(n / 2 ^ (k : ℤ) : ℚ)| - 23)) = d := by
        rw [zpow_natCast]
        omega
      rw [hexp, zpow_natCast]
      push_cast
      rfl
    rw [nearest, hdigits, roundEven_intCast, ← hdigits]
    exact div_mul_cancel₀ _ (lastDigit_ne_zero _)

end Cubic.Binary32
