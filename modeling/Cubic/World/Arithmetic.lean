import Cubic.World.Float

/-!
# Arithmetic of `f64`, and equality of `f32`

Results are rounded to the nearest number, ties to the even one. A finite number is a whole
number of the smallest subnormal, `2 ^ -1074`, so sums and products are taken exactly before
they are rounded.
-/

namespace Cubic.World

set_option autoImplicit false

/-- `n / 2 ^ k`, rounded to the nearest natural number and to the even one of two. -/
def halfEven (n k : Nat) : Nat :=
  let quotient := n / 2 ^ k
  let rest := n % 2 ^ k
  if 2 * rest < 2 ^ k ∨ 2 * rest = 2 ^ k ∧ quotient % 2 = 0 then quotient else quotient + 1

/-- `a == b`: the zeros are equal, and a NaN is equal to nothing. -/
def F32.equals (a b : F32) : Bool := !a.isNan && !b.isNan && decide (a.rank = b.rank)

namespace F64

/-- The bits of infinity: those above are NaNs. -/
def infinityBits : Nat := 0x7ff * 2 ^ 52

def isNegative (a : F64) : Bool := 2 ^ 63 ≤ a.bits.toNat

def ofBits (negative : Bool) (bits : Nat) : F64 :=
  ⟨.ofNat (if negative then 2 ^ 63 + bits else bits)⟩

def nan : F64 := ofBits false (infinityBits + 2 ^ 51)

def infinity (negative : Bool) : F64 := ofBits negative infinityBits

def isZero (a : F64) : Bool := a.bits.toNat % 2 ^ 63 = 0

/-- How often a finite number has the smallest subnormal, its sign left out. -/
def magnitude (a : F64) : Nat :=
  let exponent := a.bits.toNat % 2 ^ 63 / 2 ^ 52
  let fraction := a.bits.toNat % 2 ^ 52
  if exponent = 0 then fraction else (2 ^ 52 + fraction) * 2 ^ (exponent - 1)

def scaled (a : F64) : Int := if a.isNegative then -a.magnitude else a.magnitude

/-- The number nearest to `n / 2 ^ scale`, which is infinity when there is none as large. The
exponent and the digits are put together by a sum, so that a carry goes from one to the other. -/
def nearest (negative : Bool) (n scale : Nat) : F64 :=
  let shift := max (scale - 1074) (n.log2 + 1 - 53)
  ofBits negative (min ((shift - (scale - 1074)) * 2 ^ 52 + halfEven n shift) infinityBits)

def ofScaled (i : Int) (scale : Nat) : F64 := nearest (i < 0) i.natAbs scale

def neg (a : F64) : F64 := ofBits (!a.isNegative) (a.bits.toNat % 2 ^ 63)

/-- `a - b`; a difference of nothing is positive, but for `-0 - 0`. -/
def sub (a b : F64) : F64 :=
  if a.isNan || b.isNan then nan
  else if a.isFinite then
    if b.isFinite then
      if a.scaled - b.scaled = 0 then ofBits (a.isZero && a.isNegative && !b.isNegative) 0
      else ofScaled (a.scaled - b.scaled) 1074
    else b.neg
  else if b.isFinite || a.isNegative != b.isNegative then a else nan

def mul (a b : F64) : F64 :=
  let negative := a.isNegative != b.isNegative
  if a.isNan || b.isNan then nan
  else if a.isFinite && b.isFinite then nearest negative (a.magnitude * b.magnitude) 2148
  else if a.isZero || b.isZero then nan
  else infinity negative

/-- `f64::mul_add`: `a * b + c` with one rounding. -/
def mulAdd (a b c : F64) : F64 :=
  let negative := a.isNegative != b.isNegative
  let product : Int := a.scaled * b.scaled
  if a.isNan || b.isNan || c.isNan then nan
  else if a.isFinite && b.isFinite then
    if c.isFinite then
      if product + c.scaled * 2 ^ 1074 = 0 then ofBits (negative && c.isNegative) 0
      else ofScaled (product + c.scaled * 2 ^ 1074) 2148
    else c
  else if a.isZero || b.isZero then nan
  else if c.isFinite || c.isNegative == negative then infinity negative
  else nan

/-! ### What the results are -/

theorem isFinite_iff (a : F64) : a.isFinite = true ↔ a.bits.toNat % 2 ^ 63 < infinityBits := by
  have hand : ((a.bits >>> 52) &&& 0x7ff).toNat = a.bits.toNat / 2 ^ 52 % 2 ^ 11 := by
    rw [UInt64.toNat_and, UInt64.toNat_shiftRight]
    exact (Nat.and_two_pow_sub_one_eq_mod _ 11).trans (by rw [Nat.shiftRight_eq_div_pow]; rfl)
  have hiff : a.isFinite = true ↔ a.bits.toNat / 2 ^ 52 % 2 ^ 11 ≠ 0x7ff := by
    rw [← hand, isFinite, bne_iff_ne, ne_eq, ← UInt64.toNat_inj]
    exact Iff.rfl
  rw [hiff]
  unfold infinityBits
  omega

theorem isNan_iff (a : F64) : a.isNan = true ↔ infinityBits < a.bits.toNat % 2 ^ 63 := by
  have hand : (a.bits &&& 0xfffffffffffff).toNat = a.bits.toNat % 2 ^ 52 := by
    rw [UInt64.toNat_and]
    exact Nat.and_two_pow_sub_one_eq_mod _ 52
  have hfraction : (a.bits &&& 0xfffffffffffff != 0) = true ↔ a.bits.toNat % 2 ^ 52 ≠ 0 := by
    rw [← hand, bne_iff_ne, ne_eq, ← UInt64.toNat_inj]
    exact Iff.rfl
  have hfinite := isFinite_iff a
  unfold isNan
  rw [Bool.and_eq_true, hfraction, Bool.not_eq_true', ← Bool.not_eq_true, hfinite]
  unfold infinityBits
  have hbits := a.bits.toNat_lt
  omega

/-- Neither a NaN nor negative. -/
def IsPositive (a : F64) : Prop := a.bits.toNat ≤ infinityBits

theorem ofBits_toNat (negative : Bool) {bits : Nat} (h : bits < 2 ^ 63) :
    (ofBits negative bits).bits.toNat = if negative then 2 ^ 63 + bits else bits := by
  unfold ofBits
  rw [UInt64.toNat_ofNat']
  cases negative
  · exact Nat.mod_eq_of_lt (by simp; omega)
  · exact Nat.mod_eq_of_lt (by simp; omega)

theorem ofBits_not_nan (negative : Bool) {bits : Nat} (h : bits ≤ infinityBits) :
    (ofBits negative bits).isNan = false := by
  have hsmall : infinityBits < 2 ^ 63 := by decide
  rw [← Bool.not_eq_true, isNan_iff, ofBits_toNat negative (Nat.lt_of_le_of_lt h hsmall)]
  split <;> omega

theorem isPositive_ofBits {bits : Nat} (h : bits ≤ infinityBits) : (ofBits false bits).IsPositive := by
  unfold IsPositive
  rw [ofBits_toNat false (Nat.lt_of_le_of_lt h (by decide))]
  exact h

theorem nearest_not_nan (negative : Bool) (n scale : Nat) :
    (nearest negative n scale).isNan = false := ofBits_not_nan negative (Nat.min_le_right _ _)

theorem isPositive_nearest (n scale : Nat) : (nearest false n scale).IsPositive :=
  isPositive_ofBits (Nat.min_le_right _ _)

theorem IsPositive.not_nan {a : F64} (h : a.IsPositive) : a.isNan = false := by
  rw [← Bool.not_eq_true, isNan_iff]
  unfold IsPositive at h
  omega

theorem IsPositive.not_negative {a : F64} (h : a.IsPositive) : a.isNegative = false := by
  unfold IsPositive infinityBits at h
  exact decide_eq_false (by omega)

theorem IsPositive.scaled_nonneg {a : F64} (h : a.IsPositive) : 0 ≤ a.scaled := by
  unfold scaled
  rw [h.not_negative]
  exact Int.natCast_nonneg _

theorem isFinite_of_not_nan_zero {a : F64} (h : a.isZero = true) : a.isFinite = true := by
  rw [isFinite_iff, of_decide_eq_true h]
  decide

theorem le_of_not_lt {a b : F64} (ha : a.isNan = false) (hb : b.isNan = false)
    (h : b.lt a = false) : a.le b = true := by
  unfold lt at h
  unfold le
  rw [ha, hb] at *
  simp only [Bool.not_false, Bool.true_and, decide_eq_false_iff_not, Int.not_lt] at h
  exact decide_eq_true h

theorem sub_not_nan {a b : F64} (ha : a.isFinite = true) (hb : b.isFinite = true) :
    (sub a b).isNan = false := by
  unfold sub isNan
  rw [ha, hb]
  simp only [Bool.not_true, Bool.false_and, Bool.or_self, Bool.false_eq_true, if_false, if_true]
  split
  · exact ofBits_not_nan _ (by decide)
  · exact nearest_not_nan _ _ _

theorem sub_self {a : F64} (ha : a.isFinite = true) : sub a a = zero := by
  unfold sub isNan
  rw [ha]
  simp only [Bool.not_true, Bool.false_and, Bool.or_self, Bool.false_eq_true, if_false, if_true,
    Int.sub_self]
  cases a.isNegative
  · rw [Bool.and_false, Bool.false_and]; rfl
  · rw [Bool.not_true, Bool.and_false]; rfl

theorem isPositive_mul_self {a : F64} (h : a.isNan = false) : (mul a a).IsPositive := by
  unfold mul
  rw [h, bne_self_eq_false]
  simp only [Bool.or_self, Bool.and_self, Bool.false_eq_true, if_false]
  split
  · exact isPositive_nearest _ _
  · split
    · rename_i hfinite hzero
      exact absurd (isFinite_of_not_nan_zero hzero) hfinite
    · exact isPositive_ofBits (Nat.le_refl _)

theorem isPositive_mulAdd_self {a c : F64} (h : a.isNan = false) (hc : c.IsPositive) :
    (mulAdd a a c).IsPositive := by
  unfold mulAdd
  rw [h, hc.not_nan, bne_self_eq_false, hc.not_negative]
  simp only [Bool.or_self, Bool.and_self, Bool.false_eq_true, if_false,
    BEq.rfl, Bool.or_true, if_true]
  split
  · split
    · split
      · exact isPositive_ofBits (by decide)
      · have hsum : 0 ≤ a.scaled * a.scaled + c.scaled * 2 ^ 1074 :=
          Int.add_nonneg (mul_self_nonneg _) (Int.mul_nonneg hc.scaled_nonneg (by decide))
        unfold ofScaled
        rw [decide_eq_false (Int.not_lt.mpr hsum)]
        exact isPositive_nearest _ _
    · exact hc
  · split
    · rename_i hfinite hzero
      exact absurd (isFinite_of_not_nan_zero hzero) hfinite
    · exact isPositive_ofBits (Nat.le_refl _)

end F64

namespace F32

theorem equals_self {a : F32} (h : a.isFinite = true) : a.equals a = true := by
  unfold equals isNan
  rw [h, decide_eq_true rfl]
  rfl

theorem equals_comm (a b : F32) : a.equals b = b.equals a := by
  unfold equals
  rw [Bool.and_comm (!a.isNan), decide_eq_decide.mpr eq_comm]

end F32

def LocalPlayerPose.isFinite (pose : LocalPlayerPose) : Bool :=
  pose.x.isFinite && pose.y.isFinite && pose.z.isFinite && pose.yaw.isFinite &&
    pose.pitch.isFinite && pose.eyeHeight.isFinite

end Cubic.World
