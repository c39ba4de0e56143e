import Cubic.Lib.Machine

/-! # Signed and unsigned integers in bit fields of a word -/

namespace Cubic.BitField

set_option autoImplicit false

variable {w width n : Nat} {i : Int}

/-- `i` has a two's complement form of `width` bits. -/
def Fits (width : Nat) (i : Int) : Prop := -(2 ^ width : Int) ≤ 2 * i ∧ 2 * i < 2 ^ width

/-- The integer whose two's complement form has the low `width` bits of `n`. -/
def signed (width n : Nat) : Int := (n : Int).bmod (2 ^ width)

/-- The low `width` bits of `i`. -/
def residue (width : Nat) (i : Int) : Nat := (i % 2 ^ width).toNat

theorem pow_pos_int (width : Nat) : (0 : Int) < 2 ^ width := Int.pow_pos (by decide)

theorem cast_residue (width : Nat) (i : Int) : (residue width i : Int) = i % 2 ^ width :=
  Int.toNat_of_nonneg (Int.emod_nonneg i (pow_pos_int width).ne')

theorem residue_lt (width : Nat) (i : Int) : residue width i < 2 ^ width := by
  have hlt := Int.emod_lt_of_pos i (pow_pos_int width)
  rw [← cast_residue] at hlt
  exact_mod_cast hlt

theorem fits_signed (hw : 0 < width) (n : Nat) : Fits width (signed width n) := by
  obtain ⟨k, rfl⟩ : ∃ k, width = k + 1 := ⟨width - 1, by omega⟩
  have hpos : 0 < 2 ^ (k + 1) := Nat.two_pow_pos _
  have hle := Int.le_bmod (x := n) hpos
  have hlt := Int.bmod_lt (x := n) hpos
  rw [Nat.pow_succ] at hle hlt
  unfold Fits signed
  rw [Int.pow_succ, Nat.pow_succ]
  push_cast at hle hlt ⊢
  omega

/-- The integer is determined by its range and its residue. -/
theorem signed_eq (hw : 0 < width) (h : Fits width i) (hdvd : (2 ^ width : Int) ∣ i - n) :
    signed width n = i := by
  obtain ⟨k, rfl⟩ : ∃ k, width = k + 1 := ⟨width - 1, by omega⟩
  refine (Int.bmod_eq_iff (Nat.two_pow_pos _)).mpr ?_
  unfold Fits at h
  push_cast
  rw [Int.pow_succ] at h hdvd ⊢
  exact ⟨by omega, by omega, hdvd⟩

theorem signed_residue (hw : 0 < width) (h : Fits width i) : signed width (residue width i) = i := by
  refine signed_eq hw h ?_
  rw [cast_residue]
  exact Int.dvd_self_sub_emod

theorem residue_signed (h : n < 2 ^ width) : residue width (signed width n) = n := by
  have hmod : signed width n % 2 ^ width = (n : Int) % 2 ^ width := by
    unfold signed
    exact_mod_cast Int.bmod_emod
  unfold residue
  rw [hmod]
  have hcast : (n : Int) % 2 ^ width = (n % 2 ^ width : Nat) := by push_cast; rfl
  rw [hcast, Int.toNat_natCast, Nat.mod_eq_of_lt h]

theorem residue_toInt (v : BitVec w) : residue w v.toInt = v.toNat := by
  rw [BitVec.toInt_eq_toNat_bmod]
  exact residue_signed v.isLt

theorem residue_mod (h : n ≤ width) : residue width i % 2 ^ n = residue n i := by
  have hdvd : (2 ^ n : Int) ∣ 2 ^ width := pow_dvd_pow 2 h
  have hcast : ((residue width i % 2 ^ n : Nat) : Int) = (residue n i : Int) := by
    push_cast
    rw [cast_residue, cast_residue, Int.emod_emod_of_dvd i hdvd]
  exact_mod_cast hcast

/-! ### Words -/

/-- A field above those already set is added to them. -/
theorem toNat_or_shift {low high : BitVec w} {k : Nat} (hlow : low.toNat < 2 ^ k)
    (hhigh : high.toNat * 2 ^ k < 2 ^ w) :
    (low ||| high <<< k).toNat = low.toNat + high.toNat * 2 ^ k := by
  rw [BitVec.toNat_or, BitVec.toNat_shiftLeft, Nat.shiftLeft_eq, Nat.mod_eq_of_lt hhigh, Nat.or_comm,
    ← Nat.shiftLeft_eq, ← Nat.shiftLeft_add_eq_or_of_lt hlow, Nat.add_comm]

/-- The low bits of a sign extended `i32`. -/
theorem toNat_sign_mask (c : Int32) (mask : UInt64) (hmask : mask.toNat = 2 ^ n - 1) (hn : n ≤ 64) :
    (c.toInt64.toUInt64 &&& mask).toNat = residue n c.toInt := by
  have hsign : c.toInt64.toUInt64.toNat = residue 64 c.toInt := by
    rw [← Int32.toInt_toInt64]
    exact (residue_toInt c.toInt64.toBitVec).symm
  rw [UInt64.toNat_and, hmask, Nat.and_two_pow_sub_one_eq_mod, hsign, residue_mod hn]

theorem toNat_shift_or {low high k : UInt64} {n : Nat} (hk : k.toNat % 64 = n) (hlow : low.toNat < 2 ^ n)
    (hhigh : high.toNat * 2 ^ n < 2 ^ 64) :
    (high <<< k ||| low).toNat = high.toNat * 2 ^ n + low.toNat := by
  rw [UInt64.toNat_or, UInt64.toNat_shiftLeft, hk, Nat.shiftLeft_eq, Nat.mod_eq_of_lt hhigh,
    ← Nat.shiftLeft_eq, ← Nat.shiftLeft_add_eq_or_of_lt hlow]

/-- Shifting a field to the top and back down with the sign extends it. -/
theorem toInt_shiftLeft_sshiftRight (v : BitVec w) {a b k : Nat} (hk : 0 < k) (hw : w = a + b + k) :
    ((v <<< a).sshiftRight (a + b)).toInt = signed k (v.toNat / 2 ^ b) := by
  obtain ⟨j, rfl⟩ : ∃ j, k = j + 1 := ⟨k - 1, by omega⟩
  have hfits := fits_signed (by omega : 0 < w) (v.toNat * 2 ^ a)
  have hdvd : ((2 ^ w : Nat) : Int) ∣ signed w (v.toNat * 2 ^ a) - (v.toNat * 2 ^ a : Nat) :=
    Int.dvd_bmod_sub_self
  have hshift : ((v <<< a).sshiftRight (a + b)).toInt =
      signed w (v.toNat * 2 ^ a) / 2 ^ (a + b) := by
    rw [BitVec.toInt_sshiftRight, BitVec.toInt_shiftLeft, Int.shiftRight_eq_div_pow]
    unfold signed
    rw [Nat.shiftLeft_eq]
    push_cast
    rfl
  obtain ⟨q, hq⟩ := hdvd
  have hpos := pow_pos_int (a + b)
  have hpow : (2 ^ w : Int) = 2 ^ (a + b) * 2 ^ (j + 1) := by rw [hw, Int.pow_add]
  have hdiv : signed w (v.toNat * 2 ^ a) / 2 ^ (a + b) = (v.toNat : Int) / 2 ^ b + 2 ^ (j + 1) * q := by
    have heq : signed w (v.toNat * 2 ^ a) = v.toNat * 2 ^ a + 2 ^ (a + b) * (2 ^ (j + 1) * q) := by
      push_cast at hq
      rw [hpow] at hq
      linarith
    rw [heq, Int.add_mul_ediv_left _ _ hpos.ne', Int.pow_add, Int.mul_comm (v.toNat : Int),
      Int.mul_ediv_mul_of_pos _ _ (pow_pos_int a)]
  rw [hshift]
  symm
  refine signed_eq (by omega) ?_ ?_
  · unfold Fits at hfits ⊢
    rw [hpow, Int.pow_succ] at hfits
    rw [Int.pow_succ]
    have hge : -(2 ^ j : Int) ≤ signed w (v.toNat * 2 ^ a) / 2 ^ (a + b) :=
      (Int.le_ediv_iff_mul_le hpos).mpr (by linarith)
    have hlt : signed w (v.toNat * 2 ^ a) / 2 ^ (a + b) < 2 ^ j :=
      Int.ediv_lt_of_lt_mul hpos (by linarith)
    omega
  · rw [hdiv]
    push_cast
    exact ⟨q, by ring⟩

end Cubic.BitField
