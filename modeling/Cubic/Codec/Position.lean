import Cubic.Codec.Writer
import Cubic.Lib.BitField

/-! # Packed block positions (`position.rs`) -/

namespace Cubic

set_option autoImplicit false

open BitField

/-- `x` and `z` have 26 bits, `y` has 12. -/
structure BlockPosition where
  x : Int32
  y : Int32
  z : Int32
  x_fits : Fits 26 x.toInt
  y_fits : Fits 12 y.toInt
  z_fits : Fits 26 z.toInt
  deriving DecidableEq

def minXz : Int32 := -((1 : Int32) <<< 25)
def maxXz : Int32 := ((1 : Int32) <<< 25) - 1
def minY : Int32 := -((1 : Int32) <<< 11)
def maxY : Int32 := ((1 : Int32) <<< 11) - 1

def signExtend (value bits : UInt32) : Int32 :=
  (value <<< (32 - bits)).toInt32 >>> (32 - bits).toInt32

theorem toInt_signExtend_26 (value : UInt32) :
    (signExtend value 26).toInt = signed 26 value.toNat := by
  have h := toInt_shiftLeft_sshiftRight value.toBitVec (a := 6) (b := 0) (k := 26) (by decide) rfl
  rw [Nat.pow_zero, Nat.div_one] at h
  exact h

theorem toInt_signExtend_12 (value : UInt32) :
    (signExtend value 12).toInt = signed 12 value.toNat := by
  have h := toInt_shiftLeft_sshiftRight value.toBitVec (a := 20) (b := 0) (k := 12) (by decide) rfl
  rw [Nat.pow_zero, Nat.div_one] at h
  exact h

/-- On success, the fact that was checked. -/
def validateCoordinate (axis : String) (value min max : Int32) :
    Except CodecError (PLift (min ≤ value ∧ value ≤ max)) :=
  if h : min ≤ value ∧ value ≤ max then .ok ⟨h⟩
  else .error (.invalidBlockPosition axis value min max)

theorem fits_xz {v : Int32} : Fits 26 v.toInt ↔ minXz ≤ v ∧ v ≤ maxXz := by
  rw [Int32.le_iff_toInt_le, Int32.le_iff_toInt_le]
  change _ ↔ -33554432 ≤ v.toInt ∧ v.toInt ≤ 33554431
  unfold Fits
  omega

theorem fits_y {v : Int32} : Fits 12 v.toInt ↔ minY ≤ v ∧ v ≤ maxY := by
  rw [Int32.le_iff_toInt_le, Int32.le_iff_toInt_le]
  change _ ↔ -2048 ≤ v.toInt ∧ v.toInt ≤ 2047
  unfold Fits
  omega

namespace BlockPosition

def new (x y z : Int32) : Except CodecError BlockPosition := do
  let hx ← validateCoordinate "x" x minXz maxXz
  let hy ← validateCoordinate "y" y minY maxY
  let hz ← validateCoordinate "z" z minXz maxXz
  pure ⟨x, y, z, fits_xz.mpr hx.down, fits_y.mpr hy.down, fits_xz.mpr hz.down⟩

def toPacked (p : BlockPosition) : UInt64 :=
  let x := p.x.toInt64.toUInt64 &&& 0x03ffffff
  let z := p.z.toInt64.toUInt64 &&& 0x03ffffff
  let y := p.y.toInt64.toUInt64 &&& 0x0fff
  (x <<< 38) ||| (z <<< 12) ||| y

def fromPacked (value : UInt64) : BlockPosition where
  x := signExtend (value >>> 38).toUInt32 26
  z := signExtend ((value >>> 12) &&& 0x03ffffff).toUInt32 26
  y := signExtend (value &&& 0x0fff).toUInt32 12
  x_fits := by
    rw [toInt_signExtend_26]
    exact fits_signed (by decide) _
  y_fits := by
    rw [toInt_signExtend_12]
    exact fits_signed (by decide) _
  z_fits := by
    rw [toInt_signExtend_26]
    exact fits_signed (by decide) _

/-- Every triple in range is a position. -/
theorem new_eq_ok {x y z : Int32} (hx : Fits 26 x.toInt) (hy : Fits 12 y.toInt)
    (hz : Fits 26 z.toInt) : new x y z = .ok ⟨x, y, z, hx, hy, hz⟩ := by
  unfold new validateCoordinate
  rw [dif_pos (fits_xz.mp hx), dif_pos (fits_y.mp hy), dif_pos (fits_xz.mp hz)]
  rfl

theorem ext_toInt {p q : BlockPosition} (hx : p.x.toInt = q.x.toInt) (hy : p.y.toInt = q.y.toInt)
    (hz : p.z.toInt = q.z.toInt) : p = q := by
  obtain ⟨px, py, pz, _, _, _⟩ := p
  obtain ⟨qx, qy, qz, _, _, _⟩ := q
  obtain rfl := Int32.toInt_inj.mp hx
  obtain rfl := Int32.toInt_inj.mp hy
  obtain rfl := Int32.toInt_inj.mp hz
  rfl

/-! ### The bits of the packed word -/

theorem toNat_toPacked (p : BlockPosition) : p.toPacked.toNat =
    residue 26 p.x.toInt * 2 ^ 38 + (residue 26 p.z.toInt * 2 ^ 12 + residue 12 p.y.toInt) := by
  have hx := toNat_sign_mask p.x 0x03ffffff (n := 26) rfl (by decide)
  have hy := toNat_sign_mask p.y 0x0fff (n := 12) rfl (by decide)
  have hz := toNat_sign_mask p.z 0x03ffffff (n := 26) rfl (by decide)
  have hx_lt := residue_lt 26 p.x.toInt
  have hy_lt := residue_lt 12 p.y.toInt
  have hz_lt := residue_lt 26 p.z.toInt
  simp only [toPacked]
  rw [UInt64.or_assoc, toNat_shift_or (n := 38) rfl, toNat_shift_or (n := 12) rfl, hx, hy, hz]
  · omega
  · omega
  · rw [toNat_shift_or (n := 12) rfl (by omega) (by omega)]
    omega
  · omega

theorem toInt_fromPacked (value : UInt64) :
    (fromPacked value).x.toInt = signed 26 (value.toNat / 2 ^ 38) ∧
      (fromPacked value).y.toInt = signed 12 (value.toNat % 2 ^ 12) ∧
      (fromPacked value).z.toInt = signed 26 (value.toNat / 2 ^ 12 % 2 ^ 26) := by
  have hlt := value.toNat_lt
  have hx : (value >>> 38).toUInt32.toNat = value.toNat / 2 ^ 38 := by
    rw [UInt64.toNat_toUInt32, UInt64.toNat_shiftRight, Nat.shiftRight_eq_div_pow]
    change value.toNat / 2 ^ 38 % 2 ^ 32 = _
    omega
  have hy : (value &&& 0x0fff).toUInt32.toNat = value.toNat % 2 ^ 12 := by
    rw [UInt64.toNat_toUInt32, UInt64.toNat_and]
    change (value.toNat &&& 2 ^ 12 - 1) % 2 ^ 32 = _
    rw [Nat.and_two_pow_sub_one_eq_mod]
    omega
  have hz : ((value >>> 12) &&& 0x03ffffff).toUInt32.toNat = value.toNat / 2 ^ 12 % 2 ^ 26 := by
    rw [UInt64.toNat_toUInt32, UInt64.toNat_and, UInt64.toNat_shiftRight, Nat.shiftRight_eq_div_pow]
    change (value.toNat / 2 ^ 12 &&& 2 ^ 26 - 1) % 2 ^ 32 = _
    rw [Nat.and_two_pow_sub_one_eq_mod]
    omega
  rw [← hx, ← hy, ← hz]
  exact ⟨toInt_signExtend_26 _, toInt_signExtend_12 _, toInt_signExtend_26 _⟩

theorem fromPacked_toPacked (p : BlockPosition) : fromPacked p.toPacked = p := by
  obtain ⟨hx, hy, hz⟩ := toInt_fromPacked p.toPacked
  have hx_lt := residue_lt 26 p.x.toInt
  have hy_lt := residue_lt 12 p.y.toInt
  have hz_lt := residue_lt 26 p.z.toInt
  rw [toNat_toPacked] at hx hy hz
  apply ext_toInt
  · rw [hx, show (residue 26 p.x.toInt * 2 ^ 38 +
      (residue 26 p.z.toInt * 2 ^ 12 + residue 12 p.y.toInt)) / 2 ^ 38 = residue 26 p.x.toInt by omega]
    exact signed_residue (by decide) p.x_fits
  · rw [hy, show (residue 26 p.x.toInt * 2 ^ 38 +
      (residue 26 p.z.toInt * 2 ^ 12 + residue 12 p.y.toInt)) % 2 ^ 12 = residue 12 p.y.toInt by omega]
    exact signed_residue (by decide) p.y_fits
  · rw [hz, show (residue 26 p.x.toInt * 2 ^ 38 +
      (residue 26 p.z.toInt * 2 ^ 12 + residue 12 p.y.toInt)) / 2 ^ 12 % 2 ^ 26 = residue 26 p.z.toInt by omega]
    exact signed_residue (by decide) p.z_fits

end BlockPosition

def readBlockPosition : ReaderM BlockPosition := do
  let packed ← readU64
  pure (.fromPacked packed)

def writeBlockPosition (x y z : Int32) : Except CodecError Bytes := do
  let position ← BlockPosition.new x y z
  pure (writeU64 position.toPacked)

theorem reads_blockPosition (p : BlockPosition) :
    Reads readBlockPosition (writeU64 p.toPacked) p := by
  have h := (reads_u64 p.toPacked).map BlockPosition.fromPacked
  rwa [p.fromPacked_toPacked] at h

end Cubic
