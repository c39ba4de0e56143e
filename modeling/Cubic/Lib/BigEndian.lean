import Cubic.Lib.Machine

/-! # Numbers as bytes, most significant first -/

namespace Cubic

set_option autoImplicit false

def ofBigEndian (bytes : List UInt8) : Nat := bytes.foldl (fun acc byte => acc * 256 + byte.toNat) 0

/-- The low `n` bytes of `v`. -/
def toBigEndian : Nat → Nat → List UInt8
  | 0, _ => []
  | n + 1, v => UInt8.ofNat (v / 256 ^ n) :: toBigEndian n v

theorem toBigEndian_succ (n v : Nat) :
    toBigEndian (n + 1) v = UInt8.ofNat (v / 256 ^ n) :: toBigEndian n v := rfl

@[simp] theorem length_toBigEndian (n v : Nat) : (toBigEndian n v).length = n := by
  induction n with
  | zero => rfl
  | succ n ih => rw [toBigEndian_succ, List.length_cons, ih]

theorem foldl_toBigEndian (n v : Nat) : ∀ acc : Nat,
    (toBigEndian n v).foldl (fun acc byte => acc * 256 + byte.toNat) acc =
      acc * 256 ^ n + v % 256 ^ n := by
  induction n with
  | zero =>
    intro acc
    simp [toBigEndian, Nat.mod_one]
  | succ n ih =>
    intro acc
    have hbyte : (UInt8.ofNat (v / 256 ^ n)).toNat = v / 256 ^ n % 256 := rfl
    have hsplit : v % 256 ^ (n + 1) = v / 256 ^ n % 256 * 256 ^ n + v % 256 ^ n := by
      rw [Nat.pow_succ, Nat.mod_mul, Nat.mul_comm (256 ^ n), Nat.add_comm]
    rw [toBigEndian_succ, List.foldl_cons, ih, hbyte, hsplit]
    ring

theorem ofBigEndian_toBigEndian {n v : Nat} (h : v < 256 ^ n) :
    ofBigEndian (toBigEndian n v) = v := by
  rw [ofBigEndian, foldl_toBigEndian, Nat.zero_mul, Nat.zero_add, Nat.mod_eq_of_lt h]

theorem toBigEndian_inj {n u v : Nat} (hu : u < 256 ^ n) (hv : v < 256 ^ n)
    (h : toBigEndian n u = toBigEndian n v) : u = v := by
  rw [← ofBigEndian_toBigEndian hu, h, ofBigEndian_toBigEndian hv]

/-! ### Bytes that were read -/

theorem foldl_bigEndian (bytes : List UInt8) : ∀ acc : Nat,
    bytes.foldl (fun acc byte => acc * 256 + byte.toNat) acc =
      acc * 256 ^ bytes.length + ofBigEndian bytes := by
  induction bytes with
  | nil =>
    intro acc
    simp [ofBigEndian]
  | cons byte rest ih =>
    intro acc
    rw [ofBigEndian, List.foldl_cons, List.foldl_cons, ih, ih, List.length_cons, Nat.pow_succ]
    ring

theorem ofBigEndian_cons (byte : UInt8) (rest : List UInt8) :
    ofBigEndian (byte :: rest) = byte.toNat * 256 ^ rest.length + ofBigEndian rest := by
  rw [ofBigEndian, List.foldl_cons, Nat.zero_mul, Nat.zero_add, foldl_bigEndian]

theorem ofBigEndian_lt (bytes : List UInt8) : ofBigEndian bytes < 256 ^ bytes.length := by
  induction bytes with
  | nil => exact Nat.one_pos
  | cons byte rest ih =>
    have hbyte := Nat.mul_le_mul_right (256 ^ rest.length) (Nat.le_of_lt_succ byte.toNat_lt)
    rw [ofBigEndian_cons, List.length_cons, Nat.pow_succ]
    omega

/-- Only the low bytes are written. -/
theorem toBigEndian_add_mul (n high low : Nat) :
    toBigEndian n (high * 256 ^ n + low) = toBigEndian n low := by
  induction n generalizing high with
  | zero => rfl
  | succ n ih =>
    have hhead : (high * 256 ^ (n + 1) + low) / 256 ^ n = low / 256 ^ n + 256 * high := by
      rw [Nat.pow_succ, show high * (256 ^ n * 256) + low = low + 256 ^ n * (256 * high) by ring,
        Nat.add_mul_div_left _ _ (Nat.pow_pos (by decide))]
    have hbyte : UInt8.ofNat (low / 256 ^ n + 256 * high) = UInt8.ofNat (low / 256 ^ n) := by
      apply UInt8.toNat_inj.mp
      rw [UInt8.toNat_ofNat', UInt8.toNat_ofNat', Nat.add_mul_mod_self_left]
    rw [toBigEndian_succ, toBigEndian_succ, hhead, hbyte,
      show high * 256 ^ (n + 1) + low = high * 256 * 256 ^ n + low by rw [Nat.pow_succ]; ring, ih]

theorem toBigEndian_ofBigEndian (bytes : List UInt8) :
    toBigEndian bytes.length (ofBigEndian bytes) = bytes := by
  induction bytes with
  | nil => rfl
  | cons byte rest ih =>
    have hlt := ofBigEndian_lt rest
    have hhead : (byte.toNat * 256 ^ rest.length + ofBigEndian rest) / 256 ^ rest.length =
        byte.toNat := by
      rw [Nat.mul_comm, Nat.mul_add_div (Nat.pow_pos (by decide)), Nat.div_eq_of_lt hlt, Nat.add_zero]
    rw [ofBigEndian_cons, List.length_cons, toBigEndian_succ, hhead, toBigEndian_add_mul, ih,
      UInt8.ofNat_toNat]

end Cubic
