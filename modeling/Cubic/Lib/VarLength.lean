import Cubic.Lib.BitField

/-!
# Integers in groups of seven bits

The low group comes first and the top bit of a byte says that another follows. `encode`
writes the fewest groups; `scan` also accepts padded encodings.
-/

namespace Cubic.VarLength

set_option autoImplicit false

open BitField

variable {w : Nat}

/-- What a prefix of the input says about the integer it starts with. -/
inductive Scan (w : Nat) where
  | complete (value : BitVec w) (bytes : Nat)
  | needMore
  | malformed

def payload (w : Nat) (byte : UInt8) : BitVec w := (byte &&& 0x7f).toBitVec.setWidth w

def continues (byte : UInt8) : Bool := byte &&& 0x80 ≠ 0

/-- Read at most `left` more groups, the next of which has index `index`. -/
def scan : Nat → Nat → BitVec w → List UInt8 → Scan w
  | 0, _, _, _ => .malformed
  | _ + 1, _, _, [] => .needMore
  | left + 1, index, acc, byte :: rest =>
    let acc := acc ||| payload w byte <<< (index * 7)
    if continues byte then scan left (index + 1) acc rest else .complete acc (index + 1)

theorem scan_cons (left index : Nat) (acc : BitVec w) (byte : UInt8) (rest : List UInt8) :
    scan (left + 1) index acc (byte :: rest) =
      if continues byte then scan left (index + 1) (acc ||| payload w byte <<< (index * 7)) rest
      else .complete (acc ||| payload w byte <<< (index * 7)) (index + 1) := rfl

/-- At most `groups` groups are written. -/
def encode : Nat → BitVec w → List UInt8
  | 0, _ => []
  | groups + 1, value =>
    if value >>> 7 = 0 then [.ofBitVec (value.setWidth 8)]
    else .ofBitVec (((value &&& 0x7f) ||| 0x80).setWidth 8) :: encode groups (value >>> 7)

theorem encode_succ (groups : Nat) (value : BitVec w) :
    encode (groups + 1) value =
      if value >>> 7 = 0 then [.ofBitVec (value.setWidth 8)]
      else .ofBitVec (((value &&& 0x7f) ||| 0x80).setWidth 8) :: encode groups (value >>> 7) := rfl

/-- The writing loop, which ends with the group above which no bit is set. -/
def encodeLoop (value : BitVec w) : List UInt8 :=
  if value >>> 7 = 0 then [.ofBitVec (value.setWidth 8)]
  else .ofBitVec (((value &&& 0x7f) ||| 0x80).setWidth 8) :: encodeLoop (value >>> 7)
termination_by value.toNat
decreasing_by
  rename_i h
  rw [BitVec.toNat_ushiftRight, Nat.shiftRight_eq_div_pow]
  refine Nat.div_lt_self (Nat.pos_of_ne_zero ?_) (by decide)
  intro hzero
  exact h (BitVec.eq_of_toNat_eq (by simp [hzero]))

theorem continues_iff (byte : UInt8) : continues byte = true ↔ 128 ≤ byte.toNat := by
  have h : ∀ b : BitVec 8, decide (b &&& 0x80 ≠ 0) = true ↔ 128 ≤ b.toNat := by decide
  obtain ⟨b⟩ := byte
  rw [← UInt8.toNat_toBitVec, ← h b]
  unfold continues
  rw [decide_eq_true_iff, decide_eq_true_iff, ne_eq, ne_eq, ← UInt8.toBitVec_inj]
  rfl

theorem toNat_payload (hw : 7 ≤ w) (byte : UInt8) : (payload w byte).toNat = byte.toNat % 128 := by
  have hpow : 2 ^ 7 ≤ 2 ^ w := Nat.pow_le_pow_right (by decide) hw
  have hand : byte.toNat &&& 127 = byte.toNat % 128 := Nat.and_two_pow_sub_one_eq_mod byte.toNat 7
  have hlt : byte.toNat % 128 < 2 ^ 7 := Nat.mod_lt _ (by decide)
  unfold payload
  rw [BitVec.toNat_setWidth, UInt8.toNat_toBitVec, UInt8.toNat_and]
  change (byte.toNat &&& 127) % 2 ^ w = _
  rw [hand, Nat.mod_eq_of_lt (lt_of_lt_of_le hlt hpow)]

theorem shiftRight_eq_zero_iff (value : BitVec w) : value >>> 7 = 0 ↔ value.toNat < 128 := by
  rw [← BitVec.toNat_inj, BitVec.toNat_ushiftRight, Nat.shiftRight_eq_div_pow]
  simp only [BitVec.ofNat_eq_ofNat, BitVec.toNat_ofNat, Nat.zero_mod]
  omega

theorem toNat_lastByte {value : BitVec w} (h : value.toNat < 128) :
    (UInt8.ofBitVec (value.setWidth 8)).toNat = value.toNat := by
  rw [← UInt8.toNat_toBitVec]
  change (value.setWidth 8).toNat = _
  rw [BitVec.toNat_setWidth]
  omega

theorem toNat_nextByte (hw : 8 ≤ w) (value : BitVec w) :
    (UInt8.ofBitVec (((value &&& 0x7f) ||| 0x80).setWidth 8)).toNat = value.toNat % 128 + 128 := by
  have hpow : 2 ^ 8 ≤ 2 ^ w := Nat.pow_le_pow_right (by decide) hw
  have hmask : (0x7f : BitVec w).toNat = 2 ^ 7 - 1 :=
    Nat.mod_eq_of_lt (lt_of_lt_of_le (by decide) hpow)
  have htop : (0x80 : BitVec w).toNat = 2 ^ 7 * 1 :=
    Nat.mod_eq_of_lt (lt_of_lt_of_le (by decide) hpow)
  have hlt : value.toNat % 2 ^ 7 < 2 ^ 7 := Nat.mod_lt _ (by decide)
  rw [← UInt8.toNat_toBitVec]
  change (((value &&& 0x7f) ||| 0x80).setWidth 8).toNat = _
  rw [BitVec.toNat_setWidth, BitVec.toNat_or, BitVec.toNat_and, hmask, htop,
    Nat.and_two_pow_sub_one_eq_mod, Nat.or_comm, ← Nat.two_pow_add_eq_or_of_lt hlt]
  omega

/-- The accumulator after one more group. -/
theorem toNat_step {acc : BitVec w} (hw : 8 ≤ w) {index n : Nat} (hacc : acc.toNat < 2 ^ (index * 7))
    (hsum : acc.toNat + n * 2 ^ (index * 7) < 2 ^ w) {byte : UInt8}
    (hbyte : byte.toNat % 128 = n % 128) :
    (acc ||| payload w byte <<< (index * 7)).toNat = acc.toNat + n % 128 * 2 ^ (index * 7) := by
  have hp := toNat_payload (w := w) (by omega) byte
  have hle : n % 128 * 2 ^ (index * 7) ≤ n * 2 ^ (index * 7) :=
    Nat.mul_le_mul_right _ (Nat.mod_le n 128)
  rw [toNat_or_shift hacc (by rw [hp, hbyte]; omega), hp, hbyte]

theorem scan_encode_last (hw : 8 ≤ w) (groups index : Nat) (acc value : BitVec w)
    (rest : List UInt8) (hvalue : value.toNat < 128) (hacc : acc.toNat < 2 ^ (index * 7))
    (hsum : acc.toNat + value.toNat * 2 ^ (index * 7) < 2 ^ w) :
    scan (groups + 1) index acc (encode (groups + 1) value ++ rest) =
      .complete (.ofNat w (acc.toNat + value.toNat * 2 ^ (index * 7)))
        (index + (encode (groups + 1) value).length) := by
  have hbyte := toNat_lastByte hvalue
  have hcont : ¬ continues (.ofBitVec (value.setWidth 8)) = true := by
    rw [continues_iff]
    omega
  have hstep := toNat_step hw hacc hsum (congrArg (· % 128) hbyte)
  rw [encode_succ, if_pos ((shiftRight_eq_zero_iff value).mpr hvalue), List.cons_append, scan_cons,
    if_neg hcont]
  congr 1
  apply BitVec.eq_of_toNat_eq
  rw [hstep, BitVec.toNat_ofNat, Nat.mod_eq_of_lt hsum, Nat.mod_eq_of_lt hvalue]

/-- An encoded value is read back, whatever follows it. -/
theorem scan_encode (hw : 8 ≤ w) (groups : Nat) :
    ∀ (index : Nat) (acc value : BitVec w) (rest : List UInt8),
      value.toNat < 2 ^ (7 * (groups + 1)) → acc.toNat < 2 ^ (index * 7) →
      acc.toNat + value.toNat * 2 ^ (index * 7) < 2 ^ w →
      scan (groups + 1) index acc (encode (groups + 1) value ++ rest) =
        .complete (.ofNat w (acc.toNat + value.toNat * 2 ^ (index * 7)))
          (index + (encode (groups + 1) value).length) := by
  induction groups with
  | zero =>
    intro index acc value rest hvalue hacc hsum
    exact scan_encode_last hw 0 index acc value rest hvalue hacc hsum
  | succ groups ih =>
    intro index acc value rest hvalue hacc hsum
    by_cases hsmall : value.toNat < 128
    · exact scan_encode_last hw _ index acc value rest hsmall hacc hsum
    · have hzero : ¬ value >>> 7 = 0 := fun h => hsmall ((shiftRight_eq_zero_iff value).mp h)
      have hbyte := toNat_nextByte hw value
      have hcont : continues (.ofBitVec (((value &&& 0x7f) ||| 0x80).setWidth 8)) = true := by
        rw [continues_iff]
        omega
      have hmod := congrArg (· % 128) hbyte
      simp only [Nat.add_mod_right, Nat.mod_mod] at hmod
      have hstep := toNat_step hw hacc hsum hmod
      have hnext : (value >>> 7).toNat = value.toNat / 128 := by
        rw [BitVec.toNat_ushiftRight, Nat.shiftRight_eq_div_pow]
      have hpow : 2 ^ ((index + 1) * 7) = 2 ^ (index * 7) * 128 := by
        rw [Nat.add_mul, Nat.one_mul, Nat.pow_add]
      have htotal : value.toNat % 128 * 2 ^ (index * 7) +
          value.toNat / 128 * (2 ^ (index * 7) * 128) = value.toNat * 2 ^ (index * 7) := by
        conv_rhs => rw [← Nat.mod_add_div value.toNat 128]
        ring
      rw [encode_succ, if_neg hzero, List.cons_append, scan_cons, if_pos hcont,
        ih (index + 1) _ _ rest ?_ ?_ ?_]
      · rw [hstep, hnext, hpow, List.length_cons, Nat.add_assoc acc.toNat, htotal]
        congr 1
        omega
      · rw [hnext]
        rw [show 7 * (groups + 1 + 1) = 7 * (groups + 1) + 7 by omega, Nat.pow_add] at hvalue
        exact Nat.div_lt_of_lt_mul (by rw [Nat.mul_comm]; exact hvalue)
      · rw [hstep, hpow]
        have hmod : value.toNat % 128 ≤ 127 := by omega
        have hle := Nat.mul_le_mul_right (2 ^ (index * 7)) hmod
        omega
      · rw [hstep, hnext, hpow, Nat.add_assoc, htotal]
        exact hsum

/-- The loop writes no more groups than the value has. -/
theorem encodeLoop_eq {groups : Nat} :
    ∀ {value : BitVec w}, value.toNat < 2 ^ (7 * (groups + 1)) →
      encodeLoop value = encode (groups + 1) value := by
  induction groups with
  | zero =>
    intro value h
    rw [encodeLoop, encode_succ, if_pos ((shiftRight_eq_zero_iff value).mpr h),
      if_pos ((shiftRight_eq_zero_iff value).mpr h)]
  | succ groups ih =>
    intro value h
    rw [encodeLoop, encode_succ]
    split
    · rfl
    · rw [ih]
      rw [BitVec.toNat_ushiftRight, Nat.shiftRight_eq_div_pow]
      rw [show 7 * (groups + 1 + 1) = 7 + 7 * (groups + 1) by omega, Nat.pow_add] at h
      exact Nat.div_lt_of_lt_mul h

/-! ### Prefixes of the input -/

theorem scan_bytes {left : Nat} :
    ∀ {index : Nat} {acc v : BitVec w} {bytes : List UInt8} {k : Nat},
      scan left index acc bytes = .complete v k →
      index < k ∧ k ≤ index + bytes.length ∧ k ≤ index + left := by
  induction left with
  | zero =>
    intro index acc v bytes k h
    cases h
  | succ left ih =>
    intro index acc v bytes k h
    cases bytes with
    | nil => cases h
    | cons byte rest =>
      rw [scan_cons] at h
      rw [List.length_cons]
      split at h
      · have hrest := ih h
        omega
      · cases h
        omega

theorem length_lt_of_needMore {left : Nat} :
    ∀ {index : Nat} {acc : BitVec w} {bytes : List UInt8},
      scan left index acc bytes = .needMore → bytes.length < left := by
  induction left with
  | zero =>
    intro index acc bytes h
    cases h
  | succ left ih =>
    intro index acc bytes h
    cases bytes with
    | nil => exact Nat.succ_pos left
    | cons byte rest =>
      rw [scan_cons] at h
      split at h
      · exact Nat.succ_lt_succ (ih h)
      · cases h

/-- What is complete after `k` groups has at most their bits. -/
theorem scan_lt {left : Nat} :
    ∀ {index : Nat} {acc v : BitVec w} {bytes : List UInt8} {k : Nat}, 7 ≤ w →
      acc.toNat < 2 ^ (index * 7) → scan left index acc bytes = .complete v k →
      v.toNat < 2 ^ (k * 7) := by
  induction left with
  | zero =>
    intro index acc v bytes k _ _ h
    cases h
  | succ left ih =>
    intro index acc v bytes k hw hacc h
    cases bytes with
    | nil => cases h
    | cons byte rest =>
      have hnext : (acc ||| payload w byte <<< (index * 7)).toNat < 2 ^ ((index + 1) * 7) := by
        have hpow : 2 ^ ((index + 1) * 7) = 2 ^ (index * 7) * 128 := by
          rw [Nat.add_mul, Nat.one_mul, Nat.pow_add]
        have hpayload : (payload w byte).toNat < 128 := by
          rw [toNat_payload hw]
          exact Nat.mod_lt _ (by decide)
        have hshift : (payload w byte <<< (index * 7)).toNat < 2 ^ ((index + 1) * 7) := by
          rw [BitVec.toNat_shiftLeft, Nat.shiftLeft_eq, hpow, Nat.mul_comm (2 ^ (index * 7))]
          exact lt_of_le_of_lt (Nat.mod_le _ _)
            (Nat.mul_lt_mul_of_pos_right hpayload (Nat.two_pow_pos _))
        rw [BitVec.toNat_or]
        refine Nat.or_lt_two_pow (lt_of_lt_of_le hacc ?_) hshift
        exact Nat.pow_le_pow_right (by decide) (by omega)
      rw [scan_cons] at h
      split at h
      · exact ih hw hnext h
      · cases h
        exact hnext

/-- What is read whole is read the same when more follows. -/
theorem scan_append_complete {left : Nat} :
    ∀ {index : Nat} {acc v : BitVec w} {bytes : List UInt8} {k : Nat} (more : List UInt8),
      scan left index acc bytes = .complete v k →
      scan left index acc (bytes ++ more) = .complete v k := by
  induction left with
  | zero =>
    intro index acc v bytes k more h
    cases h
  | succ left ih =>
    intro index acc v bytes k more h
    cases bytes with
    | nil => cases h
    | cons byte rest =>
      rw [List.cons_append]
      rw [scan_cons] at h ⊢
      split at h
      · rename_i hcont
        rw [if_pos hcont]
        exact ih more h
      · rename_i hcont
        rw [if_neg hcont]
        exact h

theorem scan_append_malformed {left : Nat} :
    ∀ {index : Nat} {acc : BitVec w} {bytes : List UInt8} (more : List UInt8),
      scan left index acc bytes = .malformed →
      scan left index acc (bytes ++ more) = .malformed := by
  induction left with
  | zero => exact fun _ _ => rfl
  | succ left ih =>
    intro index acc bytes more h
    cases bytes with
    | nil => cases h
    | cons byte rest =>
      rw [List.cons_append]
      rw [scan_cons] at h ⊢
      split at h
      · rename_i hcont
        rw [if_pos hcont]
        exact ih more h
      · cases h

theorem length_encode_le {groups : Nat} :
    ∀ {value : BitVec w} {n : Nat}, value.toNat < 2 ^ (7 * (n + 1)) →
      (encode groups value).length ≤ n + 1 := by
  induction groups with
  | zero =>
    intro value n _
    exact Nat.zero_le _
  | succ groups ih =>
    intro value n h
    rw [encode_succ]
    split
    · exact Nat.le_add_left 1 n
    · rename_i hzero
      cases n with
      | zero => exact (hzero ((shiftRight_eq_zero_iff value).mpr h)).elim
      | succ n =>
        rw [List.length_cons]
        refine Nat.succ_le_succ (ih ?_)
        rw [BitVec.toNat_ushiftRight, Nat.shiftRight_eq_div_pow]
        rw [show 7 * (n + 1 + 1) = 7 + 7 * (n + 1) by omega, Nat.pow_add] at h
        exact Nat.div_lt_of_lt_mul h

end Cubic.VarLength
