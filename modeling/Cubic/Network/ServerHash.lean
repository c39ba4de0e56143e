import Cubic.Codec.Reader
import Cubic.Lib.BigEndian
import Cubic.Lib.BitField

/-! # The text of a server hash (`online_crypto.rs`) -/

namespace Cubic.Network

set_option autoImplicit false

/-- One is added to the last byte, and carried on while a byte overflows. The bytes are in
reverse. -/
def increment : Bytes → Bytes
  | [] => []
  | byte :: rest =>
    let value := byte + 1
    if value = 0 then value :: increment rest else value :: rest

/-- `{byte:02x}` -/
def paddedHex (byte : UInt8) : List Char :=
  let digits := Nat.toDigits 16 byte.toNat
  List.replicate (2 - digits.length) '0' ++ digits

/-- The first byte without a zero before it, the others with two digits each. -/
def unpaddedHex : Bytes → List Char
  | [] => []
  | byte :: bytes => Nat.toDigits 16 byte.toNat ++ bytes.flatMap paddedHex

def signedTwosComplementHex (digest : Bytes) : String :=
  let negative := digest.head?.any fun byte => byte &&& 0x80 ≠ 0
  let magnitude :=
    if negative then (increment (digest.map (~~~ ·)).reverse).reverse else digest
  let first := (magnitude.findIdx? (· ≠ 0)).getD magnitude.length
  if first = magnitude.length then "0"
  else .ofList ((if negative then ['-'] else []) ++ unpaddedHex (magnitude.drop first))

/-! ### What it stands for -/

/-- The integer the bytes denote in two's complement. -/
def denoted (digest : Bytes) : Int := BitField.signed (8 * digest.length) (ofBigEndian digest)

/-- Lowercase digits after a sign, with no zeros before the first digit. -/
def hexNumeral (z : Int) : String :=
  .ofList ((if z < 0 then ['-'] else []) ++ Nat.toDigits 16 z.natAbs)

/-! ### The magnitude -/

theorem ofBigEndian_append_singleton (bytes : Bytes) (byte : UInt8) :
    ofBigEndian (bytes ++ [byte]) = ofBigEndian bytes * 256 + byte.toNat := by
  unfold ofBigEndian
  rw [List.foldl_append, List.foldl_cons, List.foldl_nil]

theorem length_increment (bytes : Bytes) : (increment bytes).length = bytes.length := by
  induction bytes with
  | nil => rfl
  | cons byte rest ih =>
    simp only [increment]
    split
    · rw [List.length_cons, List.length_cons, ih]
    · rfl

/-- The carry that leaves the first byte is lost. -/
theorem ofBigEndian_increment (bytes : Bytes) :
    ofBigEndian (increment bytes).reverse = (ofBigEndian bytes.reverse + 1) % 256 ^ bytes.length := by
  induction bytes with
  | nil => rfl
  | cons byte rest ih =>
    have hbyte := byte.toNat_lt
    have hlt := ofBigEndian_lt rest.reverse
    rw [List.length_reverse] at hlt
    rw [List.reverse_cons, ofBigEndian_append_singleton, List.length_cons, Nat.pow_succ]
    simp only [increment]
    split
    · rename_i hzero
      have hmax : byte.toNat = 255 := by
        have hsum := congrArg UInt8.toNat hzero
        rw [UInt8.toNat_add] at hsum
        change (byte.toNat + 1) % 256 = 0 at hsum
        omega
      rw [List.reverse_cons, ofBigEndian_append_singleton, ih, hzero, hmax]
      change _ * 256 + 0 = _
      rw [show ofBigEndian rest.reverse * 256 + 255 + 1 = (ofBigEndian rest.reverse + 1) * 256 by ring,
        Nat.mul_mod_mul_right, Nat.add_zero]
    · rename_i hnonzero
      have hsmall : byte.toNat + 1 < 256 := by
        by_contra hge
        have hmax : byte = 255 := UInt8.toNat_inj.mp (show byte.toNat = 255 by omega)
        exact hnonzero (by rw [hmax]; decide)
      have hsucc : (byte + 1).toNat = byte.toNat + 1 := by
        rw [UInt8.toNat_add]
        exact Nat.mod_eq_of_lt hsmall
      rw [List.reverse_cons, ofBigEndian_append_singleton, hsucc, Nat.mod_eq_of_lt]
      · omega
      · omega

theorem ofBigEndian_complement (bytes : Bytes) :
    ofBigEndian (bytes.map (~~~ ·)) + ofBigEndian bytes + 1 = 256 ^ bytes.length := by
  induction bytes with
  | nil => rfl
  | cons byte rest ih =>
    have hbyte := byte.toNat_lt
    have hnot : (~~~ byte).toNat = 255 - byte.toNat := by
      rw [UInt8.toNat_not]
      rfl
    have hsum : (255 - byte.toNat) * 256 ^ rest.length + byte.toNat * 256 ^ rest.length =
        255 * 256 ^ rest.length := by
      rw [← Nat.add_mul, Nat.sub_add_cancel (by omega)]
    rw [List.map_cons, ofBigEndian_cons, ofBigEndian_cons, List.length_map, List.length_cons,
      Nat.pow_succ, hnot]
    omega

theorem topBit_iff (byte : UInt8) : byte &&& 0x80 ≠ 0 ↔ 128 ≤ byte.toNat := by
  have hall : ∀ n < 256, n &&& 128 ≠ 0 ↔ 128 ≤ n := by decide +kernel
  have hzero : byte &&& 0x80 = 0 ↔ byte.toNat &&& 128 = 0 := by
    rw [← UInt8.toNat_inj, UInt8.toNat_and]
    rfl
  rw [ne_eq, hzero]
  exact hall _ byte.toNat_lt

/-- The sign of the integer is in the top bit of the first byte. -/
theorem negative_iff (digest : Bytes) :
    digest.head?.any (fun byte => byte &&& 0x80 ≠ 0) = true ↔
      256 ^ digest.length ≤ 2 * ofBigEndian digest := by
  cases digest with
  | nil => decide
  | cons byte rest =>
    have hlt := ofBigEndian_lt rest
    have htop : (byte :: rest).head?.any (fun byte => byte &&& 0x80 ≠ 0) = true ↔
        128 ≤ byte.toNat := by
      rw [List.head?_cons, Option.any_some, decide_eq_true_iff]
      exact topBit_iff byte
    rw [htop, ofBigEndian_cons, List.length_cons, Nat.pow_succ]
    constructor
    · intro h
      have hmul := Nat.mul_le_mul_right (256 ^ rest.length) h
      omega
    · intro h
      by_contra hsmall
      have hmul := Nat.mul_le_mul_right (256 ^ rest.length) (show byte.toNat ≤ 127 by omega)
      omega

theorem denoted_eq (digest : Bytes) :
    denoted digest = if 256 ^ digest.length ≤ 2 * ofBigEndian digest
      then (ofBigEndian digest : Int) - 256 ^ digest.length else ofBigEndian digest := by
  have hlt := ofBigEndian_lt digest
  have hpow : 2 ^ (8 * digest.length) = 256 ^ digest.length := by
    rw [Nat.pow_mul]
  have heven : 256 ^ digest.length = 1 ∨ 256 ^ digest.length % 2 = 0 := by
    cases digest with
    | nil => exact Or.inl rfl
    | cons byte rest =>
      rw [List.length_cons, Nat.pow_succ]
      omega
  unfold denoted BitField.signed
  rw [hpow, Int.bmod_def]
  have hmod : (ofBigEndian digest : Int) % (256 ^ digest.length : Nat) = ofBigEndian digest := by
    exact_mod_cast Nat.mod_eq_of_lt hlt
  rw [hmod]
  clear hmod hpow
  have hcast : ((256 ^ digest.length : Nat) : Int) = 256 ^ digest.length := by push_cast; rfl
  rw [← hcast]
  generalize 256 ^ digest.length = size at hlt heven
  split <;> split <;> omega

/-! ### The digits -/

theorem paddedHex_eq (byte : UInt8) :
    paddedHex byte = Nat.toDigits 16 (byte.toNat / 16) ++ Nat.toDigits 16 (byte.toNat % 16) := by
  have hbyte := byte.toNat_lt
  have hhigh := Nat.toDigits_of_lt_base (show byte.toNat / 16 < 16 by omega)
  have hlow := Nat.toDigits_of_lt_base (show byte.toNat % 16 < 16 by omega)
  unfold paddedHex
  rcases Nat.lt_or_ge byte.toNat 16 with h | h
  · have hzero : byte.toNat / 16 = 0 := Nat.div_eq_of_lt h
    rw [hzero, Nat.mod_eq_of_lt h, Nat.toDigits_of_lt_base h]
    rfl
  · rw [Nat.toDigits_of_base_le (by decide) h, hhigh, hlow]
    rfl

theorem toDigits_append_paddedHex {n : Nat} (hn : 0 < n) (byte : UInt8) :
    Nat.toDigits 16 n ++ paddedHex byte = Nat.toDigits 16 (n * 256 + byte.toNat) := by
  have hbyte := byte.toNat_lt
  rw [paddedHex_eq, ← List.append_assoc,
    Nat.toDigits_append_toDigits (by decide) hn (by omega),
    Nat.toDigits_append_toDigits (by decide) (by omega) (by omega)]
  congr 1
  omega

theorem toDigits_append_flatMap (bytes : Bytes) : ∀ {n : Nat}, 0 < n →
    Nat.toDigits 16 n ++ bytes.flatMap paddedHex =
      Nat.toDigits 16 (n * 256 ^ bytes.length + ofBigEndian bytes) := by
  induction bytes with
  | nil =>
    intro n _
    rw [List.flatMap_nil, List.append_nil, List.length_nil, Nat.pow_zero, Nat.mul_one]
    rfl
  | cons byte rest ih =>
    intro n hn
    rw [List.flatMap_cons, ← List.append_assoc, toDigits_append_paddedHex hn,
      ih (by omega), ofBigEndian_cons, List.length_cons, Nat.pow_succ]
    congr 1
    ring

/-- The bytes from the first that is not zero spell the number without leading zeros. -/
theorem unpaddedHex_drop (bytes : Bytes) :
    (bytes.findIdx? (· ≠ 0)).getD bytes.length = bytes.length ∧ ofBigEndian bytes = 0 ∨
    (bytes.findIdx? (· ≠ 0)).getD bytes.length ≠ bytes.length ∧
      unpaddedHex (bytes.drop ((bytes.findIdx? (· ≠ 0)).getD bytes.length)) =
        Nat.toDigits 16 (ofBigEndian bytes) := by
  induction bytes with
  | nil => exact Or.inl ⟨rfl, rfl⟩
  | cons byte rest ih =>
    rw [List.findIdx?_cons]
    by_cases hbyte : byte = 0
    · have hvalue : ofBigEndian (byte :: rest) = ofBigEndian rest := by
        rw [ofBigEndian_cons, hbyte]
        simp
      have hdecide : decide (byte ≠ 0) = false := decide_eq_false (not_not.mpr hbyte)
      rw [hdecide, hvalue]
      cases hfind : rest.findIdx? (· ≠ 0) with
      | none =>
        rw [hfind] at ih
        rcases ih with ⟨-, hzero⟩ | ⟨hne, -⟩
        · exact Or.inl ⟨rfl, hzero⟩
        · exact absurd rfl hne
      | some k =>
        rw [hfind] at ih
        rcases ih with ⟨hlength, hzero⟩ | ⟨hne, hdigits⟩
        · exact Or.inl ⟨congrArg Nat.succ hlength, hzero⟩
        · exact Or.inr ⟨fun heq => hne (Nat.succ.inj heq), hdigits⟩
    · have hdecide : decide (byte ≠ 0) = true := decide_eq_true hbyte
      have hpos : 0 < byte.toNat := by
        apply Nat.pos_of_ne_zero
        exact fun hzero => hbyte (UInt8.toNat_inj.mp hzero)
      rw [hdecide]
      refine Or.inr ⟨(Nat.succ_ne_zero _).symm, ?_⟩
      change unpaddedHex (byte :: rest) = _
      rw [unpaddedHex, toDigits_append_flatMap rest hpos, ofBigEndian_cons]

/-- The text is the numeral of the integer that the digest denotes. -/
theorem signedTwosComplementHex_eq (digest : Bytes) :
    signedTwosComplementHex digest = hexNumeral (denoted digest) := by
  have hlt := ofBigEndian_lt digest
  have hcast : ((256 ^ digest.length : Nat) : Int) = 256 ^ digest.length := by push_cast; rfl
  unfold signedTwosComplementHex hexNumeral
  rw [denoted_eq, ← hcast]
  by_cases hnegative : digest.head?.any (fun byte => byte &&& 0x80 ≠ 0) = true
  · have hhalf := (negative_iff digest).mp hnegative
    have hmagnitude : ofBigEndian (increment (digest.map (~~~ ·)).reverse).reverse =
        256 ^ digest.length - ofBigEndian digest := by
      have hsum := ofBigEndian_complement digest
      have hpos : 0 < 256 ^ digest.length := Nat.pow_pos (by decide)
      rw [ofBigEndian_increment, List.reverse_reverse, List.length_reverse, List.length_map,
        Nat.mod_eq_of_lt (by omega)]
      omega
    rw [if_pos hhalf]
    dsimp only
    rw [if_pos hnegative, if_pos hnegative]
    rcases unpaddedHex_drop (increment (digest.map (~~~ ·)).reverse).reverse with
      ⟨-, hzero⟩ | ⟨hfirst, hdigits⟩
    · omega
    · have hneg : (ofBigEndian digest : Int) - (256 ^ digest.length : Nat) < 0 := by omega
      have habs : ((ofBigEndian digest : Int) - (256 ^ digest.length : Nat)).natAbs =
          256 ^ digest.length - ofBigEndian digest := by omega
      rw [if_neg hfirst, hdigits, hmagnitude, if_pos hneg, habs]
  · have hhalf := mt (negative_iff digest).mpr hnegative
    have hneg : ¬ (ofBigEndian digest : Int) < 0 := by omega
    rw [if_neg hhalf]
    dsimp only
    rw [if_neg hnegative, if_neg hnegative, if_neg hneg, Int.natAbs_natCast]
    rcases unpaddedHex_drop digest with ⟨hfirst, hzero⟩ | ⟨hfirst, hdigits⟩
    · rw [if_pos hfirst, hzero]
      rfl
    · rw [if_neg hfirst, hdigits]

end Cubic.Network
