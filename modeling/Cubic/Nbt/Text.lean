import Cubic.Codec.Writer
import Cubic.Nbt.Budget

/-! # Modified UTF-8 (`nbt/string.rs`) -/

namespace Cubic

set_option autoImplicit false

def unitWidth (unit : UInt16) : Nat :=
  if 0x0001 ≤ unit ∧ unit ≤ 0x007f then 1 else if unit ≤ 0x07ff then 2 else 3

def encodedLen (s : NbtString) : Nat := (s.map unitWidth).sum

theorem encodedLen_cons (unit : UInt16) (s : NbtString) :
    encodedLen (unit :: s) = unitWidth unit + encodedLen s := List.sum_cons

/-- The bytes of one unit. -/
def encodeUnit (unit : UInt16) : Bytes :=
  if 0x0001 ≤ unit ∧ unit ≤ 0x007f then [unit.toUInt8]
  else if unit ≤ 0x07ff then
    [((0xc0 : UInt16) ||| (unit >>> 6)).toUInt8, ((0x80 : UInt16) ||| (unit &&& 0x3f)).toUInt8]
  else
    [((0xe0 : UInt16) ||| (unit >>> 12)).toUInt8, ((0x80 : UInt16) ||| ((unit >>> 6) &&& 0x3f)).toUInt8,
      ((0x80 : UInt16) ||| (unit &&& 0x3f)).toUInt8]

def isContinuation (byte : UInt8) : Bool := byte &&& 0xc0 == 0x80

/-- The loop over the encoded bytes, from `offset` on. -/
def decodeUnits : Nat → Bytes → Except NbtError (List UInt16)
  | _, [] => .ok []
  | offset, first :: rest =>
    if first ≤ 0x7f then do
      let units ← decodeUnits (offset + 1) rest
      pure (first.toUInt16 :: units)
    else if 0xc0 ≤ first ∧ first ≤ 0xdf then
      match rest with
      | [] => .error (.malformedModifiedUtf8 (offset + 1))
      | second :: rest =>
        if isContinuation second then do
          let units ← decodeUnits (offset + 2) rest
          pure ((((first &&& 0x1f).toUInt16 <<< 6) ||| (second &&& 0x3f).toUInt16) :: units)
        else .error (.malformedModifiedUtf8 (offset + 1))
    else if 0xe0 ≤ first ∧ first ≤ 0xef then
      match rest with
      | [] => .error (.malformedModifiedUtf8 (offset + 1))
      | [second] =>
        .error (.malformedModifiedUtf8 (if isContinuation second then offset + 2 else offset + 1))
      | second :: third :: rest =>
        if isContinuation second then
          if isContinuation third then do
            let units ← decodeUnits (offset + 3) rest
            pure ((((first &&& 0x0f).toUInt16 <<< 12) ||| ((second &&& 0x3f).toUInt16 <<< 6) |||
              (third &&& 0x3f).toUInt16) :: units)
          else .error (.malformedModifiedUtf8 (offset + 2))
        else .error (.malformedModifiedUtf8 (offset + 1))
    else .error (.malformedModifiedUtf8 offset)

/-- `NbtString::encode` -/
def NbtString.encode (limits : NbtLimits) (s : NbtString) : Except NbtError Bytes := do
  validateEncodedLength limits (encodedLen s)
  if encodedLen s ≤ u16Max then
    pure (writeU16 (.ofNat (encodedLen s)) ++ s.flatMap encodeUnit)
  else .error (.stringTooLong (encodedLen s) u16Max)

/-! ### Units and their bytes -/

theorem isContinuation_iff (byte : UInt8) : isContinuation byte = true ↔ byte.toNat / 64 = 2 := by
  have h : ∀ b : BitVec 8, (b &&& 0xc0 == 0x80) = true ↔ b.toNat / 64 = 2 := by decide
  obtain ⟨b⟩ := byte
  rw [← UInt8.toNat_toBitVec, ← h b]
  unfold isContinuation
  rw [beq_iff_eq, beq_iff_eq, ← UInt8.toBitVec_inj]
  rfl

theorem toNat_mask8 (byte mask : UInt8) {n : Nat} (hmask : mask.toNat = 2 ^ n - 1) :
    ((byte &&& mask).toUInt16).toNat = byte.toNat % 2 ^ n := by
  rw [UInt8.toNat_toUInt16, UInt8.toNat_and, hmask, Nat.and_two_pow_sub_one_eq_mod]

theorem toNat_shift_or16 (high low : UInt16) {k : UInt16} {n : Nat} (hk : k.toNat % 16 = n)
    (hlow : low.toNat < 2 ^ n) (hhigh : high.toNat * 2 ^ n < 2 ^ 16) :
    (high <<< k ||| low).toNat = high.toNat * 2 ^ n + low.toNat := by
  rw [UInt16.toNat_or, UInt16.toNat_shiftLeft, hk, Nat.shiftLeft_eq, Nat.mod_eq_of_lt hhigh,
    ← Nat.shiftLeft_eq, ← Nat.shiftLeft_add_eq_or_of_lt hlow]

/-- A marker above the payload bits is added to them. -/
theorem toNat_marker (marker payload : UInt16) {n k : Nat} (hmarker : marker.toNat = 2 ^ n * k)
    (hpayload : payload.toNat < 2 ^ n) (hbyte : 2 ^ n * k + payload.toNat < 256) :
    ((marker ||| payload).toUInt8).toNat = 2 ^ n * k + payload.toNat := by
  rw [UInt16.toNat_toUInt8, UInt16.toNat_or, hmarker, ← Nat.two_pow_add_eq_or_of_lt hpayload,
    Nat.mod_eq_of_lt hbyte]

theorem toNat_bits16 (unit k : UInt16) {j : Nat} (hk : k.toNat % 16 = j) :
    (unit >>> k).toNat = unit.toNat / 2 ^ j := by
  rw [UInt16.toNat_shiftRight, hk, Nat.shiftRight_eq_div_pow]

theorem toNat_low6 (unit : UInt16) : (unit &&& 0x3f).toNat = unit.toNat % 2 ^ 6 := by
  rw [UInt16.toNat_and]
  exact Nat.and_two_pow_sub_one_eq_mod _ 6

theorem decodeUnits_one {offset : Nat} {first : UInt8} (rest : Bytes) (h : first.toNat < 128) :
    decodeUnits offset (first :: rest) =
      (decodeUnits (offset + 1) rest).map (fun units => first.toUInt16 :: units) := by
  have hle : first ≤ 0x7f := UInt8.le_iff_toNat_le.mpr (Nat.le_of_lt_succ h)
  rw [decodeUnits.eq_def]
  simp only [if_pos hle]
  cases decodeUnits (offset + 1) rest <;> rfl

theorem decodeUnits_two {offset : Nat} {first second : UInt8} {unit : UInt16} (rest : Bytes)
    (hfirst : first.toNat / 32 = 6) (hsecond : second.toNat / 64 = 2)
    (hunit : unit.toNat = first.toNat % 32 * 64 + second.toNat % 64) :
    decodeUnits offset (first :: second :: rest) =
      (decodeUnits (offset + 2) rest).map (fun units => unit :: units) := by
  have hone : ¬ first ≤ 0x7f := by
    rw [UInt8.le_iff_toNat_le]
    change ¬ first.toNat ≤ 127
    omega
  have htwo : 0xc0 ≤ first ∧ first ≤ 0xdf := by
    rw [UInt8.le_iff_toNat_le, UInt8.le_iff_toNat_le]
    change 192 ≤ first.toNat ∧ first.toNat ≤ 223
    omega
  have hhigh := toNat_mask8 first 0x1f (n := 5) rfl
  have hlow := toNat_mask8 second 0x3f (n := 6) rfl
  have heq : ((first &&& 0x1f).toUInt16 <<< 6 ||| (second &&& 0x3f).toUInt16) = unit := by
    apply UInt16.toNat_inj.mp
    rw [toNat_shift_or16 _ _ (n := 6) rfl (by omega) (by omega), hhigh, hlow, hunit]
    omega
  rw [decodeUnits.eq_def]
  simp only [if_neg hone, if_pos htwo, (isContinuation_iff second).mpr hsecond, if_true, heq]
  cases decodeUnits (offset + 2) rest <;> rfl

theorem decodeUnits_three {offset : Nat} {first second third : UInt8} {unit : UInt16} (rest : Bytes)
    (hfirst : first.toNat / 16 = 14) (hsecond : second.toNat / 64 = 2) (hthird : third.toNat / 64 = 2)
    (hunit : unit.toNat = first.toNat % 16 * 4096 + (second.toNat % 64 * 64 + third.toNat % 64)) :
    decodeUnits offset (first :: second :: third :: rest) =
      (decodeUnits (offset + 3) rest).map (fun units => unit :: units) := by
  have hone : ¬ first ≤ 0x7f := by
    rw [UInt8.le_iff_toNat_le]
    change ¬ first.toNat ≤ 127
    omega
  have htwo : ¬ (0xc0 ≤ first ∧ first ≤ 0xdf) := by
    rw [UInt8.le_iff_toNat_le, UInt8.le_iff_toNat_le]
    change ¬ (192 ≤ first.toNat ∧ first.toNat ≤ 223)
    omega
  have hthree : 0xe0 ≤ first ∧ first ≤ 0xef := by
    rw [UInt8.le_iff_toNat_le, UInt8.le_iff_toNat_le]
    change 224 ≤ first.toNat ∧ first.toNat ≤ 239
    omega
  have hhigh := toNat_mask8 first 0x0f (n := 4) rfl
  have hmid := toNat_mask8 second 0x3f (n := 6) rfl
  have hlow := toNat_mask8 third 0x3f (n := 6) rfl
  have htail : ((second &&& 0x3f).toUInt16 <<< 6 ||| (third &&& 0x3f).toUInt16).toNat =
      second.toNat % 64 * 64 + third.toNat % 64 := by
    rw [toNat_shift_or16 _ _ (n := 6) rfl (by omega) (by omega), hmid, hlow]
    omega
  have heq : ((first &&& 0x0f).toUInt16 <<< 12 ||| (second &&& 0x3f).toUInt16 <<< 6 |||
      (third &&& 0x3f).toUInt16) = unit := by
    apply UInt16.toNat_inj.mp
    rw [UInt16.or_assoc, toNat_shift_or16 _ _ (n := 12) rfl (by omega) (by omega), htail, hhigh, hunit]
    omega
  rw [decodeUnits.eq_def]
  simp only [if_neg hone, if_neg htwo, if_pos hthree, (isContinuation_iff second).mpr hsecond,
    (isContinuation_iff third).mpr hthird, if_true, heq]
  cases decodeUnits (offset + 3) rest <;> rfl

/-- The bytes of a unit as numbers, and how many there are. -/
theorem encodeUnit_cases (unit : UInt16) :
    (∃ first : UInt8, encodeUnit unit = [first] ∧ unitWidth unit = 1 ∧ first.toNat = unit.toNat ∧
      0 < unit.toNat ∧ unit.toNat < 128) ∨
    (∃ first second : UInt8, encodeUnit unit = [first, second] ∧ unitWidth unit = 2 ∧
      first.toNat = 192 + unit.toNat / 64 ∧ second.toNat = 128 + unit.toNat % 64 ∧
      unit.toNat < 2048) ∨
    ∃ first second third : UInt8, encodeUnit unit = [first, second, third] ∧ unitWidth unit = 3 ∧
      first.toNat = 224 + unit.toNat / 4096 ∧ second.toNat = 128 + unit.toNat / 64 % 64 ∧
      third.toNat = 128 + unit.toNat % 64 := by
  have hlt := unit.toNat_lt
  have hsix := toNat_bits16 unit 6 (j := 6) rfl
  have htwelve := toNat_bits16 unit 12 (j := 12) rfl
  have hlow := toNat_low6 unit
  have hmid := toNat_low6 (unit >>> 6)
  unfold encodeUnit unitWidth
  by_cases hone : 0x0001 ≤ unit ∧ unit ≤ 0x007f
  · have hpos : 1 ≤ unit.toNat := UInt16.le_iff_toNat_le.mp hone.1
    have hsmall : unit.toNat ≤ 127 := UInt16.le_iff_toNat_le.mp hone.2
    have hbyte : unit.toUInt8.toNat = unit.toNat := by
      rw [UInt16.toNat_toUInt8]
      omega
    rw [if_pos hone, if_pos hone]
    exact Or.inl ⟨_, rfl, rfl, hbyte, by omega, by omega⟩
  by_cases htwo : unit ≤ 0x07ff
  · have hsmall : unit.toNat ≤ 2047 := UInt16.le_iff_toNat_le.mp htwo
    have hfirst := toNat_marker 0xc0 (unit >>> 6) (n := 6) (k := 3) rfl (by omega) (by omega)
    have hsecond := toNat_marker 0x80 (unit &&& 0x3f) (n := 6) (k := 2) rfl (by omega) (by omega)
    rw [if_neg hone, if_pos htwo, if_neg hone, if_pos htwo]
    exact Or.inr (Or.inl ⟨_, _, rfl, rfl, by omega, by omega, by omega⟩)
  · rw [if_neg hone, if_neg htwo, if_neg hone, if_neg htwo]
    have hfirst := toNat_marker 0xe0 (unit >>> 12) (n := 5) (k := 7) rfl (by omega) (by omega)
    have hsecond := toNat_marker 0x80 ((unit >>> 6) &&& 0x3f) (n := 6) (k := 2) rfl (by omega)
      (by omega)
    have hthird := toNat_marker 0x80 (unit &&& 0x3f) (n := 6) (k := 2) rfl (by omega) (by omega)
    exact Or.inr (Or.inr ⟨_, _, _, rfl, rfl, by omega, by omega, by omega⟩)

theorem decodeUnits_encodeUnit (offset : Nat) (unit : UInt16) (rest : Bytes) :
    decodeUnits offset (encodeUnit unit ++ rest) =
      (decodeUnits (offset + unitWidth unit) rest).map (fun units => unit :: units) := by
  have hlt := unit.toNat_lt
  rcases encodeUnit_cases unit with ⟨first, hbytes, hwidth, hfirst, _, hsmall⟩ |
    ⟨first, second, hbytes, hwidth, hfirst, hsecond, hsmall⟩ |
    ⟨first, second, third, hbytes, hwidth, hfirst, hsecond, hthird⟩
  · have hunit : first.toUInt16 = unit := by
      apply UInt16.toNat_inj.mp
      rw [UInt8.toNat_toUInt16, hfirst]
    rw [hbytes, hwidth, List.singleton_append, decodeUnits_one rest (by omega), hunit]
  · rw [hbytes, hwidth]
    exact decodeUnits_two rest (by omega) (by omega) (by omega)
  · rw [hbytes, hwidth]
    exact decodeUnits_three rest (by omega) (by omega) (by omega) (by omega)

theorem length_encodeUnit (unit : UInt16) : (encodeUnit unit).length = unitWidth unit := by
  rcases encodeUnit_cases unit with ⟨_, hbytes, hwidth, _⟩ | ⟨_, _, hbytes, hwidth, _⟩ |
    ⟨_, _, _, hbytes, hwidth, _⟩
  · rw [hbytes, hwidth]
    rfl
  · rw [hbytes, hwidth]
    rfl
  · rw [hbytes, hwidth]
    rfl

theorem length_encodeUnits (s : NbtString) : (s.flatMap encodeUnit).length = encodedLen s := by
  rw [List.length_flatMap, encodedLen]
  congr 2
  funext unit
  exact length_encodeUnit unit

/-- A string is read back from its bytes. -/
theorem decodeUnits_encode (s : NbtString) :
    ∀ offset, decodeUnits offset (s.flatMap encodeUnit) = .ok s := by
  induction s with
  | nil => exact fun _ => rfl
  | cons unit s ih =>
    intro offset
    rw [List.flatMap_cons, decodeUnits_encodeUnit, ih]
    rfl

/-- The bytes that are written have no raw zero. -/
theorem zero_not_mem_encodeUnits (s : NbtString) : (0 : UInt8) ∉ s.flatMap encodeUnit := by
  intro hmem
  obtain ⟨unit, _, hunit⟩ := List.mem_flatMap.mp hmem
  have hzero : (0 : UInt8).toNat = 0 := rfl
  rcases encodeUnit_cases unit with ⟨first, hbytes, _, hfirst, hpos, _⟩ |
    ⟨first, second, hbytes, _, hfirst, hsecond, _⟩ |
    ⟨first, second, third, hbytes, _, hfirst, hsecond, hthird⟩
  · rw [hbytes, List.mem_singleton] at hunit
    subst hunit
    omega
  · rw [hbytes, List.mem_cons, List.mem_singleton] at hunit
    rcases hunit with rfl | rfl
    · omega
    · omega
  · rw [hbytes, List.mem_cons, List.mem_cons, List.mem_singleton] at hunit
    rcases hunit with rfl | rfl | rfl
    · omega
    · omega
    · omega

theorem unitWidth_le (unit : UInt16) : unitWidth unit ≤ 3 := by
  unfold unitWidth
  split
  · decide
  split
  · decide
  · decide

theorem unitWidth_le_two (unit : UInt16) (h : unit.toNat < 2048) : unitWidth unit ≤ 2 := by
  have hle : unit ≤ 0x07ff := UInt16.le_iff_toNat_le.mpr (Nat.le_of_lt_succ h)
  unfold unitWidth
  rw [if_pos hle]
  split
  · decide
  · exact Nat.le_refl 2

theorem unitWidth_of_byte {byte : UInt8} (h : byte ≤ 0x7f) (hzero : byte ≠ 0) :
    unitWidth byte.toUInt16 = 1 := by
  have hpos : 0 < byte.toNat := Nat.pos_of_ne_zero fun h0 => hzero (UInt8.toNat_inj.mp h0)
  have hle : byte.toNat ≤ 127 := UInt8.le_iff_toNat_le.mp h
  have hunit : byte.toUInt16.toNat = byte.toNat := UInt8.toNat_toUInt16 byte
  refine if_pos ⟨UInt16.le_iff_toNat_le.mpr ?_, UInt16.le_iff_toNat_le.mpr ?_⟩
  · rw [hunit]
    exact hpos
  · rw [hunit]
    exact hle

/-- Units that are no wider than their bytes: one byte, two below 2048, three at most. -/
theorem sum_le_of_decodeUnits {width : UInt16 → Nat} {offset : Nat} {bytes : Bytes}
    {units : List UInt16} (h : decodeUnits offset bytes = .ok units)
    (hone : ∀ byte ∈ bytes, byte ≤ 0x7f → width byte.toUInt16 ≤ 1)
    (htwo : ∀ unit : UInt16, unit.toNat < 2048 → width unit ≤ 2) (hthree : ∀ unit, width unit ≤ 3) :
    (units.map width).sum ≤ bytes.length := by
  fun_induction decodeUnits offset bytes generalizing units with
  | case1 =>
    cases h
    exact Nat.le_refl 0
  | case2 offset first rest hsmall ih =>
    obtain ⟨units, hunits, h⟩ := Mut.except_bind_eq_ok.mp h
    cases h
    have hwidth := hone first List.mem_cons_self hsmall
    have hlen := ih hunits fun byte hmem => hone byte (List.mem_cons_of_mem _ hmem)
    rw [List.map_cons, List.sum_cons, List.length_cons]
    omega
  | case4 offset first _ _ second rest hsecond ih =>
    obtain ⟨units, hunits, h⟩ := Mut.except_bind_eq_ok.mp h
    cases h
    have hhigh := toNat_mask8 first 0x1f (n := 5) rfl
    have hlow := toNat_mask8 second 0x3f (n := 6) rfl
    have hunit := toNat_shift_or16 (first &&& 0x1f).toUInt16 (second &&& 0x3f).toUInt16
      (k := 6) (n := 6) rfl (by omega) (by omega)
    have hwidth := htwo ((first &&& 0x1f).toUInt16 <<< 6 ||| (second &&& 0x3f).toUInt16) (by omega)
    have hlen := ih hunits fun byte hmem =>
      hone byte (List.mem_cons_of_mem _ (List.mem_cons_of_mem _ hmem))
    rw [List.map_cons, List.sum_cons, List.length_cons, List.length_cons]
    omega
  | case8 offset first _ _ _ second third rest hsecond hthird ih =>
    obtain ⟨units, hunits, h⟩ := Mut.except_bind_eq_ok.mp h
    cases h
    have hwidth := hthree ((first &&& 0x0f).toUInt16 <<< 12 |||
      (second &&& 0x3f).toUInt16 <<< 6 ||| (third &&& 0x3f).toUInt16)
    have hlen := ih hunits fun byte hmem => hone byte
      (List.mem_cons_of_mem _ (List.mem_cons_of_mem _ (List.mem_cons_of_mem _ hmem)))
    rw [List.map_cons, List.sum_cons, List.length_cons, List.length_cons, List.length_cons]
    omega
  | _ => cases h

/-- Without raw zeros, the canonical form is no longer than what was read. -/
theorem encodedLen_le_of_decodeUnits {offset : Nat} {bytes : Bytes} {units : List UInt16}
    (h : decodeUnits offset bytes = .ok units) (hzero : (0 : UInt8) ∉ bytes) :
    encodedLen units ≤ bytes.length := by
  refine sum_le_of_decodeUnits h ?_ unitWidth_le_two unitWidth_le
  intro byte hmem hle
  have hne : byte ≠ 0 := fun h0 => hzero (h0 ▸ hmem)
  exact Nat.le_of_eq (unitWidth_of_byte hle hne)

example : decodeUnits 0 ([0x00, 0x41, 0xe9, 0xd83d].flatMap encodeUnit) =
    .ok [0x00, 0x41, 0xe9, 0xd83d] := by rfl

end Cubic
