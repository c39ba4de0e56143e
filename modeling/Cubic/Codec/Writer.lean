import Cubic.Codec.Reader

/-!
# The byte writer (`writer.rs`)

The writer only appends, so each operation is the bytes that it appends.
-/

namespace Cubic

set_option autoImplicit false

def writeI8 (value : Int8) : Bytes := [value.toUInt8]

def writeU8 (value : UInt8) : Bytes := [value]

def writeI16 (value : Int16) : Bytes := toBigEndian 2 value.toBitVec.toNat

def writeU16 (value : UInt16) : Bytes := toBigEndian 2 value.toNat

def writeI32 (value : Int32) : Bytes := toBigEndian 4 value.toBitVec.toNat

def writeU32 (value : UInt32) : Bytes := toBigEndian 4 value.toNat

def writeI64 (value : Int64) : Bytes := toBigEndian 8 value.toBitVec.toNat

def writeU64 (value : UInt64) : Bytes := toBigEndian 8 value.toNat

def writeF32 (bits : UInt32) : Bytes := writeU32 bits

def writeF64 (bits : UInt64) : Bytes := writeU64 bits

def writeBool (value : Bool) : Bytes := [if value then 1 else 0]

def writeLength (length : Nat) (context : String) : Except CodecError Bytes :=
  if length ≤ i32Max then .ok (writeVarInt (.ofNat length))
  else .error (.valueOutOfRange context length 0 i32Max)

def writeString (value : String) (limits : StringLimits) : Except CodecError Bytes :=
  if utf16Units value > limits.maxUtf16Units then
    .error (.stringTooLong (utf16Units value) limits.maxUtf16Units)
  else if (utf8Bytes value).length > limits.maxEncodedBytes then
    .error (.encodedStringTooLong (utf8Bytes value).length limits.maxEncodedBytes)
  else do
    let header ← writeLength (utf8Bytes value).length "string length"
    pure (header ++ utf8Bytes value)

def writeByteArray (value : Bytes) (maxLength : Nat) : Except CodecError Bytes :=
  if value.length > maxLength then .error (.byteArrayTooLong value.length maxLength)
  else do
    let header ← writeLength value.length "byte array length"
    pure (header ++ value)

/-! ### Reading back what was written -/

/-- `m` takes exactly `bytes` from the front of its input, and returns `a`. -/
def Reads {ε α : Type} (m : Mut CodecReader ε α) (bytes : Bytes) (a : α) : Prop :=
  ∀ before rest, m ⟨before, bytes ++ rest⟩ = .ok a ⟨before ++ bytes, rest⟩

/-- `m` takes the whole input `bytes`, and returns `a`. -/
def ReadsAll {ε α : Type} (m : Mut CodecReader ε α) (bytes : Bytes) (a : α) : Prop :=
  ∀ before, m ⟨before, bytes⟩ = .ok a ⟨before ++ bytes, []⟩

section Reads
variable {ε ε' α β : Type} {m : Mut CodecReader ε α} {f : α → Mut CodecReader ε β}
  {xs ys : Bytes} {a : α} {b : β}

theorem reads_pure (a : α) : Reads (pure a : Mut CodecReader ε α) [] a := by
  intro before rest
  rw [Mut.ret_apply, List.append_nil]
  rfl

theorem Reads.bind (hm : Reads m xs a) (hf : Reads (f a) ys b) : Reads (m >>= f) (xs ++ ys) b := by
  intro before rest
  rw [List.append_assoc, Mut.bind_of_ok (hm before (ys ++ rest)), hf, List.append_assoc]

/-- The last part of a parse reads nothing. -/
theorem Reads.bindNil (hm : Reads m xs a) (hf : Reads (f a) [] b) : Reads (m >>= f) xs b := by
  have h := hm.bind hf
  rwa [List.append_nil] at h

/-- The first part of a parse reads nothing. -/
theorem Reads.nilBind (hm : Reads m [] a) (hf : Reads (f a) ys b) : Reads (m >>= f) ys b :=
  hm.bind hf

theorem reads_ofExcept {r : Except ε α} (h : r = .ok a) :
    Reads (Mut.ofExcept r : Mut CodecReader ε α) [] a := by
  subst h
  exact reads_pure a

theorem Reads.map (hm : Reads m xs a) (g : α → β) :
    Reads (m >>= fun a => pure (g a)) xs (g a) := hm.bindNil (reads_pure (g a))

theorem Reads.mapErr (hm : Reads m xs a) (g : ε → ε') : Reads (Mut.mapErr g m) xs a :=
  fun before rest => Mut.mapErr_eq_ok.mpr (hm before rest)

theorem Reads.all (hm : Reads m xs a) : ReadsAll m xs a := by
  intro before
  have h := hm before []
  rwa [List.append_nil] at h

theorem ReadsAll.bindNil (hm : ReadsAll m xs a) (hf : Reads (f a) [] b) :
    ReadsAll (m >>= f) xs b := by
  intro before
  rw [Mut.bind_of_ok (hm before), hf.all, List.append_nil]

theorem ReadsAll.run (hm : ReadsAll m xs a) : m (.new xs) = .ok a ⟨xs, []⟩ := hm []

theorem reads_repeat {enc : β → Bytes} {m : Mut CodecReader ε β} (vs : List β)
    (h : ∀ v ∈ vs, Reads m (enc v) v) : Reads (Mut.repeatCall m vs.length) (vs.flatMap enc) vs := by
  induction vs with
  | nil => exact reads_pure []
  | cons v vs ih =>
    obtain ⟨hv, hvs⟩ := List.forall_mem_cons.mp h
    rw [List.flatMap_cons]
    exact hv.bind ((ih hvs).map fun rest => v :: rest)

theorem reads_readBytes (bytes : Bytes) (context : String) :
    Reads (readBytes bytes.length context) bytes bytes := by
  intro before rest
  have hle : bytes.length ≤ (⟨before, bytes ++ rest⟩ : CodecReader).remaining := by
    simp [CodecReader.remaining]
  simp only [readBytes, Mut.get_bind, if_pos hle, Mut.set_bind]
  rw [Mut.ret_apply]
  simp [CodecReader.advance]

theorem reads_readRemaining (before rest : Bytes) :
    readRemaining ⟨before, rest⟩ = .ok rest ⟨before ++ rest, []⟩ := by
  simp only [readRemaining, Mut.get_bind, Mut.set_bind]
  rw [Mut.ret_apply]
  simp [CodecReader.advance, CodecReader.remaining]

theorem reads_byte (byte : UInt8) (context : String) :
    Reads (readByteWithContext context) [byte] byte := by
  exact (reads_readBytes [byte] context).bindNil (reads_pure byte)

theorem reads_readNat (size : Nat) {n : Nat} (h : n < 256 ^ size) (context : String) :
    Reads (readNat size context) (toBigEndian size n) n := by
  have hread := (reads_readBytes (toBigEndian size n) context).map ofBigEndian
  rw [length_toBigEndian, ofBigEndian_toBigEndian h] at hread
  exact hread

theorem reads_u8 (v : UInt8) : Reads readU8 (writeU8 v) v := reads_byte v "u8"

theorem reads_i8 (v : Int8) : Reads readI8 (writeI8 v) v := by
  have h := (reads_byte v.toUInt8 "i8").map UInt8.toInt8
  rwa [Int8.toInt8_toUInt8] at h

theorem reads_i16 (v : Int16) : Reads readI16 (writeI16 v) v := by
  have h := (reads_readNat 2 v.toBitVec.isLt "i16").map fun n => Int16.ofBitVec (.ofNat 16 n)
  rwa [BitVec.ofNat_toNat, BitVec.setWidth_eq] at h

theorem reads_u16 (v : UInt16) : Reads readU16 (writeU16 v) v := by
  have h := (reads_readNat 2 v.toNat_lt "u16").map UInt16.ofNat
  rwa [UInt16.ofNat_toNat] at h

theorem reads_i32 (v : Int32) : Reads readI32 (writeI32 v) v := by
  have h := (reads_readNat 4 v.toBitVec.isLt "i32").map fun n => Int32.ofBitVec (.ofNat 32 n)
  rwa [BitVec.ofNat_toNat, BitVec.setWidth_eq] at h

theorem reads_u32 (v : UInt32) : Reads readU32 (writeU32 v) v := by
  have h := (reads_readNat 4 v.toNat_lt "u32").map UInt32.ofNat
  rwa [UInt32.ofNat_toNat] at h

theorem reads_i64 (v : Int64) : Reads readI64 (writeI64 v) v := by
  have h := (reads_readNat 8 v.toBitVec.isLt "i64").map fun n => Int64.ofBitVec (.ofNat 64 n)
  rwa [BitVec.ofNat_toNat, BitVec.setWidth_eq] at h

theorem reads_u64 (v : UInt64) : Reads readU64 (writeU64 v) v := by
  have h := (reads_readNat 8 v.toNat_lt "u64").map UInt64.ofNat
  rwa [UInt64.ofNat_toNat] at h

theorem reads_bool (v : Bool) : Reads readBool (writeBool v) v := by
  have h := (reads_u8 (if v then 1 else 0)).map fun byte => decide (byte ≠ 0)
  cases v <;> exact h

end Reads

/-! ### Variable-length integers and what they delimit -/

section VarLength
open VarLength

/-- The reading loop takes the bytes that a scan of the input finds. -/
theorem readVarLoop_of_scan {w : Nat} {context : String} {malformed : CodecError} {left : Nat} :
    ∀ {index : Nat} {acc v : BitVec w} {before rest : Bytes} {k : Nat},
      scan left index acc rest = .complete v k →
      readVarLoop context malformed left index acc ⟨before, rest⟩ =
        .ok v ⟨before ++ rest.take (k - index), rest.drop (k - index)⟩ := by
  induction left with
  | zero =>
    intro index acc v before rest k h
    cases h
  | succ left ih =>
    intro index acc v before rest k h
    cases rest with
    | nil => cases h
    | cons byte rest =>
      have hbyte : readByteWithContext context ⟨before, byte :: rest⟩ =
          .ok byte ⟨before ++ [byte], rest⟩ := reads_byte byte context before rest
      rw [readVarLoop, Mut.bind_of_ok hbyte]
      rw [scan_cons] at h
      split at h
      · rename_i hcont
        have hk := (scan_bytes h).1
        obtain ⟨j, rfl⟩ : ∃ j, k = index + 1 + j := ⟨k - (index + 1), by omega⟩
        simp only [if_pos hcont]
        rw [ih h, show index + 1 + j - (index + 1) = j by omega,
          show index + 1 + j - index = j + 1 by omega]
        simp
      · rename_i hcont
        cases h
        simp only [if_neg hcont]
        rw [Mut.ret_apply, show index + 1 - index = 1 by omega]
        rfl

theorem reads_varInt (v : Int32) : Reads readVarInt (writeVarInt v) v := by
  have h : Reads (readVarLoop "VarInt" .malformedVarInt maxVarIntBytes 0 0) (writeVarInt v)
      v.toBitVec := by
    intro before rest
    rw [readVarLoop_of_scan (decodePartialVarInt_write v rest)]
    simp
  exact h.map Int32.ofBitVec

theorem reads_varLong (v : Int64) : Reads readVarLong (writeVarLong v) v := by
  have h : Reads (readVarLoop "VarLong" .malformedVarLong maxVarLongBytes 0 0) (writeVarLong v)
      v.toBitVec := by
    intro before rest
    rw [readVarLoop_of_scan (scan_writeVarLong v rest)]
    simp
  exact h.map Int64.ofBitVec

theorem toInt_ofNat_i32 {n : Nat} (h : n ≤ i32Max) : (Int32.ofNat n).toInt = n := by
  rw [Int32.toInt_ofNat_of_lt]
  unfold i32Max at h
  omega

theorem reads_length {length : Nat} {context : String} {bytes : Bytes} (kind : LengthKind)
    (h : writeLength length context = .ok bytes) : Reads (readLength kind) bytes length := by
  unfold writeLength at h
  split at h
  · rename_i hle
    cases h
    have hint := toInt_ofNat_i32 hle
    intro before rest
    have hread := (reads_varInt (.ofNat length)).mapErr (fun e =>
      if e = .malformedVarInt then CodecError.malformedLengthPrefix kind else e) before rest
    rw [readLength, Mut.bind_of_ok hread, hint, if_neg (by omega)]
    rfl
  · cases h

theorem fromUtf8_utf8Bytes (s : String) : fromUtf8 (utf8Bytes s) = some s := by
  unfold fromUtf8 utf8Bytes String.fromUTF8?
  rw [Array.toArray_toList]
  exact dif_pos s.isValidUTF8

theorem utf8Bytes_of_fromUtf8 {bytes : Bytes} {s : String} (h : fromUtf8 bytes = some s) :
    utf8Bytes s = bytes := by
  unfold fromUtf8 String.fromUTF8? at h
  split at h
  · cases h
    rfl
  · cases h

theorem reads_string {value : String} {limits : StringLimits} {bytes : Bytes}
    (h : writeString value limits = .ok bytes) : Reads (readString limits) bytes value := by
  unfold writeString at h
  split at h
  · cases h
  · rename_i hunits
    split at h
    · cases h
    · rename_i hbytes
      cases hlen : writeLength (utf8Bytes value).length "string length" with
      | error e =>
        rw [hlen] at h
        cases h
      | ok header =>
        rw [hlen] at h
        cases h
        refine (reads_length .string hlen).bind ?_
        rw [if_neg hbytes]
        refine (reads_readBytes (utf8Bytes value) "string bytes").bindNil ?_
        rw [fromUtf8_utf8Bytes]
        simp only [if_neg hunits]
        exact reads_pure value

theorem reads_byteArray {value : Bytes} {maxLength : Nat} {bytes : Bytes}
    (h : writeByteArray value maxLength = .ok bytes) :
    Reads (readByteArray maxLength) bytes value := by
  unfold writeByteArray at h
  split at h
  · cases h
  · rename_i hmax
    cases hlen : writeLength value.length "byte array length" with
    | error e =>
      rw [hlen] at h
      cases h
    | ok header =>
      rw [hlen] at h
      cases h
      refine (reads_length .byteArray hlen).bind ?_
      rw [if_neg hmax]
      exact reads_readBytes value "byte array"

end VarLength

end Cubic
