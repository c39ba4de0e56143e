import Cubic.Codec.Error
import Cubic.Codec.VarInt
import Cubic.Lib.BigEndian
import Cubic.Lib.Mut

/-!
# The byte reader (`reader.rs`)

The input is held split at the cursor, so that the cursor cannot lie outside it.
-/

namespace Cubic

set_option autoImplicit false

open VarLength

structure CodecReader where
  before : Bytes
  rest : Bytes
  deriving DecidableEq

namespace CodecReader

def new (input : Bytes) : CodecReader := ⟨[], input⟩

def position (r : CodecReader) : Nat := r.before.length

def remaining (r : CodecReader) : Nat := r.rest.length

/-- The reader after the next `n` bytes. -/
def advance (r : CodecReader) (n : Nat) : CodecReader := ⟨r.before ++ r.rest.take n, r.rest.drop n⟩

end CodecReader

abbrev ReaderM := Mut CodecReader CodecError

def consumedSince (start : Nat) : ReaderM Bytes := do
  let r ← Mut.get
  if start ≤ r.position then pure (r.before.drop start)
  else Mut.fail (.valueOutOfRange "reader cursor snapshot" start 0 r.position)

def readRemaining : ReaderM Bytes := do
  let r ← Mut.get
  Mut.set (r.advance r.remaining)
  pure r.rest

/-- The slice is taken if it lies in the input, whose length is a `usize`; otherwise the
end of the slice overflows or is past the input. -/
def readBytes (length : Nat) (context : String) : ReaderM Bytes := do
  let r ← Mut.get
  if length ≤ r.remaining then do
    Mut.set (r.advance length)
    pure (r.rest.take length)
  else if r.position + length > usizeMax then
    Mut.fail (.valueOutOfRange "reader byte length" length 0 usizeMax)
  else Mut.fail (.unexpectedEnd context length r.remaining)

def readByteWithContext (context : String) : ReaderM UInt8 := do
  let bytes ← readBytes 1 context
  match bytes with
  | byte :: _ => pure byte
  | [] => Mut.fail (.unexpectedEnd context 1 0)

/-- `read_array`, and the number the bytes stand for. -/
def readNat (size : Nat) (context : String) : ReaderM Nat := do
  let bytes ← readBytes size context
  pure (ofBigEndian bytes)

def readU8 : ReaderM UInt8 := readByteWithContext "u8"

def readI8 : ReaderM Int8 := do
  let byte ← readByteWithContext "i8"
  pure byte.toInt8

def readI16 : ReaderM Int16 := do
  let n ← readNat 2 "i16"
  pure (.ofBitVec (.ofNat 16 n))

def readU16 : ReaderM UInt16 := do
  let n ← readNat 2 "u16"
  pure (.ofNat n)

def readI32 : ReaderM Int32 := do
  let n ← readNat 4 "i32"
  pure (.ofBitVec (.ofNat 32 n))

def readU32 : ReaderM UInt32 := do
  let n ← readNat 4 "u32"
  pure (.ofNat n)

def readI64 : ReaderM Int64 := do
  let n ← readNat 8 "i64"
  pure (.ofBitVec (.ofNat 64 n))

def readU64 : ReaderM UInt64 := do
  let n ← readNat 8 "u64"
  pure (.ofNat n)

/-- The bits of the `f32`. -/
def readF32 : ReaderM UInt32 := readU32

def readF64 : ReaderM UInt64 := readU64

def readBool : ReaderM Bool := do
  let byte ← readU8
  pure (byte ≠ 0)

/-- The loop of `read_var_int` and `read_var_long`. -/
def readVarLoop {w : Nat} (context : String) (malformed : CodecError) :
    Nat → Nat → BitVec w → ReaderM (BitVec w)
  | 0, _, _ => Mut.fail malformed
  | left + 1, index, acc => do
    let byte ← readByteWithContext context
    let acc := acc ||| payload w byte <<< (index * 7)
    if continues byte then readVarLoop context malformed left (index + 1) acc else pure acc

def readVarInt : ReaderM Int32 := do
  let value ← readVarLoop "VarInt" .malformedVarInt maxVarIntBytes 0 0
  pure (.ofBitVec value)

def readVarLong : ReaderM Int64 := do
  let value ← readVarLoop "VarLong" .malformedVarLong maxVarLongBytes 0 0
  pure (.ofBitVec value)

def readLength (kind : LengthKind) : ReaderM Nat := do
  let value ← Mut.mapErr
    (fun e => if e = .malformedVarInt then .malformedLengthPrefix kind else e) readVarInt
  if value.toInt < 0 then Mut.fail (.negativeLength kind value) else pure value.toInt.toNat

structure StringLimits where
  maxUtf16Units : Nat
  encodedBytes : Nat
  deriving DecidableEq

/-- The smaller of the configured byte cap and three bytes a unit. -/
def StringLimits.maxEncodedBytes (limits : StringLimits) : Nat :=
  match checkedMul limits.maxUtf16Units 3 with
  | some protocolMax => if protocolMax < limits.encodedBytes then protocolMax else limits.encodedBytes
  | none => limits.encodedBytes

def utf8Bytes (s : String) : Bytes := s.toByteArray.data.toList

def fromUtf8 (bytes : Bytes) : Option String := String.fromUTF8? ⟨bytes.toArray⟩

/-- The length of the longest prefix that is valid UTF-8. -/
def utf8ValidUpTo (bytes : Bytes) : Nat :=
  ((List.range (bytes.length + 1)).reverse.find? fun n => (fromUtf8 (bytes.take n)).isSome).getD 0

def utf16Units (s : String) : Nat :=
  (s.toList.map fun c => if c.val < 0x10000 then 1 else 2).sum

def readString (limits : StringLimits) : ReaderM String := do
  let length ← readLength .string
  if length > limits.maxEncodedBytes then
    Mut.fail (.encodedStringTooLong length limits.maxEncodedBytes)
  else do
    let bytes ← readBytes length "string bytes"
    match fromUtf8 bytes with
    | none => Mut.fail (.invalidUtf8 (utf8ValidUpTo bytes))
    | some value =>
      if utf16Units value > limits.maxUtf16Units then
        Mut.fail (.stringTooLong (utf16Units value) limits.maxUtf16Units)
      else pure value

def readByteArray (maxLength : Nat) : ReaderM Bytes := do
  let length ← readLength .byteArray
  if length > maxLength then Mut.fail (.byteArrayTooLong length maxLength)
  else readBytes length "byte array"

end Cubic
