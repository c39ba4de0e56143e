import Cubic.Codec.Error
import Cubic.Lib.VarLength

/-! # Variable-length integers (`varint.rs`), on byte lists -/

namespace Cubic

set_option autoImplicit false

open VarLength

abbrev Bytes := List UInt8

def maxVarIntBytes : Nat := 5
def maxVarLongBytes : Nat := 10

/-- `decode_partial_var_int`; the value is the `u32` that is cast to `i32`. -/
def decodePartialVarInt (input : Bytes) : Scan 32 := scan maxVarIntBytes 0 0 input

def writeVarInt (value : Int32) : Bytes := encode maxVarIntBytes value.toBitVec

def writeVarLong (value : Int64) : Bytes := encode maxVarLongBytes value.toBitVec

theorem decodePartialVarInt_write (value : Int32) (rest : Bytes) :
    decodePartialVarInt (writeVarInt value ++ rest) =
      .complete value.toBitVec (writeVarInt value).length := by
  have hlt := value.toBitVec.isLt
  have h := scan_encode (w := 32) (by decide) 4 0 0 value.toBitVec rest
    (lt_of_lt_of_le hlt (by decide)) (by decide) (by simpa using hlt)
  simpa [decodePartialVarInt, writeVarInt, maxVarIntBytes] using h

theorem scan_writeVarLong (value : Int64) (rest : Bytes) :
    scan maxVarLongBytes 0 0 (writeVarLong value ++ rest) =
      .complete value.toBitVec (writeVarLong value).length := by
  have hlt := value.toBitVec.isLt
  have h := scan_encode (w := 64) (by decide) 9 0 0 value.toBitVec rest
    (lt_of_lt_of_le hlt (by decide)) (by decide) (by simpa using hlt)
  simpa [writeVarLong, maxVarLongBytes] using h

end Cubic
