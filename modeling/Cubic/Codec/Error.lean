import Cubic.Lib.Machine

/-! # Errors of the binary codec (`error.rs`) -/

namespace Cubic

set_option autoImplicit false

inductive LengthKind where
  | string
  | byteArray
  | bitSet
  | frame
  deriving DecidableEq

inductive CodecError where
  | unexpectedEnd (context : String) (needed remaining : Nat)
  | malformedVarInt
  | malformedVarLong
  | malformedLengthPrefix (kind : LengthKind)
  | negativeLength (kind : LengthKind) (value : Int32)
  | valueOutOfRange (context : String) (value min max : Int)
  | invalidUtf8 (validUpTo : Nat)
  | stringTooLong (utf16Units maxUtf16Units : Nat)
  | encodedStringTooLong (encodedBytes maxEncodedBytes : Nat)
  | byteArrayTooLong (length max : Nat)
  | bitSetTooManyWords (words maxWords : Nat)
  | bitSetBitOutOfRange (bit maxBits : Nat)
  | frameTooLong (length max : Nat)
  | frameBufferTooLong (buffered max : Nat)
  | invalidBlockPosition (axis : String) (value min max : Int32)
  deriving DecidableEq

end Cubic
