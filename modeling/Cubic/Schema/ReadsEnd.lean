import Cubic.Codec.BitSet
import Cubic.Codec.Position
import Cubic.Lib.Ends
import Cubic.Nbt.TextSize
import Cubic.Schema.Registry

/-! # Reads of fields end with a value or an error -/

namespace Cubic

set_option autoImplicit false

open Mut

instance ends_readBytes (length : Nat) (context : String) : Ends (readBytes length context) :=
  (pays_readBytes length context).ends

instance ends_readRemaining : Ends readRemaining := by
  unfold readRemaining
  infer_instance

instance ends_readByte (context : String) : Ends (readByteWithContext context) :=
  (pays_readByte context).ends

instance ends_readNat (size : Nat) (context : String) : Ends (readNat size context) := by
  unfold readNat
  infer_instance

instance ends_readU8 : Ends readU8 := ends_readByte "u8"

instance ends_readI8 : Ends readI8 := by
  unfold readI8
  infer_instance

instance ends_readI16 : Ends readI16 := by
  unfold readI16
  infer_instance

instance ends_readI32 : Ends readI32 := by
  unfold readI32
  infer_instance

instance ends_readU32 : Ends readU32 := by
  unfold readU32
  infer_instance

instance ends_readI64 : Ends readI64 := by
  unfold readI64
  infer_instance

instance ends_readU64 : Ends readU64 := by
  unfold readU64
  infer_instance

instance ends_readF32 : Ends readF32 := ends_readU32

instance ends_readF64 : Ends readF64 := ends_readU64

instance ends_readBool : Ends readBool := by
  unfold readBool
  infer_instance

instance ends_readVarInt : Ends readVarInt := pays_readVarInt.ends

instance ends_readVarLong : Ends readVarLong := by
  have hloop := (pays_readVarLoop (w := 64) "VarLong" .malformedVarLong maxVarLongBytes 0 0).ends
  unfold readVarLong
  infer_instance

instance ends_readLength (kind : LengthKind) : Ends (readLength kind) := by
  unfold readLength
  infer_instance

instance ends_readString (limits : StringLimits) : Ends (readString limits) := by
  unfold readString
  refine (ends_readLength .string).bind fun length => ?_
  split
  · infer_instance
  · refine (ends_readBytes length "string bytes").bind fun bytes => ?_
    split
    · infer_instance
    · infer_instance

instance ends_readByteArray (maxLength : Nat) : Ends (readByteArray maxLength) := by
  unfold readByteArray
  infer_instance

instance ends_readBitSet (limits : BitSetLimits) : Ends (readBitSet limits) := by
  unfold readBitSet
  infer_instance

instance ends_readBlockPosition : Ends readBlockPosition := by
  unfold readBlockPosition
  infer_instance

instance ends_readUuid : Ends Schema.readUuid := by
  unfold Schema.readUuid
  infer_instance

end Cubic
