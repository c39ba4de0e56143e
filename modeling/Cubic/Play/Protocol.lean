import Cubic.Codec.Writer
import Cubic.Nbt.Tag

/-! # Helpers of the Play packet decoders (`bootstrap/v775.rs`) -/

namespace Cubic

set_option autoImplicit false

inductive BootstrapProtocolError where
  | codec (e : CodecError)
  | nbt (e : NbtError)
  | trailingData (context : String) (remaining : Nat)
  | negativeCount (context : String) (value : Int32)
  | countTooLarge (context : String) (count max : Nat)
  | payloadTooLarge (context : String) (length max : Nat)
  deriving DecidableEq

abbrev PlayM := Mut CodecReader BootstrapProtocolError

/-- The `?` that turns a codec error into a protocol error. -/
def codec {α : Type} (m : ReaderM α) : PlayM α := Mut.mapErr .codec m

def requireConsumed (context : String) : PlayM Unit := do
  let r ← Mut.get
  if r.remaining = 0 then pure () else Mut.fail (.trailingData context r.remaining)

def readCount (context : String) (max : Nat) : PlayM Nat := do
  let value ← codec readVarInt
  if value < 0 then Mut.fail (.negativeCount context value)
  else if value.toInt.toNat > max then Mut.fail (.countTooLarge context value.toInt.toNat max)
  else pure value.toInt.toNat

def nonnegativeU32 (value : Int32) (context : String) : Except BootstrapProtocolError UInt32 :=
  if 0 ≤ value then .ok value.toUInt32
  else .error (.codec (.valueOutOfRange context value.toInt 0 i32Max))

theorem int32_nonneg {n : Nat} (h : n ≤ i32Max) : (0 : Int32) ≤ .ofNat n := by
  rw [Int32.le_iff_toInt_le, toInt_ofNat_i32 h]
  exact Int.natCast_nonneg n

end Cubic
