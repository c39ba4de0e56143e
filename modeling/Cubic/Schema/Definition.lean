import Cubic.Chat.SecureChat
import Cubic.Codec.BitSet
import Cubic.Codec.Position
import Cubic.Lib.OrderedMap
import Cubic.Nbt.Tag
import Cubic.Version.Identifier

/-!
# Packet schemas (`packet_schema.rs`)

A field is its name and its codec, and so is a named value its name and the value.
-/

namespace Cubic.Schema

set_option autoImplicit false

def maxPacketSchemaBytes : Nat := 16 * 1024 * 1024
def maxPackets : Nat := 4096
def maxFieldsPerPacket : Nat := 256
def maxFieldNesting : Nat := 32

inductive FieldCodec where
  | bool
  | i8
  | u8
  | i16
  | u16
  | i32
  | u32
  | i64
  | u64
  | f32
  | f64
  | varInt
  | varLong
  | string (maxUtf16Units maxBytes : Nat)
  | identifier (maxUtf16Units maxBytes : Nat)
  | uuid
  | position
  | byteArray (maxBytes : Nat)
  | fixedBytes (length : Nat)
  | bitSet (maxWords maxBits : Nat)
  | list (maxItems : Nat) (element : FieldCodec)
  | optional (value : FieldCodec)
  | enum (values : OrderedMap Int32 String)
  | struct (fields : List (String × FieldCodec))
  | conditional (field : String) (equals : Bool) (value : FieldCodec)
  | nbt
  | nbtTag
  | textComponent
  | remainingBytes (maxBytes : Nat)

abbrev PacketField := String × FieldCodec

namespace FieldCodec

/-- Induction on elements, values and the codecs of fields. -/
theorem induct {P : FieldCodec → Prop} (list : ∀ max element, P element → P (.list max element))
    (optional : ∀ value, P value → P (.optional value))
    (struct : ∀ fields : List PacketField, (∀ f ∈ fields, P f.2) → P (.struct fields))
    (conditional : ∀ field equals value, P value → P (.conditional field equals value))
    (bool : P .bool) (i8 : P .i8) (u8 : P .u8) (i16 : P .i16) (u16 : P .u16) (i32 : P .i32)
    (u32 : P .u32) (i64 : P .i64) (u64 : P .u64) (f32 : P .f32) (f64 : P .f64) (varInt : P .varInt)
    (varLong : P .varLong) (string : ∀ units bytes, P (.string units bytes))
    (identifier : ∀ units bytes, P (.identifier units bytes)) (uuid : P .uuid)
    (position : P .position) (byteArray : ∀ bytes, P (.byteArray bytes))
    (fixedBytes : ∀ length, P (.fixedBytes length))
    (bitSet : ∀ words bits, P (.bitSet words bits)) (enum : ∀ values, P (.enum values))
    (nbt : P .nbt) (nbtTag : P .nbtTag) (textComponent : P .textComponent)
    (remainingBytes : ∀ bytes, P (.remainingBytes bytes)) (codec : FieldCodec) : P codec :=
  @FieldCodec.rec P (fun fields => ∀ f ∈ fields, P f.2) (fun f => P f.2)
    bool i8 u8 i16 u16 i32 u32 i64 u64 f32 f64 varInt varLong string identifier uuid position
    byteArray fixedBytes bitSet list optional enum struct conditional nbt nbtTag textComponent
    remainingBytes
    (fun _ h => absurd h List.not_mem_nil)
    (fun _ _ hf hrest => List.forall_mem_cons.mpr ⟨hf, hrest⟩)
    (fun _ _ h => h) codec

/-- `codec == FieldCodec::Bool` -/
def isBool : FieldCodec → Bool
  | bool => true
  | _ => false

end FieldCodec

/-- Floating point numbers are their bits. -/
inductive PacketValue where
  | bool (value : Bool)
  | i8 (value : Int8)
  | u8 (value : UInt8)
  | i16 (value : Int16)
  | u16 (value : UInt16)
  | i32 (value : Int32)
  | u32 (value : UInt32)
  | i64 (value : Int64)
  | u64 (value : UInt64)
  | f32Bits (bits : UInt32)
  | f64Bits (bits : UInt64)
  | varInt (value : Int32)
  | varLong (value : Int64)
  | string (value : String)
  | identifier (value : String)
  | uuid (value : Chat.ProtocolUuid)
  | position (value : BlockPosition)
  | bytes (value : Bytes)
  | bitSet (value : BitSet)
  | list (values : List PacketValue)
  | optional (value : Option PacketValue)
  | enum (value : Int32)
  | struct (fields : List (String × PacketValue))
  | nbt (value : NbtCompound)
  | nbtTag (value : NbtTag)
  | absent

abbrev NamedPacketValue := String × PacketValue

inductive ProtocolState where
  | handshake
  | status
  | login
  | configuration
  | play
  deriving DecidableEq

inductive PacketDirection where
  | serverbound
  | clientbound
  deriving DecidableEq

inductive UnsupportedLayoutReason where
  | noStructuralSourceEntry
  | ambiguousIdentityMapping (sourceIdentity : String)
  | unsupportedCodecConstruct (construct : String)
  | unsupportedConditionalConstruct (construct : String)

inductive PacketLayout where
  | unsupported (reason : UnsupportedLayoutReason)
  | fields (fields : List PacketField)

structure PacketDefinition where
  state : ProtocolState
  direction : PacketDirection
  identity : MinecraftIdentifier
  id : UInt32
  layout : PacketLayout

structure SupplementalPacketSchemaProvenance where
  source : String
  revision : String
  sourceSchema : String
  contentSha256 : String
  license : String

/-- The parts of an artifact that its validation and the registry read. -/
structure PacketSchemaArtifact where
  schemaVersion : UInt32
  supplemental : Option SupplementalPacketSchemaProvenance
  packets : List PacketDefinition

inductive PacketSchemaError where
  | unsupportedSchemaVersion (found supported : UInt32)
  | invalidSchema (reason : String)
  | unknownPacket (state : ProtocolState) (direction : PacketDirection) (id : UInt32)
  | unsupportedPacket (identity : MinecraftIdentifier)
  | valueMismatch (field expected : String)
  | trailingBytes (remaining : Nat)
  | codec (field : String) (source : CodecError)
  | nbt (field : String) (source : NbtError)

end Cubic.Schema
