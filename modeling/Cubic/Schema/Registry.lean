import Cubic.Codec.BitSetCodec
import Cubic.Nbt.Decode
import Cubic.Schema.Validate

/-! # Decoding and encoding by a schema (`packet_schema.rs`) -/

namespace Cubic.Schema

set_option autoImplicit false

abbrev DecodeM := Mut CodecReader PacketSchemaError

/-- The state is the output of the writer. -/
abbrev EncodeM := Mut Bytes PacketSchemaError

def atField {σ α : Type} (field : String) (m : Mut σ CodecError α) : Mut σ PacketSchemaError α :=
  Mut.mapErr (.codec field) m

def write (bytes : Bytes) : EncodeM Unit := Mut.modify fun output => output ++ bytes

def writeAtField (field : String) (bytes : Except CodecError Bytes) : EncodeM Unit := do
  let bytes ← atField field (Mut.ofExcept bytes)
  write bytes

def writeNbt (field : String) (outcome : Outcome NbtError Budget Bytes) : EncodeM Unit :=
  match outcome with
  | .ok bytes _ => write bytes
  | .err e _ => Mut.fail (.nbt field e)
  | .panic => Mut.fault

def readUuid : ReaderM Chat.ProtocolUuid := do
  let bytes ← readBytes 16 "UUID"
  pure (.ofFn fun i => bytes.getD i 0)

def checkIdentifier {σ : Type} (field text : String) : Mut σ PacketSchemaError Unit :=
  match MinecraftIdentifier.new text with
  | .ok _ => pure ()
  | .error e =>
    Mut.fail (.invalidSchema ("field " ++ field ++ " contains an invalid identifier: " ++ e.message))

def readCount (max : Nat) (field : String) : DecodeM Nat := do
  let value ← atField field readVarInt
  if value < 0 then Mut.fail (.valueMismatch field "non-negative bounded list length")
  else if value.toInt.toNat > max then Mut.fail (.valueMismatch field "bounded list length")
  else pure value.toInt.toNat

def writeCount (count : Nat) (field : String) : EncodeM Unit :=
  if count ≤ i32Max then write (writeVarInt (.ofNat count))
  else Mut.fail (.valueMismatch field "VarInt-sized list length")

/-- The first value under the name, if it is a bool. -/
def priorBool (values : List NamedPacketValue) (reference field : String) :
    Except PacketSchemaError Bool :=
  match values.find? fun value => value.1 = reference with
  | some (_, .bool value) => .ok value
  | _ => .error (.valueMismatch field "preceding bool condition")

def codecName : FieldCodec → String
  | .bool => "bool"
  | .i8 => "i8"
  | .u8 => "u8"
  | .i16 => "i16"
  | .u16 => "u16"
  | .i32 => "i32"
  | .u32 => "u32"
  | .i64 => "i64"
  | .u64 => "u64"
  | .f32 => "f32 bits"
  | .f64 => "f64 bits"
  | .varInt => "VarInt"
  | .varLong => "VarLong"
  | .string _ _ => "string"
  | .identifier _ _ => "identifier"
  | .uuid => "UUID"
  | .position => "Position"
  | .byteArray _ => "bytes"
  | .fixedBytes _ => "bytes"
  | .remainingBytes _ => "bytes"
  | .bitSet _ _ => "BitSet"
  | .list _ _ => "list"
  | .optional _ => "optional"
  | .enum _ => "enum"
  | .struct _ => "structure"
  | .conditional _ _ _ => "conditional value"
  | .nbt => "NBT"
  | .nbtTag => "generic NBT"
  | .textComponent => "text component NBT"

section Layout
variable (layout : NbtLayout)

mutual
def decodeValue (codec : FieldCodec) (prior : List NamedPacketValue) (field : String) (depth : Nat) :
    DecodeM PacketValue :=
  if depth > maxFieldNesting then Mut.fail (.invalidSchema "runtime field nesting exceeds the limit")
  else
    match codec with
    | .bool => do
      let value ← atField field readBool
      pure (.bool value)
    | .i8 => do
      let value ← atField field readI8
      pure (.i8 value)
    | .u8 => do
      let value ← atField field readU8
      pure (.u8 value)
    | .i16 => do
      let value ← atField field readI16
      pure (.i16 value)
    | .u16 => do
      let value ← atField field readU16
      pure (.u16 value)
    | .i32 => do
      let value ← atField field readI32
      pure (.i32 value)
    | .u32 => do
      let value ← atField field readU32
      pure (.u32 value)
    | .i64 => do
      let value ← atField field readI64
      pure (.i64 value)
    | .u64 => do
      let value ← atField field readU64
      pure (.u64 value)
    | .f32 => do
      let bits ← atField field readF32
      pure (.f32Bits bits)
    | .f64 => do
      let bits ← atField field readF64
      pure (.f64Bits bits)
    | .varInt => do
      let value ← atField field readVarInt
      pure (.varInt value)
    | .varLong => do
      let value ← atField field readVarLong
      pure (.varLong value)
    | .string maxUtf16Units maxBytes => do
      let text ← atField field (readString ⟨maxUtf16Units, maxBytes⟩)
      pure (.string text)
    | .identifier maxUtf16Units maxBytes => do
      let text ← atField field (readString ⟨maxUtf16Units, maxBytes⟩)
      checkIdentifier field text
      pure (.identifier text)
    | .uuid => do
      let value ← atField field readUuid
      pure (.uuid value)
    | .position => do
      let value ← atField field readBlockPosition
      pure (.position value)
    | .byteArray maxBytes => do
      let bytes ← atField field (readByteArray maxBytes)
      pure (.bytes bytes)
    | .fixedBytes length => do
      let bytes ← atField field (readBytes length "generated fixed bytes")
      pure (.bytes bytes)
    | .bitSet maxWords maxBits => do
      let value ← atField field (readBitSet ⟨maxWords, maxBits⟩)
      pure (.bitSet value)
    | .list maxItems element => do
      let count ← readCount maxItems field
      let list ← Mut.repeatCall (decodeValue element [] field (depth + 1)) count
      pure (.list list)
    | .optional value => do
      let present ← atField field readBool
      if present then do
        let value ← decodeValue value [] field (depth + 1)
        pure (.optional (some value))
      else pure (.optional none)
    | .enum values => do
      let value ← atField field readVarInt
      if (values.lookup value).isNone then
        Mut.fail (.valueMismatch field "declared enum discriminant")
      else pure (.enum value)
    | .struct fields => do
      let values ← decodeFieldsFrom fields [] (depth + 1)
      pure (.struct values)
    | .conditional reference equals value => do
      let condition ← Mut.ofExcept (priorBool prior reference field)
      if condition = equals then decodeValue value [] field (depth + 1) else pure .absent
    | .nbt => do
      let value ← onReader (.nbt field) (decodeUnnamedNetworkRoot .default layout)
      pure (.nbt value)
    | .nbtTag => do
      let value ← onReader (.nbt field) (decodeUnnamedNetworkTag .default layout)
      pure (.nbtTag value)
    | .textComponent => do
      let value ← onReader (.nbt field) (decodeUnnamedNetworkTag .default layout)
      pure (.nbtTag value)
    | .remainingBytes maxBytes => do
      let r ← Mut.get
      if r.remaining > maxBytes then Mut.fail (.valueMismatch field "bounded remaining payload")
      else do
        let bytes ← atField field readRemaining
        pure (.bytes bytes)

/-- The loop of `decode_fields`, with the values so far. -/
def decodeFieldsFrom (fields : List PacketField) (values : List NamedPacketValue) (depth : Nat) :
    DecodeM (List NamedPacketValue) :=
  match fields with
  | [] => pure values
  | (name, codec) :: rest => do
    let value ← decodeValue codec values name (depth + 1)
    decodeFieldsFrom rest (values ++ [(name, value)]) depth
end

def decodeFields (fields : List PacketField) (depth : Nat) : DecodeM (List NamedPacketValue) :=
  decodeFieldsFrom layout fields [] depth

/-- The head of `encode_fields`, before its loop. -/
def checkCount (definitions values : Nat) (loop : EncodeM Unit) : EncodeM Unit :=
  if definitions ≠ values then Mut.fail (.valueMismatch "packet" "one ordered value per field")
  else loop

/-- The arms of `encode_value` without a codec inside, and the values that fit no arm. -/
def encodeScalar (codec : FieldCodec) (value : PacketValue) (field : String) : EncodeM Unit :=
  match codec, value with
  | .bool, .bool v => write (writeBool v)
  | .i8, .i8 v => write (writeI8 v)
  | .u8, .u8 v => write (writeU8 v)
  | .i16, .i16 v => write (writeI16 v)
  | .u16, .u16 v => write (writeU16 v)
  | .i32, .i32 v => write (writeI32 v)
  | .u32, .u32 v => write (writeU32 v)
  | .i64, .i64 v => write (writeI64 v)
  | .u64, .u64 v => write (writeU64 v)
  | .f32, .f32Bits v => write (writeU32 v)
  | .f64, .f64Bits v => write (writeU64 v)
  | .varInt, .varInt v => write (writeVarInt v)
  | .varLong, .varLong v => write (writeVarLong v)
  | .string maxUtf16Units maxBytes, .string v =>
    writeAtField field (writeString v ⟨maxUtf16Units, maxBytes⟩)
  | .identifier maxUtf16Units maxBytes, .identifier v => do
    checkIdentifier field v
    writeAtField field (writeString v ⟨maxUtf16Units, maxBytes⟩)
  | .uuid, .uuid v => write v.toList
  | .position, .position v => writeAtField field (writeBlockPosition v.x v.y v.z)
  | .byteArray maxBytes, .bytes v => writeAtField field (writeByteArray v maxBytes)
  | .fixedBytes length, .bytes v =>
    if v.length = length then write v
    else Mut.fail (.valueMismatch field (codecName codec))
  | .bitSet maxWords maxBits, .bitSet v => writeAtField field (v.encode ⟨maxWords, maxBits⟩)
  | .enum values, .enum v =>
    if (values.lookup v).isSome then write (writeVarInt v)
    else Mut.fail (.valueMismatch field (codecName codec))
  | .nbt, .nbt v => writeNbt field (encodeUnnamedNetworkRoot .default layout v)
  | .nbtTag, .nbtTag v => writeNbt field (encodeUnnamedNetworkTag .default layout v)
  | .textComponent, .nbtTag v => writeNbt field (encodeUnnamedNetworkTag .default layout v)
  | .remainingBytes maxBytes, .bytes v =>
    if v.length ≤ maxBytes then write v
    else Mut.fail (.valueMismatch field (codecName codec))
  | _, _ => Mut.fail (.valueMismatch field (codecName codec))

mutual
def encodeValue (codec : FieldCodec) (value : PacketValue) (prior : List NamedPacketValue)
    (field : String) (depth : Nat) : EncodeM Unit :=
  if depth > maxFieldNesting then Mut.fail (.invalidSchema "runtime field nesting exceeds the limit")
  else
    match codec, value with
    | .list maxItems element, .list v =>
      if v.length ≤ maxItems then do
        writeCount v.length field
        v.forM fun item => encodeValue element item [] field (depth + 1)
      else Mut.fail (.valueMismatch field (codecName codec))
    | .optional inner, .optional v => do
      write (writeBool v.isSome)
      match v with
      | some v => encodeValue inner v [] field (depth + 1)
      | none => pure ()
    | .struct fields, .struct v =>
      checkCount fields.length v.length (encodeFieldsFrom fields v v (depth + 1))
    | .conditional reference equals inner, .absent => do
      let condition ← Mut.ofExcept (priorBool prior reference field)
      if condition ≠ equals then pure ()
      else encodeValue inner .absent [] field (depth + 1)
    | .conditional reference equals inner, value => do
      let condition ← Mut.ofExcept (priorBool prior reference field)
      if condition = equals then encodeValue inner value [] field (depth + 1)
      else Mut.fail (.valueMismatch field (codecName codec))
    | codec, value => encodeScalar layout codec value field

/-- The loop of `encode_fields` over the rest of the values. -/
def encodeFieldsFrom (definitions : List PacketField) (rest values : List NamedPacketValue)
    (depth : Nat) : EncodeM Unit :=
  match definitions, rest with
  | (name, codec) :: definitions, value :: rest =>
    if name ≠ value.1 then Mut.fail (.valueMismatch value.1 "schema field name and order")
    else do
      encodeValue codec value.2 values name (depth + 1)
      encodeFieldsFrom definitions rest values depth
  | _, _ => pure ()
end

def encodeFields (definitions : List PacketField) (values : List NamedPacketValue) (depth : Nat) :
    EncodeM Unit :=
  checkCount definitions.length values.length (encodeFieldsFrom layout definitions values values depth)

end Layout

/-! ### The registry -/

abbrev IdKey := ProtocolState × PacketDirection × UInt32

abbrev IdentityKey := ProtocolState × PacketDirection × MinecraftIdentifier

/-- A map is its lookup. -/
structure PacketRegistry where
  artifact : PacketSchemaArtifact
  byId : IdKey → Option Nat
  byIdentity : IdentityKey → Option Nat

structure DecodedPacket where
  definition : PacketDefinition
  fields : List NamedPacketValue

/-- The insertions of a loop over the packets; a later one replaces an earlier one. -/
def indexBy {κ : Type} [DecidableEq κ] (key : PacketDefinition → κ) :
    List PacketDefinition → Nat → (κ → Option Nat) → κ → Option Nat
  | [], _, map => map
  | packet :: rest, index, map =>
    indexBy key rest (index + 1) fun k => if k = key packet then some index else map k

def ProtocolState.debug : ProtocolState → String
  | handshake => "Handshake"
  | status => "Status"
  | login => "Login"
  | configuration => "Configuration"
  | play => "Play"

def PacketDirection.debug : PacketDirection → String
  | serverbound => "Serverbound"
  | clientbound => "Clientbound"

namespace PacketRegistry

def new (artifact : PacketSchemaArtifact) : Except PacketSchemaError PacketRegistry := do
  validateArtifact artifact
  pure ⟨artifact,
    indexBy (fun packet => (packet.state, packet.direction, packet.id)) artifact.packets 0
      fun _ => none,
    indexBy (fun packet => (packet.state, packet.direction, packet.identity)) artifact.packets 0
      fun _ => none⟩

variable (registry : PacketRegistry)

/-- `&self.artifact.packets[*index]` -/
def definitionAt {σ : Type} : Option Nat → Mut σ PacketSchemaError (Option PacketDefinition)
  | none => pure none
  | some index => do
    let packet ← Mut.index registry.artifact.packets index
    pure (some packet)

def decodeFrom (layout : NbtLayout) (state : ProtocolState) (direction : PacketDirection)
    (id : UInt32) : DecodeM DecodedPacket := do
  let definition ← registry.definitionAt (registry.byId (state, direction, id))
  match definition with
  | none => Mut.fail (.unknownPacket state direction id)
  | some definition =>
    match definition.layout with
    | .unsupported _ => Mut.fail (.unsupportedPacket definition.identity)
    | .fields fields => do
      let decoded ← decodeFields layout fields 0
      let r ← Mut.get
      if r.remaining ≠ 0 then Mut.fail (.trailingBytes r.remaining)
      else pure ⟨definition, decoded⟩

def decode (layout : NbtLayout) (state : ProtocolState) (direction : PacketDirection) (id : UInt32)
    (payload : Bytes) : Outcome PacketSchemaError CodecReader DecodedPacket :=
  registry.decodeFrom layout state direction id (.new payload)

def encodeTo (layout : NbtLayout) (state : ProtocolState) (direction : PacketDirection)
    (identity : MinecraftIdentifier) (fields : List NamedPacketValue) : EncodeM Bytes := do
  let definition ← registry.definitionAt (registry.byIdentity (state, direction, identity))
  match definition with
  | none => Mut.fail (.invalidSchema ("unknown packet identity " ++ identity.text ++ " in " ++
      state.debug ++ "/" ++ direction.debug))
  | some definition =>
    match definition.layout with
    | .unsupported _ => Mut.fail (.unsupportedPacket definition.identity)
    | .fields definitions =>
      if definition.id.toNat > i32Max then
        Mut.fail (.invalidSchema "packet ID exceeds VarInt range")
      else do
        write (writeVarInt (.ofNat definition.id.toNat))
        encodeFields layout definitions fields 0
        Mut.get

/-- The writer starts empty. -/
def encode (layout : NbtLayout) (state : ProtocolState) (direction : PacketDirection)
    (identity : MinecraftIdentifier) (fields : List NamedPacketValue) :
    Outcome PacketSchemaError Bytes Bytes :=
  registry.encodeTo layout state direction identity fields []

end PacketRegistry
end Cubic.Schema
