import Cubic.Codec.Frame
import Cubic.Nbt.Decode
import Cubic.Play.ChunkSection
import Cubic.Play.Protocol
import Cubic.Schema.Registry

/-! # The packets a server sends in Login and Configuration (`bootstrap/v775.rs`) -/

namespace Cubic.Bootstrap

set_option autoImplicit false

open Chat (ProtocolUuid)

/-- `BootstrapProtocolError`, with the variants that its part for the Play packets lacks. -/
inductive PacketError where
  | protocol (e : BootstrapProtocolError)
  | chunk (e : ChunkDecodeError)
  | invalidBlockEntityNbt
  | unexpectedPacketId (state : String) (id : Int32)
  | nonFinite (context : String)
  deriving DecidableEq

abbrev DecodeM := Mut CodecReader PacketError

def protocol {α : Type} (m : PlayM α) : DecodeM α := Mut.mapErr .protocol m

def wire {α : Type} (m : ReaderM α) : DecodeM α := protocol (codec m)

def consumed (context : String) : DecodeM Unit := protocol (requireConsumed context)

def counted (context : String) (max : Nat) : DecodeM Nat := protocol (readCount context max)

def nbtTag (limits : NbtLimits) (layout : NbtLayout) : DecodeM NbtTag :=
  onReader (fun e => .protocol (.nbt e)) (decodeUnnamedNetworkTag limits layout)

def checkPayload (context : String) (payload : Bytes) (max : Nat) : DecodeM Unit :=
  if payload.length > max then
    Mut.fail (.protocol (.payloadTooLarge context payload.length max))
  else pure ()

/-- A read behind a flag. -/
def optional {α : Type} (m : DecodeM α) : DecodeM (Option α) := do
  let present ← wire readBool
  if present then do
    let value ← m
    pure (some value)
  else pure none

/-! ### Limits -/

def maxLoginProperties : Nat := 64
def maxLoginPluginPayloadBytes : Nat := 1024 * 1024
def maxConfigurationCustomPayloadBytes : Nat := 1024 * 1024
def maxConfigurationRegistryEntries : Nat := 4096
def maxConfigurationBufferedBytes : Nat := 4 * 1024 * 1024
def maxDisconnectBytes : Nat := 32 * 1024
def maxKnownPacks : Nat := 64
def maxUsernameUtf16Units : Nat := 16

def usernameLimits : StringLimits := ⟨maxUsernameUtf16Units, 48⟩
def identifierLimits : StringLimits := ⟨32767, 32767⟩
def disconnectLimits : StringLimits := ⟨maxDisconnectBytes, maxDisconnectBytes⟩
def propertyNameLimits : StringLimits := ⟨64, 192⟩
def propertyValueLimits : StringLimits := ⟨16384, 49152⟩
def knownPackNamespaceLimits : StringLimits := ⟨64, 192⟩
def knownPackIdLimits : StringLimits := ⟨256, 768⟩
def knownPackVersionLimits : StringLimits := ⟨128, 384⟩

/-! ### Login -/

structure EncryptionRequest where
  serverId : String
  publicKeyDer : Bytes
  verifyToken : Bytes
  shouldAuthenticate : Bool

structure GameProfileProperty where
  name : String
  value : String
  signature : Option String

structure LoginSuccess where
  uuid : ProtocolUuid
  username : String
  properties : List GameProfileProperty

inductive LoginClientbound where
  | disconnect (reasonJson : String)
  | encryptionRequest (request : EncryptionRequest)
  | success (success : LoginSuccess)
  | setCompression (threshold : Int32)
  | pluginRequest (transactionId : Int32) (channel : String) (payload : Bytes)
  | cookieRequest (key : String)

def decodeGameProfileProperty : DecodeM GameProfileProperty := do
  let name ← wire (readString propertyNameLimits)
  let value ← wire (readString propertyValueLimits)
  let signature ← optional (wire (readString propertyValueLimits))
  pure ⟨name, value, signature⟩

def decodeLoginSuccess : DecodeM LoginSuccess := do
  let uuid ← wire Schema.readUuid
  let username ← wire (readString usernameLimits)
  let count ← counted "Game Profile properties" maxLoginProperties
  let properties ← Mut.repeatCall decodeGameProfileProperty count
  consumed "Login Success"
  pure ⟨uuid, username, properties⟩

def decodeEncryptionRequest : DecodeM EncryptionRequest := do
  let serverId ← wire (readString ⟨20, 60⟩)
  let publicKeyDer ← wire (readByteArray (4 * 1024))
  let verifyToken ← wire (readByteArray 64)
  let shouldAuthenticate ← wire readBool
  consumed "Encryption Request"
  pure ⟨serverId, publicKeyDer, verifyToken, shouldAuthenticate⟩

/-- A channel and what is left of the packet. -/
def decodeChannelPayload (context : String) (max : Nat) : DecodeM (String × Bytes) := do
  let channel ← wire (readString identifierLimits)
  let payload ← wire readRemaining
  checkPayload context payload max
  pure (channel, payload)

def decodeKey (context : String) : DecodeM String := do
  let key ← wire (readString identifierLimits)
  consumed context
  pure key

/-- The match over the packet's identifier, on a reader of the payload. -/
def decodeLoginPayload (id : Int32) : DecodeM LoginClientbound := do
  if id = 0x00 then do
    let reasonJson ← wire (readString disconnectLimits)
    consumed "Login Disconnect"
    pure (.disconnect reasonJson)
  else if id = 0x01 then do
    let request ← decodeEncryptionRequest
    pure (.encryptionRequest request)
  else if id = 0x02 then do
    let success ← decodeLoginSuccess
    pure (.success success)
  else if id = 0x03 then do
    let threshold ← wire readVarInt
    consumed "Set Compression"
    pure (.setCompression threshold)
  else if id = 0x04 then do
    let transactionId ← wire readVarInt
    let request ← decodeChannelPayload "Login Plugin Request" maxLoginPluginPayloadBytes
    pure (.pluginRequest transactionId request.1 request.2)
  else if id = 0x05 then do
    let key ← decodeKey "Login Cookie Request"
    pure (.cookieRequest key)
  else Mut.fail (.unexpectedPacketId "Login" id)

/-- What a decoder gives for a frame; none is a panic. -/
abbrev Decoded (α : Type) := Option (Except PacketError α)

/-- `split_raw_packet`, and a decoder of the payload. -/
def decodeFrame {α : Type} (frameBody : Bytes) (decode : Int32 → DecodeM α) : Decoded α :=
  match splitRawPacket frameBody with
  | .error e => some (.error (.protocol (.codec e)))
  | .ok packet => (decode packet.id (.new packet.payload)).result?

def decodeLoginClientbound (frameBody : Bytes) : Decoded LoginClientbound :=
  decodeFrame frameBody decodeLoginPayload

/-! ### Configuration -/

structure KnownPack where
  ns : String
  id : String
  version : String

structure ConfigurationRegistryEntry where
  identifier : String
  data : Option NbtTag

inductive SkippedConfigurationPacket where
  | resetChat
  | resourcePackPop
  | storeCookie
  | enabledFeatures
  | updateTags
  | reportDetails
  | serverLinks
  | clearDialog
  | showDialog
  deriving DecidableEq

inductive ConfigurationClientbound where
  | cookieRequest (key : String)
  | customPayload (channel : String) (payload : Bytes)
  | disconnect (reason : NbtCompound)
  | finish
  | keepAlive (id : Int64)
  | ping (id : Int32)
  | registryData (registry : String) (entries : List ConfigurationRegistryEntry)
  | knownPacks (packs : List KnownPack)
  | resourcePackPush
  | transfer
  | codeOfConduct
  | skipped (packet : SkippedConfigurationPacket) (payloadBytes : Nat)

def decodeEmptySkipped (packet : SkippedConfigurationPacket) (context : String) :
    DecodeM ConfigurationClientbound := do
  consumed context
  pure (.skipped packet 0)

/-- A packet whose payload is not looked at. -/
def skipPayload (packet : SkippedConfigurationPacket) : DecodeM ConfigurationClientbound := do
  let r ← Mut.get
  pure (.skipped packet r.remaining)

def decodeKnownPack : DecodeM KnownPack := do
  let ns ← wire (readString knownPackNamespaceLimits)
  let id ← wire (readString knownPackIdLimits)
  let version ← wire (readString knownPackVersionLimits)
  pure ⟨ns, id, version⟩

def decodeKnownPacks : DecodeM ConfigurationClientbound := do
  let count ← counted "Known Packs" maxKnownPacks
  let packs ← Mut.repeatCall decodeKnownPack count
  consumed "Select Known Packs"
  pure (.knownPacks packs)

section Layout
variable (layout : NbtLayout)

def disconnectNbtLimits : NbtLimits where
  maxDepth := 16
  maxTotalTags := 1024
  maxCompoundEntries := 256
  maxListElements := 1024
  maxArrayElements := 4096
  stringEncodedBytes := 4096
  maxTotalAllocatedBytes := .ofNat maxDisconnectBytes

def decodeConfigurationDisconnect : DecodeM ConfigurationClientbound := do
  let r ← Mut.get
  checkPayload "Configuration Disconnect" r.rest maxDisconnectBytes
  match decodeUnnamedNetworkRootComplete disconnectNbtLimits layout r.rest with
  | .ok reason _ => pure (.disconnect reason)
  | .err e _ => Mut.fail (.protocol (.nbt e))
  | .panic => Mut.fault

def registryNbtLimits : NbtLimits :=
  { NbtLimits.default with
    maxTotalTags := 65536
    maxTotalAllocatedBytes := .ofNat maxConfigurationBufferedBytes }

def decodeRegistryEntry : DecodeM ConfigurationRegistryEntry := do
  let identifier ← wire (readString identifierLimits)
  let data ← optional (nbtTag registryNbtLimits layout)
  pure ⟨identifier, data⟩

def decodeConfigurationRegistryData : DecodeM ConfigurationClientbound := do
  let registry ← wire (readString identifierLimits)
  let count ← counted "Configuration Registry Data" maxConfigurationRegistryEntries
  let entries ← Mut.repeatCall (decodeRegistryEntry layout) count
  consumed "Configuration Registry Data"
  pure (.registryData registry entries)

def decodeConfigurationPayload (id : Int32) : DecodeM ConfigurationClientbound := do
  if id = 0x00 then do
    let key ← decodeKey "Configuration Cookie Request"
    pure (.cookieRequest key)
  else if id = 0x01 then do
    let payload ← decodeChannelPayload "Configuration Custom Payload"
      maxConfigurationCustomPayloadBytes
    pure (.customPayload payload.1 payload.2)
  else if id = 0x02 then decodeConfigurationDisconnect layout
  else if id = 0x03 then do
    consumed "Finish Configuration"
    pure .finish
  else if id = 0x04 then do
    let id ← wire readI64
    consumed "Configuration Keep Alive"
    pure (.keepAlive id)
  else if id = 0x05 then do
    let id ← wire readI32
    consumed "Configuration Ping"
    pure (.ping id)
  else if id = 0x06 then decodeEmptySkipped .resetChat "Reset Chat"
  else if id = 0x07 then decodeConfigurationRegistryData layout
  else if id = 0x08 then skipPayload .resourcePackPop
  else if id = 0x09 then pure .resourcePackPush
  else if id = 0x0a then skipPayload .storeCookie
  else if id = 0x0b then pure .transfer
  else if id = 0x0c then skipPayload .enabledFeatures
  else if id = 0x0d then skipPayload .updateTags
  else if id = 0x0e then decodeKnownPacks
  else if id = 0x0f then skipPayload .reportDetails
  else if id = 0x10 then skipPayload .serverLinks
  else if id = 0x11 then decodeEmptySkipped .clearDialog "Clear Dialog"
  else if id = 0x12 then skipPayload .showDialog
  else if id = 0x13 then pure .codeOfConduct
  else Mut.fail (.unexpectedPacketId "Configuration" id)

def decodeConfigurationClientbound (frameBody : Bytes) : Decoded ConfigurationClientbound :=
  decodeFrame frameBody (decodeConfigurationPayload layout)

end Layout

end Cubic.Bootstrap
