import Cubic.Bootstrap.Clientbound

/-! # The packets that are written until Play is reached (`handshake.rs`, `bootstrap/v775.rs`) -/

namespace Cubic.Bootstrap

set_option autoImplicit false

open Chat (ProtocolUuid)

def maxBootstrapFrameSize : Nat := minecraftMaxFrameSize

def frame (writer : Bytes) : Except CodecError Bytes := encodeFrame writer maxBootstrapFrameSize

def packetWithoutPayload (packetId : Int32) : Except CodecError Bytes := frame (writeVarInt packetId)

def encodeEmptyCookieResponse (packetId : Int32) (key : String) : Except CodecError Bytes := do
  let key ← writeString key identifierLimits
  frame (writeVarInt packetId ++ (key ++ writeBool false))

inductive HandshakeNextState where
  | status
  | login
  deriving DecidableEq

def HandshakeNextState.value : HandshakeNextState → Int32
  | status => 1
  | login => 2

structure Handshake where
  protocolVersion : Int32
  serverAddress : String
  serverPort : UInt16
  nextState : HandshakeNextState
  deriving DecidableEq

def handshakeHostLimits : StringLimits := ⟨255, 255 * 3⟩

def encodeHandshake (handshake : Handshake) : Except CodecError Bytes := do
  let host ← writeString handshake.serverAddress handshakeHostLimits
  frame (writeVarInt 0 ++ (writeVarInt handshake.protocolVersion ++
    (host ++ (writeU16 handshake.serverPort ++ writeVarInt handshake.nextState.value))))

/-! ### Login -/

def encodeLoginStart (username : String) (uuid : ProtocolUuid) : Except CodecError Bytes := do
  let username ← writeString username usernameLimits
  frame (writeVarInt 0x00 ++ (username ++ uuid.toList))

def encodeEncryptionResponse (encryptedSecret encryptedVerifyToken : Bytes) :
    Except CodecError Bytes := do
  let secret ← writeByteArray encryptedSecret (4 * 1024)
  let token ← writeByteArray encryptedVerifyToken (4 * 1024)
  frame (writeVarInt 0x01 ++ (secret ++ token))

def encodeLoginPluginResponse (transactionId : Int32) : Except CodecError Bytes :=
  frame (writeVarInt 0x02 ++ (writeVarInt transactionId ++ writeBool false))

def encodeLoginAcknowledged : Except CodecError Bytes := packetWithoutPayload 0x03

def encodeLoginCookieResponse (key : String) : Except CodecError Bytes :=
  encodeEmptyCookieResponse 0x04 key

/-! ### Configuration -/

structure ClientInformation where
  locale : String
  viewDistance : Int8
  chatMode : Int32
  chatColors : Bool
  displayedSkinParts : UInt8
  mainHand : Int32
  textFiltering : Bool
  allowsServerListing : Bool
  particleStatus : Int32
  deriving DecidableEq

def ClientInformation.default : ClientInformation where
  locale := "en_us"
  viewDistance := 8
  chatMode := 0
  chatColors := true
  displayedSkinParts := 0x7f
  mainHand := 1
  textFiltering := false
  allowsServerListing := true
  particleStatus := 0

def localeLimits : StringLimits := ⟨16, 48⟩

def writeClientInformationFields (information : ClientInformation) : Except CodecError Bytes := do
  let locale ← writeString information.locale localeLimits
  pure (locale ++ (writeI8 information.viewDistance ++ (writeVarInt information.chatMode ++
    (writeBool information.chatColors ++ (writeU8 information.displayedSkinParts ++
      (writeVarInt information.mainHand ++ (writeBool information.textFiltering ++
        (writeBool information.allowsServerListing ++
          writeVarInt information.particleStatus))))))))

def encodeClientInformation (information : ClientInformation) : Except CodecError Bytes := do
  let fields ← writeClientInformationFields information
  frame (writeVarInt 0x00 ++ fields)

def encodeConfigurationCookieResponse (key : String) : Except CodecError Bytes :=
  encodeEmptyCookieResponse 0x01 key

def encodeFinishConfiguration : Except CodecError Bytes := packetWithoutPayload 0x03

def encodeConfigurationKeepAlive (id : Int64) : Except CodecError Bytes :=
  frame (writeVarInt 0x04 ++ writeI64 id)

def encodeConfigurationPong (id : Int32) : Except CodecError Bytes :=
  frame (writeVarInt 0x05 ++ writeI32 id)

def encodeKnownPacksResponseEmpty : Except CodecError Bytes :=
  frame (writeVarInt 0x07 ++ writeVarInt 0)

/-! ### Play -/

def encodePlayTeleportConfirmation (teleportId : Int32) : Except CodecError Bytes :=
  frame (writeVarInt 0x00 ++ writeVarInt teleportId)

/-- The bits of the number. -/
def encodePlayChunkBatchReceived (desiredChunksPerTick : UInt32) : Except CodecError Bytes :=
  frame (writeVarInt 0x0b ++ writeF32 desiredChunksPerTick)

def encodePlayAcknowledgeConfiguration : Except CodecError Bytes := packetWithoutPayload 0x10

def encodePlayCookieResponse (key : String) : Except CodecError Bytes :=
  encodeEmptyCookieResponse 0x15 key

def encodePlayKeepAlive (id : Int64) : Except CodecError Bytes :=
  frame (writeVarInt 0x1c ++ writeI64 id)

def encodePlayPlayerLoaded : Except CodecError Bytes := packetWithoutPayload 0x2c

def encodePlayPong (id : Int32) : Except CodecError Bytes := frame (writeVarInt 0x2d ++ writeI32 id)

/-! ### Any of them -/

inductive ClientPacket where
  | handshake (intention : Handshake)
  | loginStart (username : String) (uuid : ProtocolUuid)
  | encryptionResponse (encryptedSecret encryptedVerifyToken : Bytes)
  | loginPluginResponse (transactionId : Int32)
  | loginAcknowledged
  | loginCookieResponse (key : String)
  | clientInformation (information : ClientInformation)
  | configurationCookieResponse (key : String)
  | finishConfiguration
  | configurationKeepAlive (id : Int64)
  | configurationPong (id : Int32)
  | knownPacksResponseEmpty
  | playTeleportConfirmation (teleportId : Int32)
  | playChunkBatchReceived (desiredChunksPerTick : UInt32)
  | playAcknowledgeConfiguration
  | playCookieResponse (key : String)
  | playKeepAlive (id : Int64)
  | playPlayerLoaded
  | playPong (id : Int32)
  deriving DecidableEq

def ClientPacket.encode : ClientPacket → Except CodecError Bytes
  | handshake intention => encodeHandshake intention
  | loginStart username uuid => encodeLoginStart username uuid
  | encryptionResponse secret token => encodeEncryptionResponse secret token
  | loginPluginResponse transactionId => encodeLoginPluginResponse transactionId
  | loginAcknowledged => encodeLoginAcknowledged
  | loginCookieResponse key => encodeLoginCookieResponse key
  | clientInformation information => encodeClientInformation information
  | configurationCookieResponse key => encodeConfigurationCookieResponse key
  | finishConfiguration => encodeFinishConfiguration
  | configurationKeepAlive id => encodeConfigurationKeepAlive id
  | configurationPong id => encodeConfigurationPong id
  | knownPacksResponseEmpty => encodeKnownPacksResponseEmpty
  | playTeleportConfirmation teleportId => encodePlayTeleportConfirmation teleportId
  | playChunkBatchReceived desired => encodePlayChunkBatchReceived desired
  | playAcknowledgeConfiguration => encodePlayAcknowledgeConfiguration
  | playCookieResponse key => encodePlayCookieResponse key
  | playKeepAlive id => encodePlayKeepAlive id
  | playPlayerLoaded => encodePlayPlayerLoaded
  | playPong id => encodePlayPong id

end Cubic.Bootstrap
