import Cubic.Bootstrap.Clientbound
import Cubic.Codec.BitSet
import Cubic.Codec.Position
import Cubic.Nbt.Lookup
import Cubic.Play.BlockUpdate
import Cubic.Play.LevelChunk
import Cubic.Play.TextComponent
import Cubic.World.Arithmetic

/-! # The packets a server sends in Play (`decode_play_clientbound` of `bootstrap/v775.rs`) -/

namespace Cubic.Bootstrap

set_option autoImplicit false

open Chat (ProtocolUuid)
open World (F32 F64)

def maxPlayCustomPayloadBytes : Nat := 1024 * 1024
def maxChatUtf16Units : Nat := 256
def maxLastSeenMessages : Nat := 20
def playerChatSignatureBytes : Nat := 256
def maxKnownDimensions : Nat := 1024
def maxWorldClocks : Nat := 64

def chatLimits : StringLimits := ⟨maxChatUtf16Units, 768⟩
def resourceLocationLimits : StringLimits := ⟨256, 768⟩

/-! ### Fields -/

def readFloat : DecodeM F32 := do
  let bits ← wire readF32
  pure ⟨bits⟩

def readDouble : DecodeM F64 := do
  let bits ← wire readF64
  pure ⟨bits⟩

def readNonnegative (context : String) : DecodeM Int32 := do
  let value ← wire readVarInt
  if value < 0 then Mut.fail (.protocol (.negativeCount context value)) else pure value

def chunkPart {α : Type} (m : ChunkM α) : DecodeM α := Mut.mapErr .chunk m

def outOfRange (context : String) (value min max : Int) : PacketError :=
  .protocol (.codec (.valueOutOfRange context value min max))

/-! ### Spawning -/

structure GlobalPosition where
  dimension : String
  position : BlockPosition

structure SpawnInfo where
  dimensionTypeRawId : Int32
  dimension : String
  hashedSeed : Int64
  gameMode : Int8
  previousGameMode : UInt8
  debugWorld : Bool
  flatWorld : Bool
  lastDeathLocation : Option GlobalPosition
  portalCooldownTicks : Int32
  seaLevel : Int32

structure InitialPlayLogin where
  playerEntityId : Int32
  hardcore : Bool
  knownDimensions : List String
  maxPlayers : Int32
  viewDistance : Int32
  simulationDistance : Int32
  reducedDebugInfo : Bool
  showDeathScreen : Bool
  limitedCrafting : Bool
  spawn : SpawnInfo
  secureChatEnforced : Bool

structure Respawn where
  spawn : SpawnInfo
  dataToKeep : UInt8

structure DefaultSpawnPosition where
  position : GlobalPosition
  yaw : F32
  pitch : F32

def decodeGlobalPosition : DecodeM GlobalPosition := do
  let dimension ← wire (readString resourceLocationLimits)
  let position ← wire readBlockPosition
  pure ⟨dimension, position⟩

def decodeSpawnInfo : DecodeM SpawnInfo := do
  let dimensionTypeRawId ← wire readVarInt
  let dimension ← wire (readString resourceLocationLimits)
  let hashedSeed ← wire readI64
  let gameMode ← wire readI8
  let previousGameMode ← wire readU8
  let debugWorld ← wire readBool
  let flatWorld ← wire readBool
  let lastDeathLocation ← optional decodeGlobalPosition
  let portalCooldownTicks ← wire readVarInt
  let seaLevel ← wire readVarInt
  pure ⟨dimensionTypeRawId, dimension, hashedSeed, gameMode, previousGameMode, debugWorld,
    flatWorld, lastDeathLocation, portalCooldownTicks, seaLevel⟩

def decodeInitialPlayLogin : DecodeM InitialPlayLogin := do
  let playerEntityId ← wire readI32
  let hardcore ← wire readBool
  let dimensionCount ← counted "known dimension" maxKnownDimensions
  let knownDimensions ← Mut.repeatCall (wire (readString resourceLocationLimits)) dimensionCount
  let maxPlayers ← wire readVarInt
  let viewDistance ← wire readVarInt
  let simulationDistance ← wire readVarInt
  let reducedDebugInfo ← wire readBool
  let showDeathScreen ← wire readBool
  let limitedCrafting ← wire readBool
  let spawn ← decodeSpawnInfo
  let secureChatEnforced ← wire readBool
  consumed "initial Play Login"
  pure ⟨playerEntityId, hardcore, knownDimensions, maxPlayers, viewDistance, simulationDistance,
    reducedDebugInfo, showDeathScreen, limitedCrafting, spawn, secureChatEnforced⟩

def decodeRespawn : DecodeM Respawn := do
  let spawn ← decodeSpawnInfo
  let dataToKeep ← wire readU8
  consumed "Play Respawn"
  pure ⟨spawn, dataToKeep⟩

def decodeDefaultSpawnPosition : DecodeM DefaultSpawnPosition := do
  let position ← decodeGlobalPosition
  let yaw ← readFloat
  let pitch ← readFloat
  consumed "Set Default Spawn Position"
  pure ⟨position, yaw, pitch⟩

/-! ### Position, motion and abilities -/

structure PlayerPosition where
  teleportId : Int32
  x : F64
  y : F64
  z : F64
  deltaX : F64
  deltaY : F64
  deltaZ : F64
  yaw : F32
  pitch : F32
  relativeFlags : UInt32

structure PlayerRotation where
  yaw : F32
  relativeYaw : Bool
  pitch : F32
  relativePitch : Bool

structure PlayerAbilities where
  invulnerable : Bool
  flying : Bool
  mayFly : Bool
  instantBuild : Bool
  flyingSpeed : F32
  walkingSpeed : F32

structure EntityMotion where
  entityId : Int32
  deltaX : F64
  deltaY : F64
  deltaZ : F64

def decodePlayerPosition : DecodeM PlayerPosition := do
  let teleportId ← wire readVarInt
  let x ← readDouble
  let y ← readDouble
  let z ← readDouble
  let deltaX ← readDouble
  let deltaY ← readDouble
  let deltaZ ← readDouble
  let yaw ← readFloat
  let pitch ← readFloat
  let relativeFlags ← wire readU32
  if relativeFlags &&& ~~~0x01ff ≠ 0 then
    Mut.fail (outOfRange "Player Position relative flags" relativeFlags.toNat 0 0x01ff)
  else do
    consumed "Play Player Position"
    pure ⟨teleportId, x, y, z, deltaX, deltaY, deltaZ, yaw, pitch, relativeFlags⟩

def decodePlayerRotation : DecodeM PlayerRotation := do
  let yaw ← readFloat
  let relativeYaw ← wire readBool
  let pitch ← readFloat
  let relativePitch ← wire readBool
  consumed "Play Player Rotation"
  pure ⟨yaw, relativeYaw, pitch, relativePitch⟩

def decodePlayerAbilities : DecodeM PlayerAbilities := do
  let flags ← wire readU8
  if flags &&& ~~~0x0f ≠ 0 then Mut.fail (outOfRange "Player Abilities flags" flags.toNat 0 0x0f)
  else do
    let flyingSpeed ← readFloat
    let walkingSpeed ← readFloat
    if !flyingSpeed.isFinite || !walkingSpeed.isFinite then
      Mut.fail (.nonFinite "Player Abilities speed")
    else do
      consumed "Player Abilities"
      pure ⟨flags &&& 0x01 ≠ 0, flags &&& 0x02 ≠ 0, flags &&& 0x04 ≠ 0, flags &&& 0x08 ≠ 0,
        flyingSpeed, walkingSpeed⟩

/-- The number of a `u64` that a significand holds. -/
def doubleOfNat (n : Nat) : F64 := F64.nearest false n 0

/-- `a / b` of finite numbers, `b` not zero. The last bit of the dividend stands for what is left
over: it lies far below the bits that the rounding looks at. -/
def divide (a b : F64) : F64 :=
  let dividend := a.magnitude * 2 ^ 2400
  let left := if dividend % b.magnitude = 0 then 0 else 1
  F64.nearest (a.isNegative != b.isNegative) (2 * (dividend / b.magnitude) + left) 2401

def unpackMotion (packed : UInt64) (scale : Nat) (shift : UInt64) : F64 :=
  let value := min ((packed >>> shift) &&& 0x7fff).toNat 32766
  let part := divide (F64.mul (doubleOfNat value) (doubleOfNat 2)) (doubleOfNat 32766)
  F64.mul (F64.sub part F64.one) (doubleOfNat scale)

/-- The motion without the entity. -/
def decodeLowPrecisionVec3 : DecodeM (F64 × F64 × F64) := do
  let first ← wire readU8
  if first = 0 then pure (.zero, .zero, .zero)
  else do
    let second ← wire readU8
    let upper ← wire readU32
    let packed := upper.toUInt64 <<< 16 ||| second.toUInt64 <<< 8 ||| first.toUInt64
    let scale ←
      if first &&& 0x04 ≠ 0 then do
        let more ← wire readVarInt
        pure ((first &&& 0x03).toUInt64 ||| more.toUInt32.toUInt64 <<< 2)
      else pure (first &&& 0x03).toUInt64
    pure (unpackMotion packed scale.toNat 3, unpackMotion packed scale.toNat 18,
      unpackMotion packed scale.toNat 33)

def decodeEntityMotion : DecodeM EntityMotion := do
  let entityId ← wire readVarInt
  let delta ← decodeLowPrecisionVec3
  consumed "Set Entity Motion"
  pure ⟨entityId, delta.1, delta.2.1, delta.2.2⟩

/-! ### The world's time and border -/

structure WorldClock where
  clockTypeRawId : Int32
  totalTicks : Int64
  partialTick : F32
  rate : F32

structure WorldTime where
  gameTime : Int64
  clocks : List WorldClock

structure InitializeBorder where
  centerX : F64
  centerZ : F64
  oldDiameter : F64
  newDiameter : F64
  lerpMillis : Int64
  absoluteMaxSize : Int32
  warningBlocks : Int32
  warningSeconds : Int32

def decodeWorldClock : DecodeM WorldClock := do
  let clockTypeRawId ← wire readVarInt
  let totalTicks ← wire readVarLong
  let partialTick ← readFloat
  let rate ← readFloat
  pure ⟨clockTypeRawId, totalTicks, partialTick, rate⟩

def decodeWorldTime : DecodeM WorldTime := do
  let gameTime ← wire readI64
  let count ← counted "world clock" maxWorldClocks
  let clocks ← Mut.repeatCall decodeWorldClock count
  consumed "Set Time"
  pure ⟨gameTime, clocks⟩

def decodeInitializeBorder : DecodeM InitializeBorder := do
  let centerX ← readDouble
  let centerZ ← readDouble
  let oldDiameter ← readDouble
  let newDiameter ← readDouble
  let lerpMillis ← wire readVarLong
  let absoluteMaxSize ← wire readVarInt
  let warningBlocks ← wire readVarInt
  let warningSeconds ← wire readVarInt
  consumed "Initialize World Border"
  pure ⟨centerX, centerZ, oldDiameter, newDiameter, lerpMillis, absoluteMaxSize, warningBlocks,
    warningSeconds⟩

/-! ### Chat, block entities and metadata -/

structure PlayerChat where
  senderUuid : ProtocolUuid
  senderName : String
  signedContent : String
  unsignedContent : Option TextComponent
  message : TextComponent
  globalIndex : Int32
  senderIndex : Int32
  signature : Option Bytes
  modified : Bool

structure BlockEntityData where
  position : BlockPosition
  typeRawId : UInt32
  data : NbtCompound

/-- `NbtTag::String` -/
def stringTag (text : String) : NbtTag := ⟨.string (encodeUtf16 text), True.intro⟩

section Layout
variable (layout : NbtLayout)

def textComponent : DecodeM TextComponent := protocol (decodeTextComponent layout)

def decodeBoundChatType : DecodeM String := do
  let holder ← readNonnegative "Bound Chat Type holder"
  if holder = 0 then do
    let _inline ← textComponent layout
    pure ()
  else pure ()
  let sender ← textComponent layout
  let _target ← optional (textComponent layout)
  pure sender.plainText

def readLastSeenMessage : DecodeM Unit := do
  let cachedId ← wire readVarInt
  if cachedId = 0 then do
    let _signature ← wire (readBytes 256 "Player Chat last-seen signature")
    pure ()
  else if cachedId < 0 then
    Mut.fail (.protocol (.negativeCount "Player Chat cached signature ID" cachedId))
  else pure ()

def readFilterMask : DecodeM Unit := do
  let kind ← wire readVarInt
  if kind = 0 ∨ kind = 1 then pure ()
  else if kind = 2 then do
    let _mask ← wire (readBitSet ⟨4, maxChatUtf16Units⟩)
    pure ()
  else Mut.fail (outOfRange "Player Chat filter mask type" kind.toInt 0 2)

def decodePlayerChat : DecodeM PlayerChat := do
  let globalIndex ← wire readVarInt
  let senderUuid ← wire Schema.readUuid
  let senderIndex ← wire readVarInt
  let signature ← optional (wire (readBytes playerChatSignatureBytes "Player Chat signature"))
  let content ← wire (readString chatLimits)
  let _timestamp ← wire readI64
  let _salt ← wire readI64
  let lastSeen ← counted "Player Chat last-seen messages" maxLastSeenMessages
  let _messages ← Mut.repeatCall readLastSeenMessage lastSeen
  let unsigned ← optional (textComponent layout)
  readFilterMask
  let senderName ← decodeBoundChatType layout
  consumed "Player Chat"
  pure ⟨senderUuid, senderName, content, unsigned, unsigned.getD ⟨stringTag content, content⟩,
    globalIndex, senderIndex, signature, unsigned.isSome⟩

def decodeBlockEntityData : DecodeM BlockEntityData := do
  let position ← wire readBlockPosition
  let value ← wire readVarInt
  let typeRawId ← protocol
    (Mut.ofExcept (nonnegativeU32 value "Block Entity Data type registry ID"))
  let tag ← nbtTag .default layout
  let data : NbtCompound ← match h : tag.val with
    | .compound entries => pure ⟨entries, by have hvalid := tag.property; rw [h] at hvalid; exact hvalid⟩
    | _ => Mut.fail .invalidBlockEntityNbt
  consumed "Block Entity Data"
  pure ⟨position, typeRawId, data⟩

/-- `decode_standalone_air_supply` on a reader of the metadata. -/
def readAirSupply : DecodeM (Option Int32) := do
  let r ← Mut.get
  if r.remaining = 0 then pure none
  else do
    let index ← wire readU8
    if index ≠ 1 then pure none
    else do
      let serializer ← wire readVarInt
      if serializer ≠ 1 then pure none
      else do
        let value ← wire readVarInt
        pure (some value)

/-! ### The packet -/

inductive PlayClientbound where
  | blockChangedAck (sequence : Int32)
  | blockEntityData (data : BlockEntityData)
  | login (login : InitialPlayLogin)
  | keepAlive (id : Int64)
  | ping (id : Int32)
  | playerPosition (position : PlayerPosition)
  | playerRotation (rotation : PlayerRotation)
  | playerAbilities (abilities : PlayerAbilities)
  | setEntityMotion (motion : EntityMotion)
  | respawn (respawn : Respawn)
  | setDefaultSpawnPosition (position : DefaultSpawnPosition)
  | setTime (time : WorldTime)
  | changeDifficulty (difficulty : Int32) (locked : Bool)
  | gameEvent (event : UInt8) (value : F32)
  | entityEvent (entityId : Int32) (event : UInt8)
  | initializeBorder (border : InitializeBorder)
  | chunkBatchFinished (chunks : Int32)
  | chunkBatchStart
  | levelChunkWithLight (chunk : LevelChunkWithLight)
  | forgetLevelChunk (x z : Int32)
  | lightUpdate (update : LightUpdate)
  | blockUpdate (update : BlockUpdate)
  | sectionBlocksUpdate (update : SectionBlocksUpdate)
  | cookieRequest (key : String)
  | customPayload (channel : String) (payloadBytes : Nat)
  | playerChat (chat : PlayerChat)
  | disguisedChat (senderName : String) (message : TextComponent)
  | systemChat (message : TextComponent) (overlay : Bool)
  | disconnect (reason : TextComponent)
  | health (health : F32)
  | entityData (entityId : Int32) (airSupply : Option Int32) (payloadBytes : Nat)
  | startConfiguration
  | resourcePackPush
  | transfer
  | ignored (packetId : Int32) (payloadBytes : Nat)

/-- A packet of one field. -/
def decodeField {α : Type} (m : DecodeM α) (context : String) (packet : α → PlayClientbound) :
    DecodeM PlayClientbound := do
  let value ← m
  consumed context
  pure (packet value)

def decodeWhole {α : Type} (m : DecodeM α) (packet : α → PlayClientbound) :
    DecodeM PlayClientbound := do
  let value ← m
  pure (packet value)

def decodeForgetLevelChunk : DecodeM PlayClientbound := do
  let packed ← wire readU64
  consumed "Forget Level Chunk"
  pure (.forgetLevelChunk packed.toUInt32.toInt32 (packed >>> 32).toUInt32.toInt32)

def decodeChangeDifficulty : DecodeM PlayClientbound := do
  let difficulty ← wire readVarInt
  let locked ← wire readBool
  consumed "Change Difficulty"
  pure (.changeDifficulty difficulty locked)

def decodeGameEvent : DecodeM PlayClientbound := do
  let event ← wire readU8
  let value ← readFloat
  consumed "Game Event"
  pure (.gameEvent event value)

def decodeEntityEvent : DecodeM PlayClientbound := do
  let entityId ← wire readI32
  let event ← wire readU8
  consumed "Entity Event"
  pure (.entityEvent entityId event)

def decodeSystemChat : DecodeM PlayClientbound := do
  let message ← textComponent layout
  let overlay ← wire readBool
  consumed "System Chat"
  pure (.systemChat message overlay)

def decodeDisguisedChat : DecodeM PlayClientbound := do
  let message ← textComponent layout
  let senderName ← decodeBoundChatType layout
  consumed "Disguised Chat"
  pure (.disguisedChat senderName message)

def decodeSetHealth : DecodeM PlayClientbound := do
  let health ← readFloat
  if !health.isFinite then Mut.fail (.nonFinite "Set Health value")
  else do
    let _food ← wire readVarInt
    let _saturation ← wire readF32
    consumed "Set Health"
    pure (.health health)

def decodeSetEntityData : DecodeM PlayClientbound := do
  let entityId ← wire readVarInt
  let metadata ← wire readRemaining
  match readAirSupply (.new metadata) with
  | .ok airSupply _ => pure (.entityData entityId airSupply metadata.length)
  | .err e _ => Mut.fail e
  | .panic => Mut.fault

def decodePlayCustomPayload : DecodeM PlayClientbound := do
  let payload ← decodeChannelPayload "Play Custom Payload" maxPlayCustomPayloadBytes
  pure (.customPayload payload.1 payload.2.length)

/-- The arms of the match over the packet's identifier. -/
def playDecoders : List (Int32 × DecodeM PlayClientbound) := [
  (0x04, decodeField (readNonnegative "Block Changed Ack sequence") "Block Changed Ack"
    .blockChangedAck),
  (0x06, decodeWhole (decodeBlockEntityData layout) .blockEntityData),
  (0x31, decodeWhole decodeInitialPlayLogin .login),
  (0x0a, decodeChangeDifficulty),
  (0x2c, decodeField (wire readI64) "Play Keep Alive" .keepAlive),
  (0x3d, decodeField (wire readI32) "Play Ping" .ping),
  (0x48, decodeWhole decodePlayerPosition .playerPosition),
  (0x49, decodeWhole decodePlayerRotation .playerRotation),
  (0x40, decodeWhole decodePlayerAbilities .playerAbilities),
  (0x65, decodeWhole decodeEntityMotion .setEntityMotion),
  (0x52, decodeWhole decodeRespawn .respawn),
  (0x61, decodeWhole decodeDefaultSpawnPosition .setDefaultSpawnPosition),
  (0x71, decodeWhole decodeWorldTime .setTime),
  (0x26, decodeGameEvent),
  (0x22, decodeEntityEvent),
  (0x2b, decodeWhole decodeInitializeBorder .initializeBorder),
  (0x0b, decodeField (readNonnegative "Play chunk batch") "Play Chunk Batch Finished"
    .chunkBatchFinished),
  (0x0c, decodeField (pure ()) "Play Chunk Batch Start" fun _ => .chunkBatchStart),
  (0x25, decodeForgetLevelChunk),
  (0x2d, decodeField (chunkPart (Chunk.decodeLevelChunkWithLight layout)) "Level Chunk With Light"
    .levelChunkWithLight),
  (0x30, decodeField (chunkPart Chunk.decodeLightUpdate) "Light Update" .lightUpdate),
  (0x08, decodeWhole (protocol decodeBlockUpdate) .blockUpdate),
  (0x54, decodeWhole (protocol decodeSectionBlocksUpdate) .sectionBlocksUpdate),
  (0x15, decodeWhole (decodeKey "Play Cookie Request") .cookieRequest),
  (0x18, decodePlayCustomPayload),
  (0x79, decodeSystemChat layout),
  (0x21, decodeDisguisedChat layout),
  (0x41, decodeWhole (decodePlayerChat layout) .playerChat),
  (0x20, decodeField (textComponent layout) "Play Disconnect" .disconnect),
  (0x68, decodeSetHealth),
  (0x63, decodeSetEntityData),
  (0x76, decodeField (pure ()) "Start Configuration" fun _ => .startConfiguration),
  (0x51, pure .resourcePackPush),
  (0x81, pure .transfer)]

def decodePlayPayload (id : Int32) : DecodeM PlayClientbound :=
  match (playDecoders layout).lookup id with
  | some decode => decode
  | none => do
    let r ← Mut.get
    pure (.ignored id r.remaining)

def decodePlayClientbound (frameBody : Bytes) : Decoded PlayClientbound :=
  decodeFrame frameBody (decodePlayPayload layout)

end Layout

end Cubic.Bootstrap
