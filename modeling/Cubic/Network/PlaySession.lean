import Cubic.Lib.Frame
import Cubic.Lib.Run
import Cubic.World.ChunkAdapter
import Cubic.World.Float

/-!
# The Play session loop (`chat_session.rs`)

A frame passes three stages of dispatch: entities, inventory, and then the packets of the
world. The chunk packets among these leave before the arms of the last match. What handlers
do to the rest of the session is a parameter; packets carry what the loop itself reads.
-/

namespace Cubic.Network

open World Mut

set_option autoImplicit false

structure InitialRespawnRecovery where
  receivedChunk : Bool
  requested : Bool
  deriving DecidableEq

namespace InitialRespawnRecovery

def default : InitialRespawnRecovery := ⟨false, false⟩

def observeChunk (r : InitialRespawnRecovery) : InitialRespawnRecovery :=
  { r with receivedChunk := true }

def requestIfInitiallyDead (r : InitialRespawnRecovery) (health : F32) (worldMode : Bool) :
    Bool × InitialRespawnRecovery :=
  if health.le F32.zero && worldMode && !r.receivedChunk && !r.requested then
    (true, { r with requested := true })
  else (false, r)

end InitialRespawnRecovery

structure BlockEntityData where
  position : BlockPosition
  typeRawId : UInt32
  data : NbtCompound

inductive PlayClientbound where
  | blockChangedAck (sequence : Int32)
  | blockEntityData (update : BlockEntityData)
  | login
  | keepAlive (id : Int64)
  | ping (id : Int32)
  | playerPosition (teleportId : Int32)
  | playerRotation
  | playerAbilities
  | setEntityMotion
  | respawn
  | setDefaultSpawnPosition
  | setTime
  | changeDifficulty
  | gameEvent
  | entityEvent
  | initializeBorder
  | chunkBatchFinished
  | chunkBatchStart
  | levelChunkWithLight (chunk : LevelChunkWithLight)
  | forgetLevelChunk (x z : Int32)
  | lightUpdate (update : LightUpdate)
  | blockUpdate (update : BlockUpdate)
  | sectionBlocksUpdate (update : SectionBlocksUpdate)
  | cookieRequest (key : String)
  | customPayload
  | playerChat
  | disguisedChat
  | systemChat
  | disconnect
  | health (health : F32)
  | entityData
  | startConfiguration
  | resourcePackPush
  | transfer
  | ignored

/-- Any other entity event is one of `other`. -/
inductive EntityWireEvent where
  | spawn (id : Int32)
  | velocity (id : Int32)
  | other

inductive ChunkAdaptation where
  | load (chunk : Chunk)
  | unload (coordinate : ChunkCoordinate)
  | light (coordinate : ChunkCoordinate) (light : ChunkLightSummary)
  | blocks (updates : List BlockStateUpdate)
  | blockEntity (position : BlockCoordinates) (typeRawId : UInt32) (data : World.BlockEntityData)
  | other (packet : PlayClientbound)

/-- What the loop writes to the server. -/
inductive PlayWrite where
  | keepAlive (id : Int64)
  | pong (id : Int32)
  | teleportConfirmation (teleportId : Int32)
  | chunkBatchReceived
  | playerLoaded
  | cookieResponse (key : String)
  | chatAcknowledgement (count : Int32)
  | performRespawn
  | acknowledgeConfiguration
  | clientInformation
  | sessionUpdate

inductive SessionEvent where
  | handled (packet : PlayClientbound)
  | wrote (write : PlayWrite)

/-- How the loop ends. -/
inductive SessionEnd (E : Type) where
  | left
  | error (e : E)
  | adapter (e : WorldAdapterError)
  | unsupportedServerFeature (feature : String)

/-- The rest of the session, and what is done to it: the world, the inventory, the movement
controller, the chat security, the views. -/
structure SessionParts (σ E : Type) where
  playerEntityId : Int32
  /-- Nothing without the entity types. -/
  decodeEntityPacket : σ → Bytes → Except E (Option EntityWireEvent)
  applyEntityWireEvent : Bytes → σ → Except E σ
  /-- Whether the frame is one of the inventory, which none is without the item profile. -/
  decodeInventoryClientbound : σ → Bytes → Except E Bool
  applyInventoryPacket : Bytes → σ → Except E σ
  decodePlayClientbound : Bytes → Except E PlayClientbound
  applyChunk : ChunkAdaptation → σ → Except E σ
  /-- The world event of a packet that has one. -/
  applyWorldEvent : Bytes → σ → Except E σ
  /-- What an arm does beside its writes. -/
  react : Bytes → σ → Except E σ
  /-- The acknowledgement that is due after a player's message. -/
  acceptIncoming : Bytes → σ → Except E (σ × Option Int32)
  /-- Whether chat is authenticated. -/
  authenticated : σ → Bool
  serviceMovementTick : σ → Except E σ
  sendChat : String → σ → σ

/-- In World Mode there is a movement controller. -/
structure PlaySession (σ : Type) where
  worldMode : Bool
  recovery : InitialRespawnRecovery
  sentPlayerLoaded : Bool
  history : List SessionEvent
  ended : Bool
  rest : σ

inductive SessionInput where
  | frame (bytes : Bytes)
  | movementTick
  | sendMessage (message : String)
  | disconnect

def PlaySession.start {σ : Type} (worldMode : Bool) (rest : σ) : PlaySession σ :=
  ⟨worldMode, .default, false, [], false, rest⟩

section
variable {σ E : Type}

abbrev SessionM (σ E : Type) := Mut (PlaySession σ) (SessionEnd E)

def record (event : SessionEvent) : SessionM σ E Unit :=
  Mut.modify fun s => { s with history := s.history ++ [event] }

def write (w : PlayWrite) : SessionM σ E Unit := record (.wrote w)

/-- A handler's `?`. -/
def withRest {α : Type} (f : σ → Except E (σ × α)) : SessionM σ E α := do
  let s ← Mut.get
  let (rest, a) ← Mut.ofExcept ((f s.rest).mapError .error)
  Mut.modify fun s => { s with rest := rest }
  pure a

def onRest (f : σ → Except E σ) : SessionM σ E Unit :=
  withRest fun rest => (f rest).map fun rest => (rest, ())

/-- Which packets `play_world_event` has an event for. -/
def PlayClientbound.hasWorldEvent : PlayClientbound → Bool
  | playerPosition _ | playerRotation | respawn | setDefaultSpawnPosition | setTime
  | changeDifficulty | gameEvent | initializeBorder => true
  | _ => false

def adaptChunkPacket : PlayClientbound → SessionM σ E ChunkAdaptation
  | .levelChunkWithLight chunk => do
    let chunk ← Mut.ofExcept ((semanticChunk chunk).mapError .adapter)
    pure (.load chunk)
  | .forgetLevelChunk x z => pure (.unload ⟨x, z⟩)
  | .lightUpdate update => pure (.light ⟨update.x, update.z⟩ (semanticLight update.light))
  | .blockUpdate update => pure (.blocks (adaptBlockUpdate update))
  | .sectionBlocksUpdate update => do
    let updates ← Mut.ofOption (adaptSectionBlocksUpdate update)
    pure (.blocks updates)
  | .blockEntityData update => do
    let data ← Mut.ofExcept ((semanticBlockEntity update.data).mapError .adapter)
    pure (.blockEntity ⟨update.position.x, update.position.y, update.position.z⟩ update.typeRawId
      data)
  | packet => pure (.other packet)

variable (parts : SessionParts σ E)

/-- The arms of the last match. -/
def handlePacket (frame : Bytes) : PlayClientbound → SessionM σ E Unit
  | .keepAlive id => write (.keepAlive id)
  | .blockChangedAck _ | .playerRotation | .setEntityMotion | .playerAbilities | .entityEvent
  | .disguisedChat | .systemChat | .entityData => onRest (parts.react frame)
  | .ping id => write (.pong id)
  | .playerPosition teleportId => do
    write (.teleportConfirmation teleportId)
    onRest (parts.react frame)
  | .chunkBatchFinished => do
    write .chunkBatchReceived
    let s ← Mut.get
    if s.sentPlayerLoaded then pure ()
    else do
      write .playerLoaded
      Mut.modify fun s => { s with sentPlayerLoaded := true }
  | .levelChunkWithLight _ => Mut.modify fun s => { s with recovery := s.recovery.observeChunk }
  | .cookieRequest key => write (.cookieResponse key)
  | .playerChat => do
    let due ← withRest (parts.acceptIncoming frame)
    match due with
    | some count => write (.chatAcknowledgement count)
    | none => pure ()
  | .disconnect => do
    onRest (parts.react frame)
    Mut.fail .left
  | .health health => do
    let s ← Mut.get
    let (request, recovery) := s.recovery.requestIfInitiallyDead health s.worldMode
    Mut.modify fun s => { s with recovery := recovery }
    if request then write .performRespawn else pure ()
    onRest (parts.react frame)
  | .resourcePackPush => Mut.fail (.unsupportedServerFeature "resource-pack pushes")
  | .transfer => Mut.fail (.unsupportedServerFeature "transfers")
  | .startConfiguration => do
    write .acknowledgeConfiguration
    write .clientInformation
    onRest (parts.react frame)
    let s ← Mut.get
    if parts.authenticated s.rest then write .sessionUpdate else pure ()
  | _ => pure ()

/-- Whether the frame is used up. The player's own velocity is decoded once more as a packet. -/
def entityStage (frame : Bytes) : SessionM σ E Bool := do
  let s ← Mut.get
  let event ← Mut.ofExcept ((parts.decodeEntityPacket s.rest frame).mapError .error)
  match event with
  | none => pure false
  | some (.spawn id) =>
    if id = parts.playerEntityId then pure true
    else do
      onRest (parts.applyEntityWireEvent frame)
      pure true
  | some (.velocity id) =>
    if id = parts.playerEntityId then pure false
    else do
      onRest (parts.applyEntityWireEvent frame)
      pure true
  | some .other => do
    onRest (parts.applyEntityWireEvent frame)
    pure true

def inventoryStage (frame : Bytes) : SessionM σ E Bool := do
  let s ← Mut.get
  let known ← Mut.ofExcept ((parts.decodeInventoryClientbound s.rest frame).mapError .error)
  if known then do
    onRest (parts.applyInventoryPacket frame)
    pure true
  else pure false

/-- What becomes of a packet that is decoded. -/
def dispatchPacket (frame : Bytes) (packet : PlayClientbound) : SessionM σ E Unit := do
  record (.handled packet)
  let adapted ← adaptChunkPacket packet
  match adapted with
  | .other packet => do
    if packet.hasWorldEvent then onRest (parts.applyWorldEvent frame) else pure ()
    handlePacket parts frame packet
  | adapted => onRest (parts.applyChunk adapted)

def worldStage (frame : Bytes) : SessionM σ E Unit := do
  let packet ← Mut.ofExcept ((parts.decodePlayClientbound frame).mapError .error)
  dispatchPacket parts frame packet

def handleFrame (frame : Bytes) : SessionM σ E Unit := do
  let entity ← entityStage parts frame
  if entity then pure ()
  else do
    let inventory ← inventoryStage parts frame
    if inventory then pure () else worldStage parts frame

def handleInput : SessionInput → SessionM σ E Unit
  | .frame bytes => handleFrame parts bytes
  | .movementTick => do
    let s ← Mut.get
    if s.worldMode then onRest parts.serviceMovementTick else pure ()
  | .sendMessage message => onRest fun rest => .ok (parts.sendChat message rest)
  | .disconnect => Mut.fail .left

/-- One turn of the loop; an error or a panic ends it. -/
def PlaySession.next (s : PlaySession σ) (input : SessionInput) : Option (PlaySession σ) :=
  if s.ended then none
  else match handleInput parts input s with
    | .ok _ t => some t
    | .err _ t => some { t with ended := true }
    | .panic => none

end

end Cubic.Network
