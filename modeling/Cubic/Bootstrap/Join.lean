import Cubic.Bootstrap.PlayPackets
import Cubic.Bootstrap.Registries
import Cubic.Bootstrap.Serverbound
import Cubic.Lib.OrderedMap
import Cubic.Lib.Responder
import Cubic.Lib.Rounds
import Cubic.Network.ServerAddress

/-!
# Joining a server (`development_login`)

The connection is a parameter: a read gives the body of a frame or fails, a write goes through or
fails, and a timeout is a way to fail. What is read and written is kept as a history.
-/

namespace Cubic.Bootstrap

set_option autoImplicit false

open Chat (ProtocolUuid)
open World (RuntimeBiome RuntimeDimensionType)
open Network (ServerAddress)

def maxLoginPackets : Nat := 64
def maxConfigurationPackets : Nat := 2048
def maxPlayAcceptancePackets : Nat := 256
def maxReconfigurationsDuringAcceptance : Nat := 8
def maxErrorPreviewChars : Nat := 512
def protocolVersion : Int32 := 775

inductive ConnectionState where
  | handshake
  | login
  | configuration
  | play
  | closed
  deriving DecidableEq

def ConnectionState.name : ConnectionState → String
  | handshake => "Handshake"
  | login => "Login"
  | configuration => "Configuration"
  | play => "Play"
  | closed => "Closed"

inductive UnsupportedPhase7Feature where
  | encryption
  | compression
  | resourcePack
  | transfer
  | codeOfConduct
  deriving DecidableEq

/-- What the text of `ConfigurationData` is made of. -/
inductive ConfigurationDataError where
  | registry (e : RegistryError)
  | bannerPattern (identifier : String)
  | entityRegistry
  deriving DecidableEq

/-- `connection` stands for the errors that `map_connection_error` makes. -/
inductive DevelopmentLoginError (ε : Type) where
  | invalidUsername (reason : String)
  | connection (e : ε)
  | framing (e : CodecError)
  | protocol (e : PacketError)
  | configurationData (e : ConfigurationDataError)
  | serverDisconnect (state reason : String)
  | unsupportedForPhase7 (feature : UnsupportedPhase7Feature) (requiredSetting : String)
  | loginUsernameMismatch (expected received : String)
  | invalidLoginUuid
  | invalidStateTransition (source target : String)
  | packetLimitExceeded (state : String) (maxPackets : Nat)
  deriving DecidableEq

/-! ### The name of the player -/

def isUsernameByte (c : Char) : Bool := c.isAlphanum || c = '_'

def validateUsername (value : String) : Except String Unit :=
  if value.isEmpty then .error "the value is empty"
  else if value.utf8ByteSize > maxUsernameUtf16Units then
    .error "the value exceeds 16 ASCII characters"
  else if !value.toList.all isUsernameByte then
    .error "only ASCII letters, digits, and underscores are permitted"
  else .ok ()

structure DevelopmentUsername where
  text : String
  valid : validateUsername text = .ok ()

/-! ### The session -/

/-- A connection, and how its reads and writes end. -/
structure ConnectionOps (χ ε : Type) where
  readFrame : String → χ → Except ε Bytes × χ
  writeAll : Bytes → String → χ → Except ε Unit × χ

/-- A frame that arrives, or a packet that is handed to the connection. -/
abbrev JoinEvent := Exchange Bytes ClientPacket

structure Joining (χ : Type) where
  connection : χ
  state : ConnectionState
  history : List JoinEvent

abbrev JoinM (χ ε : Type) := Mut (Joining χ) (DevelopmentLoginError ε)

section Operations
variable {χ ε : Type} (ops : ConnectionOps χ ε)

def readFrame (phase : String) : JoinM χ ε Bytes := do
  let s ← Mut.get
  let read := ops.readFrame phase s.connection
  Mut.set { s with connection := read.2 }
  let frame ← Mut.ofExcept (read.1.mapError .connection)
  Mut.modify fun s => { s with history := s.history ++ [.received frame] }
  pure frame

def send (encodeError : CodecError → DevelopmentLoginError ε) (packet : ClientPacket)
    (operation : String) : JoinM χ ε Unit := do
  let bytes ← Mut.ofExcept (packet.encode.mapError encodeError)
  let s ← Mut.get
  let written := ops.writeAll bytes operation s.connection
  Mut.set { s with connection := written.2, history := s.history ++ [.wrote packet] }
  Mut.ofExcept (written.1.mapError .connection)

/-- A packet of the profile. -/
def write (packet : ClientPacket) (operation : String) : JoinM χ ε Unit :=
  send ops (fun e => .protocol (.protocol (.codec e))) packet operation

/-- The `?` behind a decoder. -/
def decoded {α : Type} : Decoded α → JoinM χ ε α
  | some (.ok packet) => pure packet
  | some (.error e) => Mut.fail (.protocol e)
  | none => Mut.fault

def transition (expected next : ConnectionState) : JoinM χ ε Unit := do
  let s ← Mut.get
  if s.state ≠ expected then Mut.fail (.invalidStateTransition s.state.name next.name)
  else Mut.set { s with state := next }

def boundedPreview (value : String) : String :=
  let preview := value.toList.take maxErrorPreviewChars
  if value.length > maxErrorPreviewChars then .ofList (preview ++ ['…']) else .ofList preview

def disconnected {α : Type} (reason : String) : JoinM χ ε α := do
  let s ← Mut.get
  Mut.fail (.serverDisconnect s.state.name (boundedPreview reason))

def unsupported {α : Type} (feature : UnsupportedPhase7Feature) (requiredSetting : String) :
    JoinM χ ε α := Mut.fail (.unsupportedForPhase7 feature requiredSetting)

def packetLimitExceeded {α : Type} (maxPackets : Nat) : JoinM χ ε α := do
  let s ← Mut.get
  Mut.fail (.packetLimitExceeded s.state.name maxPackets)

/-! ### Login -/

def acknowledgeLogin : JoinM χ ε Unit := do
  write ops .loginAcknowledged "Login Acknowledged write"
  transition .login .configuration
  write ops (.clientInformation .default) "Client Information write"

def answerLogin (username : DevelopmentUsername) :
    LoginClientbound → JoinM χ ε (Unit ⊕ ProtocolUuid)
  | .disconnect reasonJson => disconnected reasonJson
  | .encryptionRequest _ => unsupported .encryption "online-mode=false"
  | .setCompression _ => unsupported .compression "network-compression-threshold=-1"
  | .pluginRequest transactionId _ _ => do
    write ops (.loginPluginResponse transactionId) "Login Plugin Response write"
    pure (.inl ())
  | .cookieRequest key => do
    write ops (.loginCookieResponse key) "Login Cookie Response write"
    pure (.inl ())
  | .success success =>
    if success.username ≠ username.text then
      Mut.fail (.loginUsernameMismatch username.text success.username)
    else if success.uuid = .replicate 16 0 then Mut.fail .invalidLoginUuid
    else do
      acknowledgeLogin ops
      pure (.inr success.uuid)

/-- One round of `run_login`. -/
def loginTurn (username : DevelopmentUsername) (_ : Unit) : JoinM χ ε (Unit ⊕ ProtocolUuid) := do
  let frame ← readFrame ops "Login packet read"
  let packet ← decoded (decodeLoginClientbound frame)
  answerLogin ops username packet

def runLogin (username : DevelopmentUsername) : JoinM χ ε ProtocolUuid :=
  rounds (loginTurn ops username) (packetLimitExceeded maxLoginPackets) maxLoginPackets ()

end Operations

/-! ### The registries -/

structure ConfigurationPhaseOutcome where
  skippedPackets : Nat
  dimensionTypes : List RuntimeDimensionType
  biomes : List RuntimeBiome
  bannerPatterns : List MinecraftIdentifier
  entityRegistries : OrderedMap String (List MinecraftIdentifier)

def ConfigurationPhaseOutcome.empty : ConfigurationPhaseOutcome := ⟨0, [], [], [], .empty⟩

def ConfigurationPhaseOutcome.skip (phase : ConfigurationPhaseOutcome) :
    ConfigurationPhaseOutcome :=
  { phase with skippedPackets := saturatingAdd phase.skippedPackets 1 }

def entityRegistryNames : List String := ["minecraft:cat_variant", "minecraft:cat_sound_variant",
  "minecraft:chicken_variant", "minecraft:chicken_sound_variant", "minecraft:cow_variant",
  "minecraft:cow_sound_variant", "minecraft:wolf_variant", "minecraft:wolf_sound_variant",
  "minecraft:frog_variant", "minecraft:pig_variant", "minecraft:pig_sound_variant",
  "minecraft:zombie_nautilus_variant", "minecraft:painting_variant", "minecraft:villager_type",
  "minecraft:villager_profession"]

/-- The identifiers of the entries; the error says which is invalid. -/
def entryIdentifiers (invalid : String → ConfigurationDataError)
    (entries : List ConfigurationRegistryEntry) :
    Except ConfigurationDataError (List MinecraftIdentifier) :=
  entries.mapM fun entry =>
    (MinecraftIdentifier.new entry.identifier).mapError fun _ => invalid entry.identifier

/-- The arm of the registry data. -/
def collectRegistry (registry : String) (entries : List ConfigurationRegistryEntry)
    (phase : ConfigurationPhaseOutcome) :
    Except ConfigurationDataError ConfigurationPhaseOutcome :=
  if registry = "minecraft:dimension_type" then do
    let types ← (dimensionTypes entries).mapError .registry
    pure { phase with dimensionTypes := types }
  else if registry = "minecraft:worldgen/biome" then do
    let types ← (biomes entries).mapError .registry
    pure { phase with biomes := types }
  else if registry = "minecraft:banner_pattern" then do
    let identifiers ← entryIdentifiers .bannerPattern entries
    pure { phase with bannerPatterns := identifiers }
  else if registry ∈ entityRegistryNames then do
    let identifiers ← entryIdentifiers (fun _ => .entityRegistry) entries
    pure { phase with entityRegistries := phase.entityRegistries.insert registry identifiers }
  else pure phase

/-- What `run_configuration` keeps of another phase. -/
def ConfigurationPhaseOutcome.merge (kept phase : ConfigurationPhaseOutcome) :
    ConfigurationPhaseOutcome where
  skippedPackets := saturatingAdd kept.skippedPackets phase.skippedPackets
  dimensionTypes := if phase.dimensionTypes.isEmpty then kept.dimensionTypes
    else phase.dimensionTypes
  biomes := if phase.biomes.isEmpty then kept.biomes else phase.biomes
  bannerPatterns := if phase.bannerPatterns.isEmpty then kept.bannerPatterns
    else phase.bannerPatterns
  entityRegistries := phase.entityRegistries.entries.foldl
    (fun kept entry => kept.insert entry.1 entry.2) kept.entityRegistries

structure ConfigurationOutcome where
  initialLogin : InitialPlayLogin
  registries : ConfigurationPhaseOutcome

/-! ### Configuration -/

section Operations
variable {χ ε : Type} (ops : ConnectionOps χ ε) (layout : NbtLayout)

/-- The text of the reason of a disconnect. -/
def disconnectText (reason : NbtCompound) : String :=
  match NbtCompound.getString reason.val "text" with
  | some text => text.toStringLossy
  | none => "<structured NBT reason>"

def answerConfiguration (phase : ConfigurationPhaseOutcome) : ConfigurationClientbound →
    JoinM χ ε (ConfigurationPhaseOutcome ⊕ ConfigurationPhaseOutcome)
  | .cookieRequest key => do
    write ops (.configurationCookieResponse key) "Configuration Cookie Response write"
    pure (.inl phase)
  | .customPayload _ _ | .skipped _ _ => pure (.inl phase.skip)
  | .registryData registry entries => do
    let phase ← Mut.ofExcept
      ((collectRegistry registry entries phase.skip).mapError .configurationData)
    pure (.inl phase)
  | .disconnect reason => disconnected (disconnectText reason)
  | .finish => do
    write ops .finishConfiguration "Finish Configuration acknowledgement write"
    transition .configuration .play
    pure (.inr phase)
  | .keepAlive id => do
    write ops (.configurationKeepAlive id) "Configuration Keep Alive response write"
    pure (.inl phase)
  | .ping id => do
    write ops (.configurationPong id) "Configuration Pong write"
    pure (.inl phase)
  | .knownPacks _ => do
    write ops .knownPacksResponseEmpty "Known Packs response write"
    pure (.inl phase)
  | .resourcePackPush =>
    unsupported .resourcePack "resource-pack= and require-resource-pack=false"
  | .transfer => unsupported .transfer "connect directly to the development server"
  | .codeOfConduct => unsupported .codeOfConduct "enable-code-of-conduct=false"

/-- One round of `run_configuration_phase`. -/
def configurationTurn (phase : ConfigurationPhaseOutcome) :
    JoinM χ ε (ConfigurationPhaseOutcome ⊕ ConfigurationPhaseOutcome) := do
  let frame ← readFrame ops "Configuration packet read"
  let packet ← decoded (decodeConfigurationClientbound layout frame)
  answerConfiguration ops phase packet

def runConfigurationPhase : JoinM χ ε ConfigurationPhaseOutcome :=
  rounds (configurationTurn ops layout) (packetLimitExceeded maxConfigurationPackets)
    maxConfigurationPackets .empty

/-! ### The first packets of Play -/

inductive PlayAcceptance where
  | login (login : InitialPlayLogin)
  | reconfigure

/-- `1.0` -/
def desiredChunksPerTick : UInt32 := World.F32.one.bits

def finishChunkBatch (sentPlayerLoaded : Bool) : JoinM χ ε (Bool ⊕ PlayAcceptance) := do
  write ops (.playChunkBatchReceived desiredChunksPerTick) "Play Chunk Batch Received write"
  if sentPlayerLoaded then pure (.inl true)
  else do
    write ops .playPlayerLoaded "Play Player Loaded write"
    pure (.inl true)

def reconfigure : JoinM χ ε Unit := do
  write ops .playAcknowledgeConfiguration "Play Configuration Acknowledged write"
  transition .play .configuration
  write ops (.clientInformation .default) "Reconfiguration Client Information write"

def answerPlay (sentPlayerLoaded : Bool) : PlayClientbound → JoinM χ ε (Bool ⊕ PlayAcceptance)
  | .login login => pure (.inr (.login login))
  | .keepAlive id => do
    write ops (.playKeepAlive id) "Play Keep Alive response write"
    pure (.inl sentPlayerLoaded)
  | .ping id => do
    write ops (.playPong id) "Play Pong write"
    pure (.inl sentPlayerLoaded)
  | .playerPosition position => do
    write ops (.playTeleportConfirmation position.teleportId) "Play Teleport Confirmation write"
    pure (.inl sentPlayerLoaded)
  | .chunkBatchFinished _ => finishChunkBatch ops sentPlayerLoaded
  | .cookieRequest key => do
    write ops (.playCookieResponse key) "Play Cookie Response write"
    pure (.inl sentPlayerLoaded)
  | .disconnect reason => disconnected reason.plainText
  | .startConfiguration => do
    reconfigure ops
    pure (.inr .reconfigure)
  | .resourcePackPush =>
    unsupported .resourcePack "resource-pack= and require-resource-pack=false"
  | .transfer => unsupported .transfer "connect directly to the development server"
  | _ => pure (.inl sentPlayerLoaded)

/-- One round of `await_initial_play_login`. -/
def playTurn (sentPlayerLoaded : Bool) : JoinM χ ε (Bool ⊕ PlayAcceptance) := do
  let frame ← readFrame ops "initial Play packet read"
  let packet ← decoded (decodePlayClientbound layout frame)
  answerPlay ops sentPlayerLoaded packet

def awaitInitialPlayLogin : JoinM χ ε PlayAcceptance :=
  rounds (playTurn ops layout)
    (Mut.fail (.packetLimitExceeded "Play acceptance" maxPlayAcceptancePackets))
    maxPlayAcceptancePackets false

/-! ### The whole of it -/

/-- One round of `run_configuration`. -/
def reconfigurationTurn (kept : ConfigurationPhaseOutcome) :
    JoinM χ ε (ConfigurationPhaseOutcome ⊕ ConfigurationOutcome) := do
  let phase ← runConfigurationPhase ops layout
  match ← awaitInitialPlayLogin ops layout with
  | .login initialLogin => pure (.inr ⟨initialLogin, kept.merge phase⟩)
  | .reconfigure => pure (.inl (kept.merge phase))

/-- Both ends of the range are taken. -/
def runConfiguration : JoinM χ ε ConfigurationOutcome :=
  rounds (reconfigurationTurn ops layout)
    (Mut.fail (.packetLimitExceeded "Play/Configuration transitions"
      maxReconfigurationsDuringAcceptance))
    (maxReconfigurationsDuringAcceptance + 1) .empty

structure ConnectedPlay where
  profileUuid : ProtocolUuid
  configuration : ConfigurationOutcome

def loginHandshake (address : ServerAddress) : Handshake :=
  ⟨protocolVersion, address.host, address.port, .login⟩

/-- `connect_to_play_inner` once the connection is there. -/
def connectToPlay (address : ServerAddress) (username : DevelopmentUsername) :
    JoinM χ ε ConnectedPlay := do
  send ops .framing (.handshake (loginHandshake address)) "Login Handshake write"
  transition .handshake .login
  write ops (.loginStart username.text (.replicate 16 0)) "Login Start write"
  let profileUuid ← runLogin ops username
  let configuration ← runConfiguration ops layout
  pure ⟨profileUuid, configuration⟩

def Joining.start (connection : χ) : Joining χ := ⟨connection, .handshake, []⟩

end Operations

end Cubic.Bootstrap
