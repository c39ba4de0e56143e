import Cubic.World.Chunk
import Cubic.World.Float

/-! # What the server says about the world (`model.rs`) -/

namespace Cubic.World

set_option autoImplicit false

inductive GameMode where
  | survival
  | creative
  | adventure
  | spectator
  | other (id : Int32)
  deriving DecidableEq

inductive Difficulty where
  | peaceful
  | easy
  | normal
  | hard
  | other (id : UInt8)
  deriving DecidableEq

structure DimensionTypeReference where
  registry : MinecraftIdentifier
  rawId : UInt32
  deriving DecidableEq

structure DimensionGeometry where
  minY : Int32
  height : UInt32
  deriving DecidableEq

namespace DimensionGeometry

def minSectionY (g : DimensionGeometry) : Int32 := g.minY / 16

def sectionCount (g : DimensionGeometry) : Nat := g.height.toNat / 16

end DimensionGeometry

structure RuntimeDimensionType where
  rawId : UInt32
  identifier : MinecraftIdentifier
  geometry : DimensionGeometry
  deriving DecidableEq

inductive GrassColorModifier where
  | none
  | darkForest
  | swamp
  deriving DecidableEq

structure RuntimeBiome where
  rawId : UInt32
  identifier : MinecraftIdentifier
  temperature : F32
  downfall : F32
  waterColor : UInt32
  foliageColor : Option UInt32
  dryFoliageColor : Option UInt32
  grassColor : Option UInt32
  grassColorModifier : GrassColorModifier
  deriving DecidableEq

structure LastDeathLocation where
  dimension : MinecraftIdentifier
  position : BlockCoordinates
  deriving DecidableEq

structure SpawnContext where
  dimensionType : DimensionTypeReference
  dimension : MinecraftIdentifier
  hashedSeed : Int64
  gameMode : GameMode
  previousGameMode : Option GameMode
  debugWorld : Bool
  flatWorld : Bool
  lastDeathLocation : Option LastDeathLocation
  portalCooldownTicks : UInt32
  seaLevel : Int32
  deriving DecidableEq

structure EnterWorld where
  playerEntityId : Int32
  hardcore : Bool
  knownDimensions : List MinecraftIdentifier
  maxPlayers : UInt32
  viewDistance : UInt32
  simulationDistance : UInt32
  reducedDebugInfo : Bool
  showDeathScreen : Bool
  limitedCrafting : Bool
  secureChatEnforced : Bool
  spawn : SpawnContext
  deriving DecidableEq

structure AuthoritativeRotation where
  yaw : F32
  pitch : F32
  deriving DecidableEq

inductive RespawnRotation where
  | preserve
  | reset (rotation : AuthoritativeRotation)
  deriving DecidableEq

structure Respawn where
  spawn : SpawnContext
  keepAttributeModifiers : Bool
  keepEntityData : Bool
  rotation : RespawnRotation
  deriving DecidableEq

structure RelativeTransformFlags where
  x : Bool
  y : Bool
  z : Bool
  yaw : Bool
  pitch : Bool
  deriving DecidableEq

structure PlayerPositionUpdate where
  teleportId : Int32
  x : F64
  y : F64
  z : F64
  yaw : F32
  pitch : F32
  relative : RelativeTransformFlags
  deriving DecidableEq

structure PlayerRotationUpdate where
  yaw : F32
  pitch : F32
  relativeYaw : Bool
  relativePitch : Bool
  deriving DecidableEq

structure AuthoritativeTransform where
  x : F64
  y : F64
  z : F64
  yaw : F32
  pitch : F32
  teleportId : Int32
  deriving DecidableEq

structure SpawnPoint where
  dimension : MinecraftIdentifier
  position : BlockCoordinates
  yaw : F32
  pitch : F32
  deriving DecidableEq

structure ClockState where
  clockTypeRawId : UInt32
  totalTicks : Int64
  partialTick : F32
  rate : F32
  deriving DecidableEq

structure WorldTime where
  gameTime : Int64
  clocks : List ClockState
  deriving DecidableEq

structure WeatherState where
  raining : Bool
  rainLevel : F32
  thunderLevel : F32
  deriving DecidableEq

def WeatherState.default : WeatherState := ⟨false, F32.zero, F32.zero⟩

structure WorldBorder where
  centerX : F64
  centerZ : F64
  oldDiameter : F64
  newDiameter : F64
  lerpMillis : UInt64
  absoluteMaxSize : UInt32
  warningBlocks : UInt32
  warningSeconds : UInt32
  deriving DecidableEq

structure RuntimeRegistrySummary where
  registry : MinecraftIdentifier
  entryCount : Nat
  deriving DecidableEq

structure RuntimeRegistrySnapshot where
  registries : List RuntimeRegistrySummary
  deriving DecidableEq

structure WorldSession where
  playerEntityId : Int32
  hardcore : Bool
  knownDimensions : List MinecraftIdentifier
  maxPlayers : UInt32
  viewDistance : UInt32
  simulationDistance : UInt32
  reducedDebugInfo : Bool
  showDeathScreen : Bool
  limitedCrafting : Bool
  secureChatEnforced : Bool
  spawnContext : SpawnContext
  dimensionGeometry : DimensionGeometry
  position : Option AuthoritativeTransform
  rotation : Option AuthoritativeRotation
  lastTeleportId : Option Int32
  spawnPoint : Option SpawnPoint
  time : Option WorldTime
  difficulty : Option (Difficulty × Bool)
  weather : WeatherState
  border : Option WorldBorder
  deriving DecidableEq

inductive WorldEvent where
  | beginConfiguration
  | runtimeRegistries (registries : RuntimeRegistrySnapshot)
  | runtimeDimensionTypes (dimensions : List RuntimeDimensionType)
  | runtimeBiomes (biomes : List RuntimeBiome)
  | enterWorld (enter : EnterWorld)
  | respawn (respawn : Respawn)
  | synchronizePlayerPosition (update : PlayerPositionUpdate)
  | synchronizePlayerRotation (update : PlayerRotationUpdate)
  | setSpawn (spawn : SpawnPoint)
  | setTime (time : WorldTime)
  | setDifficulty (difficulty : Difficulty) (locked : Bool)
  | setRaining (raining : Bool)
  | setRainLevel (level : F32)
  | setThunderLevel (level : F32)
  | setGameMode (mode : GameMode)
  | setWorldBorder (border : WorldBorder)
  | loadChunk (chunk : Chunk)
  | unloadChunk (coordinate : ChunkCoordinate)
  | updateChunkLight (coordinate : ChunkCoordinate) (light : ChunkLightSummary)
  | disconnect
  deriving DecidableEq

end Cubic.World
