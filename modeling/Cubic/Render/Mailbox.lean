import Cubic.World.EntityStore
import Cubic.World.Model

/-!
# The coalescing render mailbox (`world_render.rs`)

What the network thread publishes is kept per chunk and per entity until the renderer
takes it. Every call holds the lock throughout, so calls are steps on one state; the
waker has no part in it.
-/

namespace Cubic.Render

open World

set_option autoImplicit false

structure BlockBreakingOverlay where
  position : BlockCoordinates
  state : RuntimeBlockStateId
  stage : UInt8
  deriving DecidableEq

structure RenderLookSample where
  sequence : UInt64
  yawTotal : F64
  pitchTotal : F64
  deriving DecidableEq

def RenderLookSample.default : RenderLookSample := ⟨0, F64.zero, F64.zero⟩

/-- An instant is its number of nanoseconds on the monotonic clock. -/
abbrev Instant := Nat

structure RenderPoseSample where
  pose : LocalPlayerPose
  tickAt : Instant
  look : RenderLookSample
  discontinuity : Bool
  deriving DecidableEq

inductive ChunkRenderDelta where
  | loaded (chunk : Chunk)
  | unloaded (coordinate : ChunkCoordinate)
  deriving DecidableEq

inductive EntityRenderDelta (Rest : Type) where
  | upsert (entity : Entity Rest)
  | remove (id : Int32)
  | replaceAll (entities : List (Entity Rest))
  deriving DecidableEq

/-- `Target` and `Inventory` are passed on without being looked into. -/
structure WorldRenderUpdate (Rest Target Inventory : Type) where
  generation : UInt64
  reset : Bool
  dimension : Option String
  geometry : Option DimensionGeometry
  gameMode : Option GameMode
  biomes : Option (List RuntimeBiome)
  pose : Option RenderPoseSample
  posePublishedAt : Option Instant
  poseContainsJump : Bool
  target : Option Target
  breaking : Option BlockBreakingOverlay
  inventory : Option Inventory
  entities : List (EntityRenderDelta Rest)
  chunks : List ChunkRenderDelta

structure Mailbox (Rest Target Inventory : Type) where
  generation : UInt64
  dirty : Bool
  reset : Bool
  dimension : Option String
  geometry : Option DimensionGeometry
  gameMode : Option GameMode
  biomes : Option (List RuntimeBiome)
  pose : Option RenderPoseSample
  posePublishedAt : Option Instant
  poseContainsJump : Bool
  target : Option Target
  breaking : Option BlockBreakingOverlay
  inventory : Option Inventory
  chunks : OrderedMap ChunkCoordinate ChunkRenderDelta
  entities : OrderedMap Int32 (EntityRenderDelta Rest)
  entityReplacement : Option (OrderedMap Int32 (Entity Rest))

variable {Rest Target Inventory : Type}

/-- The entity a delta is about. -/
def EntityRenderDelta.id? : EntityRenderDelta Rest → Option Int32
  | upsert entity => some entity.id
  | remove id => some id
  | replaceAll _ => none

/-- A delta applied to the entities that will replace all others. -/
def EntityRenderDelta.amend (replacement : OrderedMap Int32 (Entity Rest)) :
    EntityRenderDelta Rest → OrderedMap Int32 (Entity Rest)
  | upsert entity => replacement.insert entity.id entity
  | remove id => replacement.remove id
  | replaceAll _ => replacement

namespace Mailbox

def default : Mailbox Rest Target Inventory where
  generation := 0
  dirty := false
  reset := false
  dimension := none
  geometry := none
  gameMode := none
  biomes := none
  pose := none
  posePublishedAt := none
  poseContainsJump := false
  target := none
  breaking := none
  inventory := none
  chunks := OrderedMap.empty
  entities := OrderedMap.empty
  entityReplacement := none

def takeUpdate (m : Mailbox Rest Target Inventory) :
    Option (WorldRenderUpdate Rest Target Inventory) × Mailbox Rest Target Inventory :=
  if !m.dirty then (none, m)
  else
    (some {
      generation := m.generation
      reset := m.reset
      dimension := m.dimension
      geometry := m.geometry
      gameMode := m.gameMode
      biomes := m.biomes
      pose := m.pose
      posePublishedAt := m.posePublishedAt
      poseContainsJump := m.poseContainsJump
      target := m.target
      breaking := m.breaking
      inventory := m.inventory
      entities := match m.entityReplacement with
        | some replacement => [.replaceAll replacement.values]
        | none => m.entities.values
      chunks := m.chunks.values },
    { m with
      dirty := false
      reset := false
      pose := none
      posePublishedAt := none
      poseContainsJump := false
      inventory := none
      chunks := OrderedMap.empty
      entities := OrderedMap.empty
      entityReplacement := none })

def entity (m : Mailbox Rest Target Inventory) (delta : EntityRenderDelta Rest)
    (authoritative : EntityStore Rest) : Mailbox Rest Target Inventory :=
  match delta.id? with
  | none => m
  | some id =>
    match m.entityReplacement with
    | some replacement =>
      { m with entityReplacement := some (delta.amend replacement), dirty := true }
    | none =>
      if m.entities.size < maxRemoteEntities ∨ (m.entities.lookup id).isSome then
        { m with entities := m.entities.insert id delta, dirty := true }
      else
        { m with
          entities := OrderedMap.empty
          entityReplacement := some (OrderedMap.ofList
            (authoritative.snapshot.map fun e => (e.2.id, e.2)))
          dirty := true }

def publishReset (m : Mailbox Rest Target Inventory) (dimension : String)
    (geometry : DimensionGeometry) (biomes : List RuntimeBiome) (gameMode : GameMode) :
    Mailbox Rest Target Inventory :=
  { m with
    generation := m.generation + 1
    reset := true
    dimension := some dimension
    geometry := some geometry
    gameMode := some gameMode
    biomes := some biomes
    pose := none
    posePublishedAt := none
    poseContainsJump := false
    target := none
    breaking := none
    chunks := OrderedMap.empty
    entities := OrderedMap.empty
    entityReplacement := none
    dirty := true }

def publishInventory (m : Mailbox Rest Target Inventory) (inventory : Inventory) :
    Mailbox Rest Target Inventory :=
  { m with inventory := some inventory, dirty := true }

def publishGameMode (m : Mailbox Rest Target Inventory) (gameMode : GameMode) :
    Mailbox Rest Target Inventory :=
  if m.gameMode = some gameMode then m else { m with gameMode := some gameMode, dirty := true }

/-- Targets are compared as the derived equality does, where a NaN equals nothing. -/
def publishTarget [BEq Target] (m : Mailbox Rest Target Inventory) (target : Option Target) :
    Mailbox Rest Target Inventory :=
  if m.target == target then m else { m with target := target, dirty := true }

def publishBreaking (m : Mailbox Rest Target Inventory) (breaking : Option BlockBreakingOverlay) :
    Mailbox Rest Target Inventory :=
  if m.breaking = breaking then m else { m with breaking := breaking, dirty := true }

def setPose (m : Mailbox Rest Target Inventory) (pose : RenderPoseSample) (jumped : Bool)
    (publishedAt : Instant) : Mailbox Rest Target Inventory :=
  { m with
    pose := some { pose with
      discontinuity := pose.discontinuity || m.pose.any RenderPoseSample.discontinuity }
    posePublishedAt := if jumped || !m.poseContainsJump then some publishedAt else m.posePublishedAt
    poseContainsJump := m.poseContainsJump || jumped
    dirty := true }

def poseTick (m : Mailbox Rest Target Inventory) (pose : LocalPlayerPose) (tickAt : Instant)
    (look : RenderLookSample) (jumped : Bool) (publishedAt : Instant) :
    Mailbox Rest Target Inventory :=
  m.setPose ⟨pose, tickAt, look, false⟩ jumped publishedAt

def poseDiscontinuity (m : Mailbox Rest Target Inventory) (pose : LocalPlayerPose)
    (tickAt : Instant) (look : RenderLookSample) (publishedAt : Instant) :
    Mailbox Rest Target Inventory :=
  m.setPose ⟨pose, tickAt, look, true⟩ false publishedAt

def load (m : Mailbox Rest Target Inventory) (chunk : Chunk) : Mailbox Rest Target Inventory :=
  { m with chunks := m.chunks.insert chunk.coordinate (.loaded chunk), dirty := true }

def unload (m : Mailbox Rest Target Inventory) (coordinate : ChunkCoordinate) :
    Mailbox Rest Target Inventory :=
  { m with chunks := m.chunks.insert coordinate (.unloaded coordinate), dirty := true }

end Mailbox

end Cubic.Render
