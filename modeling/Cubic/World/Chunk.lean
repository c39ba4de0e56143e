import Cubic.Lib.OrderedMap
import Cubic.Play.ChunkSection
import Cubic.Version.Identifier

/-! # Loaded chunks (`chunk.rs`) -/

namespace Cubic.World

set_option autoImplicit false

def maxLoadedChunks : Nat := 512

def maxBlockEntitiesPerChunk : Nat := 1024

structure ChunkCoordinate where
  x : Int32
  z : Int32

/-- The derived order: by `x`, then by `z`. -/
instance linearOrderChunkCoordinate : LinearOrder ChunkCoordinate :=
  LinearOrder.lift' (fun c => toLex (c.x, c.z)) fun a b h => by
    cases a
    cases b
    cases h
    rfl

end Cubic.World

namespace Cubic.PalettedContainer
variable {T : Type} [DecidableEq T]

/-- The container as a list of values, unless one of its entries cannot be read. -/
def materialize (c : PalettedContainer T) : Option (List T) :=
  match c with
  | direct values => some values
  | _ =>
    let values := (List.range c.len).filterMap c.get
    if values.length ≠ c.len then none else some values

/-- Write one entry; says whether it was another value before. -/
def set (c : PalettedContainer T) (index : Nat) (value : T) : Bool × PalettedContainer T :=
  if c.len ≤ index then (false, c)
  else
    match c.materialize with
    | none => (false, c)
    | some values =>
      match values[index]? with
      | none => (false, direct values)
      | some entry =>
        if entry = value then (false, direct values) else (true, direct (values.set index value))

end Cubic.PalettedContainer

namespace Cubic.World

structure HeightmapData where
  kindRawId : UInt32
  data : List UInt64
  deriving DecidableEq

structure BannerPattern where
  assetId : MinecraftIdentifier
  translationKey : Option String
  deriving DecidableEq

structure BannerPatternLayer where
  pattern : BannerPattern
  dyeRawId : UInt8
  deriving DecidableEq

structure BlockEntityData where
  customName : Option String
  bannerPatterns : List BannerPatternLayer
  deriving DecidableEq

structure BlockEntitySummary where
  localX : UInt8
  y : Int16
  localZ : UInt8
  typeRawId : UInt32
  hasData : Bool
  data : Option BlockEntityData
  deriving DecidableEq

structure LightLayerData where
  maskIndex : Nat
  data : List UInt8
  deriving DecidableEq

structure ChunkLightSummary where
  skyMask : List UInt64
  blockMask : List UInt64
  emptySkyMask : List UInt64
  emptyBlockMask : List UInt64
  skyLayerCount : Nat
  blockLayerCount : Nat
  skyLayers : List LightLayerData
  blockLayers : List LightLayerData
  deriving DecidableEq

structure Chunk where
  coordinate : ChunkCoordinate
  /-- Lowest first. -/
  sections : List ChunkSection
  heightmaps : List HeightmapData
  blockEntities : List BlockEntitySummary
  light : ChunkLightSummary
  deriving DecidableEq

inductive ChunkStoreError where
  | loadedChunkLimit (max : Nat)
  deriving DecidableEq

abbrev LoadedChunks := OrderedMap ChunkCoordinate Chunk

namespace LoadedChunks

def get (chunks : LoadedChunks) (coordinate : ChunkCoordinate) : Option Chunk :=
  chunks.lookup coordinate

def insert (chunks : LoadedChunks) (chunk : Chunk) : Except ChunkStoreError LoadedChunks :=
  if (chunks.lookup chunk.coordinate).isNone ∧ maxLoadedChunks ≤ chunks.size then
    .error (.loadedChunkLimit maxLoadedChunks)
  else .ok (OrderedMap.insert chunks chunk.coordinate chunk)

def updateLight (chunks : LoadedChunks) (coordinate : ChunkCoordinate) (light : ChunkLightSummary) :
    LoadedChunks :=
  match chunks.lookup coordinate with
  | none => chunks
  | some chunk => OrderedMap.insert chunks coordinate { chunk with light := light }

/-- The updated chunk, with whether a block changed; none where there is no such section. -/
def updateSection (chunk : Chunk) (sectionOffset : Nat) (localX localY localZ : UInt8)
    (state : RuntimeBlockStateId) : Option (Bool × Chunk) := do
  let blockSection ← chunk.sections[sectionOffset]?
  let index ← sectionIndex localX localY localZ 16
  let (changed, blocks) := blockSection.blocks.set index state
  pure (changed, { chunk with
    sections := chunk.sections.set sectionOffset { blockSection with blocks := blocks } })

def updateBlock (chunks : LoadedChunks) (coordinate : ChunkCoordinate) (sectionOffset : Nat)
    (localX localY localZ : UInt8) (state : RuntimeBlockStateId) : Bool × LoadedChunks :=
  match (chunks.lookup coordinate).bind fun chunk =>
      updateSection chunk sectionOffset localX localY localZ state with
  | none => (false, chunks)
  | some (changed, chunk) => (changed, OrderedMap.insert chunks coordinate chunk)

/-- Write to the first entity at the position, or add one; says whether anything changed. -/
def putBlockEntity (localX : UInt8) (y : Int16) (localZ : UInt8) (typeRawId : UInt32)
    (data : BlockEntityData) : List BlockEntitySummary → Bool × List BlockEntitySummary
  | [] => (true, [⟨localX, y, localZ, typeRawId, true, some data⟩])
  | entity :: rest =>
    if entity.localX = localX ∧ entity.y = y ∧ entity.localZ = localZ then
      (decide (entity.typeRawId ≠ typeRawId ∨ entity.data ≠ some data ∨ ¬ entity.hasData),
        { entity with typeRawId := typeRawId, hasData := true, data := some data } :: rest)
    else
      let (changed, rest) := putBlockEntity localX y localZ typeRawId data rest
      (changed, entity :: rest)

/-- None when the chunk is not loaded. -/
def updateBlockEntity (chunks : LoadedChunks) (coordinate : ChunkCoordinate) (localX : UInt8)
    (y : Int16) (localZ : UInt8) (typeRawId : UInt32) (data : BlockEntityData) :
    Option Bool × LoadedChunks :=
  match chunks.lookup coordinate with
  | none => (none, chunks)
  | some chunk =>
    let (changed, blockEntities) :=
      putBlockEntity localX y localZ typeRawId data chunk.blockEntities
    (some changed,
      OrderedMap.insert chunks coordinate { chunk with blockEntities := blockEntities })

end LoadedChunks

end Cubic.World
