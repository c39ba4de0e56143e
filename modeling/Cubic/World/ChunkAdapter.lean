import Cubic.Nbt.Lookup
import Cubic.Play.LevelChunk
import Cubic.World.Chunk

/-! # Chunks as the world takes them (`world_adapter.rs`) -/

namespace Cubic.World

set_option autoImplicit false

def maxBannerPatternLayers : Nat := 20

structure WorldAdapterError where
  invalidBannerBlockEntity ::
  path : String
  reason : String
  deriving DecidableEq

open NbtCompound

/-! ### Block entities -/

def identifierValue (value : NbtString) (path : String) :
    Except WorldAdapterError MinecraftIdentifier :=
  let value := value.toStringLossy
  if 256 < value.utf8ByteSize then .error ⟨path, "identifier exceeds its bound"⟩
  else match MinecraftIdentifier.new value with
    | .ok identifier => .ok identifier
    | .error _ => .error ⟨path, "identifier is invalid"⟩

def dyeNames : List String :=
  ["white", "orange", "magenta", "light_blue", "yellow", "lime", "pink", "gray", "light_gray",
    "cyan", "purple", "blue", "brown", "green", "red", "black"]

def dyeRawId (value : String) : Option UInt8 := (dyeNames.idxOf? value).map UInt8.ofNat

/-- `Option::ok_or` -/
def okOr {α : Type} (o : Option α) (e : WorldAdapterError) : Except WorldAdapterError α :=
  match o with
  | some a => .ok a
  | none => .error e

def directPattern (direct : List (NbtString × NbtTree)) : Except WorldAdapterError BannerPattern := do
  let asset ← okOr (getString direct "asset_id")
    ⟨"patterns[].pattern.asset_id", "direct pattern asset identifier is missing"⟩
  let translation ← okOr (getString direct "translation_key")
    ⟨"patterns[].pattern.translation_key", "direct pattern translation key is missing"⟩
  let translation := translation.toStringLossy
  if 256 < translation.utf8ByteSize then
    .error ⟨"patterns[].pattern.translation_key",
      "direct pattern translation key exceeds its bound"⟩
  else do
    let assetId ← identifierValue asset "patterns[].pattern.asset_id"
    pure ⟨assetId, some translation⟩

def semanticBannerPatternLayer (value : NbtTree) : Except WorldAdapterError BannerPatternLayer := do
  let layer ← match value with
    | .compound layer => .ok layer
    | _ => .error ⟨"patterns[]", "expected a compound layer"⟩
  let pattern ← match getStr layer "pattern" with
    | some (.string identifier) => do
      let assetId ← identifierValue identifier "patterns[].pattern"
      pure ⟨assetId, none⟩
    | some (.compound direct) => directPattern direct
    | _ => .error ⟨"patterns[].pattern",
        "expected a registry identifier or direct pattern compound"⟩
  let color ← okOr ((getString layer "color").map NbtString.toStringLossy)
    ⟨"patterns[].color", "dye color name is missing"⟩
  let dyeRawId ← okOr (dyeRawId color) ⟨"patterns[].color", "dye color name is invalid"⟩
  pure ⟨pattern, dyeRawId⟩

def semanticBlockEntity (compound : NbtCompound) : Except WorldAdapterError BlockEntityData := do
  let customName ← match getStr compound.val "CustomName" with
    | none => .ok none
    | some (.string value) => .ok (some value.toStringLossy)
    | some _ => .error ⟨"CustomName", "expected an NBT string component"⟩
  let bannerPatterns ← match getStr compound.val "patterns" with
    | none => .ok []
    | some (.list _ elements) =>
      if maxBannerPatternLayers < elements.length then
        .error ⟨"patterns", "pattern layer count exceeds the bounded limit"⟩
      else elements.mapM semanticBannerPatternLayer
    | some _ => .error ⟨"patterns", "expected an NBT list"⟩
  pure ⟨customName, bannerPatterns⟩

def semanticSummary (entity : WireBlockEntity) : Except WorldAdapterError BlockEntitySummary := do
  let data ← entity.data.mapM semanticBlockEntity
  pure ⟨entity.localX, entity.y, entity.localZ, entity.typeRawId, entity.hasData, data⟩

/-! ### The chunk -/

def semanticLight (light : WireLightData) : ChunkLightSummary where
  skyMask := light.skyMask
  blockMask := light.blockMask
  emptySkyMask := light.emptySkyMask
  emptyBlockMask := light.emptyBlockMask
  skyLayerCount := light.skyLayerCount
  blockLayerCount := light.blockLayerCount
  skyLayers := light.skyLayers.map fun layer => ⟨layer.maskIndex, layer.data⟩
  blockLayers := light.blockLayers.map fun layer => ⟨layer.maskIndex, layer.data⟩

def semanticChunk (chunk : LevelChunkWithLight) : Except WorldAdapterError Chunk := do
  let blockEntities ← chunk.blockEntities.mapM semanticSummary
  pure {
    coordinate := ⟨chunk.x, chunk.z⟩
    sections := chunk.sections.map semanticSection
    heightmaps := chunk.heightmaps.map fun heightmap => ⟨heightmap.kindRawId, heightmap.data⟩
    blockEntities := blockEntities
    light := semanticLight chunk.light }

/-- The chunk a packet brings, when it is accepted as a whole. -/
def receiveLevelChunk (layout : NbtLayout) (payload : Bytes) : Option Chunk :=
  match Chunk.decodeLevelChunkWithLight layout (.new payload) with
  | .ok chunk r => if r.remaining = 0 then (semanticChunk chunk).toOption else none
  | _ => none

end Cubic.World
