import Cubic.Codec.BitSet
import Cubic.Nbt.Decode
import Cubic.Play.ChunkSection

/-! # Level chunks (`v775/chunk.rs`) -/

namespace Cubic

set_option autoImplicit false

def maxChunkDataBytes : Nat := 2 * 1024 * 1024
def maxHeightmaps : Nat := 16
def maxHeightmapLongs : Nat := 256
def maxBlockEntities : Nat := 1024
def maxLightLayers : Nat := 66
def lightLayerBytes : Nat := 2048

structure WireHeightmap where
  kindRawId : UInt32
  data : List UInt64

structure WireBlockEntity where
  localX : UInt8
  y : Int16
  localZ : UInt8
  typeRawId : UInt32
  hasData : Bool
  data : Option NbtCompound

structure WireLightLayer where
  maskIndex : Nat
  data : Bytes

structure WireLightData where
  skyMask : List UInt64
  blockMask : List UInt64
  emptySkyMask : List UInt64
  emptyBlockMask : List UInt64
  skyLayerCount : Nat
  blockLayerCount : Nat
  skyLayers : List WireLightLayer
  blockLayers : List WireLightLayer

structure LevelChunkWithLight where
  x : Int32
  z : Int32
  sections : List WireChunkSection
  heightmaps : List WireHeightmap
  blockEntities : List WireBlockEntity
  light : WireLightData

structure LightUpdate where
  x : Int32
  z : Int32
  light : WireLightData

namespace Chunk

/-- A decoder that runs on a reader of its own. -/
def onSlice {α : Type} (outcome : Outcome ChunkDecodeError CodecReader α) : ChunkM α :=
  match outcome with
  | .ok a _ => pure a
  | .err e _ => Mut.fail e
  | .panic => Mut.fault

def nbt {α : Type} (m : NbtM α) : ChunkM α := fun r =>
  match m (.new r) with
  | .ok a c => .ok a c.reader
  | .err e c => .err (.nbt e) c.reader
  | .panic => .panic

/-! ### Heightmaps -/

/-- `left` more heightmaps, of kinds other than those in `seen`. -/
def readHeightmaps : Nat → List UInt32 → ChunkM (List WireHeightmap)
  | 0, _ => pure []
  | left + 1, seen => do
    let kindRawId ← readRuntimeId "heightmap kind"
    if kindRawId ∈ seen then Mut.fail (.duplicateHeightmap kindRawId)
    else do
      let longs ← readCount "heightmap long" maxHeightmapLongs
      let data ← Mut.repeatCall (codec readU64) longs
      let rest ← readHeightmaps left (kindRawId :: seen)
      pure (⟨kindRawId, data⟩ :: rest)

def decodeHeightmaps : ChunkM (List WireHeightmap) := do
  let count ← readCount "heightmap" maxHeightmaps
  readHeightmaps count []

/-! ### Block entities -/

/-- The next byte, which the cloned reader `probe` takes. -/
def probeU8 : ChunkM UInt8 := fun r =>
  match codec readU8 r with
  | .ok byte _ => .ok byte r
  | .err e _ => .err e r
  | .panic => .panic

variable (layout : NbtLayout)

/-- The data of a block entity; the end tag stands for none. -/
def readBlockEntityData : ChunkM (Option NbtCompound) := do
  let rootType ← probeU8
  if rootType = 0 then do
    let _ ← codec readU8
    pure none
  else do
    let tag ← nbt (decodeUnnamedNetworkTag .default layout)
    match tag with
    | ⟨.compound entries, h⟩ => pure (some ⟨entries, h⟩)
    | _ => Mut.fail .invalidBlockEntityNbt

def decodeBlockEntity : ChunkM WireBlockEntity := do
  let packedXz ← codec readU8
  let y ← codec readI16
  let typeRawId ← readRuntimeId "block entity type"
  let data ← readBlockEntityData layout
  pure ⟨packedXz >>> 4, y, packedXz &&& 0x0f, typeRawId, data.isSome, data⟩

def decodeBlockEntities : ChunkM (List WireBlockEntity) := do
  let count ← readCount "block entity" maxBlockEntities
  Mut.repeatCall (decodeBlockEntity layout) count

/-! ### Light -/

def validateDisjoint (kind : String) (data empty : List UInt64) : ChunkM Unit :=
  if (data.zip empty).any fun words => words.1 &&& words.2 ≠ 0 then
    Mut.fail (.overlappingLightMasks kind)
  else pure ()

def setBitsOf (word : UInt64) : List Nat :=
  (List.range 64).filter fun bit => word &&& ((1 : UInt64) <<< .ofNat bit) ≠ 0

def countBits (words : List UInt64) : Nat := (words.map fun word => (setBitsOf word).length).sum

def setBitIndices (words : List UInt64) : List Nat :=
  words.zipIdx.flatMap fun entry => (setBitsOf entry.1).map (entry.2 * 64 + ·)

def readLightLayer (kind : String) (maskIndex : Nat) : ChunkM WireLightLayer := do
  let bytes ← codec (readByteArray lightLayerBytes)
  if bytes.length ≠ lightLayerBytes then
    Mut.fail (.lightLayerLength kind bytes.length lightLayerBytes)
  else pure ⟨maskIndex, bytes⟩

def decodeLightLayers (kind : String) (mask : List UInt64) : ChunkM (List WireLightLayer) := do
  let expected := countBits mask
  let count ← readCount "light layer" maxLightLayers
  if count ≠ expected then Mut.fail (.lightLayerCount kind expected count)
  else (setBitIndices mask).mapM (readLightLayer kind)

def decodeLightData : ChunkM WireLightData := do
  let limits : BitSetLimits := ⟨2, maxLightLayers⟩
  let sky ← codec (readBitSet limits)
  let block ← codec (readBitSet limits)
  let emptySky ← codec (readBitSet limits)
  let emptyBlock ← codec (readBitSet limits)
  validateDisjoint "sky" sky.words emptySky.words
  validateDisjoint "block" block.words emptyBlock.words
  let skyLayers ← decodeLightLayers "sky" sky.words
  let blockLayers ← decodeLightLayers "block" block.words
  pure ⟨sky.words, block.words, emptySky.words, emptyBlock.words, skyLayers.length,
    blockLayers.length, skyLayers, blockLayers⟩

/-! ### The packet -/

def decodeLevelChunkWithLight : ChunkM LevelChunkWithLight := do
  let x ← codec readI32
  let z ← codec readI32
  let heightmaps ← decodeHeightmaps
  let sectionBytes ← codec (readByteArray maxChunkDataBytes)
  let sections ← onSlice (decodeSections sectionBytes)
  let blockEntities ← decodeBlockEntities layout
  let light ← decodeLightData
  pure ⟨x, z, sections, heightmaps, blockEntities, light⟩

def decodeLightUpdate : ChunkM LightUpdate := do
  let x ← codec readVarInt
  let z ← codec readVarInt
  let light ← decodeLightData
  pure ⟨x, z, light⟩

/-! ### What the decoder bounds -/

variable {layout}

theorem readCount_le {context : String} {max count : Nat} {r r' : CodecReader}
    (h : readCount context max r = .ok count r') : count ≤ max := by
  obtain ⟨value, r₁, _, h⟩ := Mut.bind_eq_ok.mp h
  by_cases hneg : value < 0
  · rw [if_pos hneg] at h
    cases h
  · rw [if_neg hneg] at h
    split at h
    · cases h
    · rename_i hle
      cases h
      exact Nat.le_of_not_gt hle

theorem decodeBlockEntities_length {entities : List WireBlockEntity} {r r' : CodecReader}
    (h : decodeBlockEntities layout r = .ok entities r') : entities.length ≤ maxBlockEntities := by
  obtain ⟨count, r₁, hcount, h⟩ := Mut.bind_eq_ok.mp h
  rw [Mut.repeatCall_length count h]
  exact readCount_le hcount

theorem onSlice_eq_ok {α : Type} {outcome : Outcome ChunkDecodeError CodecReader α} {a : α}
    {r r' : CodecReader} (h : onSlice outcome r = .ok a r') : ∃ t, outcome = .ok a t := by
  cases outcome with
  | ok b t =>
    cases h
    exact ⟨t, rfl⟩
  | err e t => cases h
  | panic => cases h

/-- The sections and the block entities come from decoders of their own. -/
theorem decodeLevelChunkWithLight_parts {chunk : LevelChunkWithLight} {r r' : CodecReader}
    (h : decodeLevelChunkWithLight layout r = .ok chunk r') :
    (∃ bytes t, decodeSections bytes = .ok chunk.sections t) ∧
      ∃ before after, decodeBlockEntities layout before = .ok chunk.blockEntities after := by
  obtain ⟨x, r₁, _, h⟩ := Mut.bind_eq_ok.mp h
  obtain ⟨z, r₂, _, h⟩ := Mut.bind_eq_ok.mp h
  obtain ⟨heightmaps, r₃, _, h⟩ := Mut.bind_eq_ok.mp h
  obtain ⟨bytes, r₄, _, h⟩ := Mut.bind_eq_ok.mp h
  obtain ⟨sections, r₅, hsections, h⟩ := Mut.bind_eq_ok.mp h
  obtain ⟨blockEntities, r₆, hentities, h⟩ := Mut.bind_eq_ok.mp h
  obtain ⟨light, r₇, _, h⟩ := Mut.bind_eq_ok.mp h
  cases h
  exact ⟨⟨bytes, onSlice_eq_ok hsections⟩, r₅, r₆, hentities⟩

theorem decodeLevelChunkWithLight_blockEntities {chunk : LevelChunkWithLight} {r r' : CodecReader}
    (h : decodeLevelChunkWithLight layout r = .ok chunk r') :
    chunk.blockEntities.length ≤ maxBlockEntities := by
  obtain ⟨_, _, _, hentities⟩ := decodeLevelChunkWithLight_parts h
  exact decodeBlockEntities_length hentities

end Chunk

end Cubic
