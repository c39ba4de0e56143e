import Cubic.Codec.Writer
import Cubic.Nbt.Tag
import Cubic.Play.BlockUpdate

/-!
# Chunk sections (`v775/chunk.rs`, `world_adapter.rs`, `chunk.rs`)

The decoder of the section buffer, the adapter that maps its palettes, and the lookups of
the world.
-/

namespace Cubic

set_option autoImplicit false

def maxChunkSections : Nat := 64
def blockEntries : Nat := 4096
def biomeEntries : Nat := 64
def maxBlockBits : UInt8 := 15
def maxBiomeBits : UInt8 := 15

inductive WirePalettedContainer where
  | single (value : UInt32) (entries : Nat)
  | indirect (palette : List UInt32) (indices : List UInt16)
  | direct (values : List UInt32)
  deriving DecidableEq

structure WireChunkSection where
  nonEmptyBlockCount : UInt16
  fluidCount : UInt16
  blocks : WirePalettedContainer
  biomes : WirePalettedContainer
  deriving DecidableEq

inductive ChunkDecodeError where
  | codec (e : CodecError)
  | nbt (e : NbtError)
  | negative (context : String) (value : Int32)
  | countTooLarge (context : String) (count max : Nat)
  | invalidBits (container : String) (bits : UInt8)
  | invalidPaletteLength (container : String) (length : Nat) (bits : UInt8)
  | duplicatePaletteValue (container : String) (value : UInt32)
  | paletteIndexOutOfRange (container : String) (entry index paletteLen : Nat)
  | packedWordCount (container : String) (expected actual : Nat)
  | sectionLimit (max : Nat)
  | emptySections
  | invalidSectionCount (field : String) (value : Int16) (max : Nat)
  | duplicateHeightmap (kindRawId : UInt32)
  | invalidBlockEntityNbt
  | overlappingLightMasks (kind : String)
  | lightLayerCount (kind : String) (maskBits layers : Nat)
  | lightLayerLength (kind : String) (length expected : Nat)
  deriving DecidableEq

abbrev ChunkM := Mut CodecReader ChunkDecodeError

inductive ContainerKind where
  | blocks
  | biomes
  deriving DecidableEq

namespace ContainerKind

def name : ContainerKind → String
  | blocks => "block-state"
  | biomes => "biome"

def entries : ContainerKind → Nat
  | blocks => blockEntries
  | biomes => biomeEntries

def maxBits : ContainerKind → UInt8
  | blocks => maxBlockBits
  | biomes => maxBiomeBits

def localMax : ContainerKind → UInt8
  | blocks => 8
  | biomes => 3

def storageBits (kind : ContainerKind) (wireBits : UInt8) : UInt8 :=
  match kind with
  | blocks => if 0 < wireBits ∧ wireBits < 4 then 4 else wireBits
  | biomes => wireBits

end ContainerKind

namespace Chunk

/-- The `?` that turns a codec error into a chunk error. -/
def codec {α : Type} (m : ReaderM α) : ChunkM α := Mut.mapErr .codec m

def readRuntimeId (context : String) : ChunkM UInt32 := do
  let value ← codec readVarInt
  if 0 ≤ value then pure value.toUInt32 else Mut.fail (.negative context value)

def readCount (context : String) (max : Nat) : ChunkM Nat := do
  let value ← codec readVarInt
  if value < 0 then Mut.fail (.negative context value)
  else if value.toInt.toNat > max then Mut.fail (.countTooLarge context value.toInt.toNat max)
  else pure value.toInt.toNat

def packedWordCount (bits : UInt8) (entries : Nat) : Option Nat :=
  if bits = 0 then none
  else
    let perWord := 64 / bits.toNat
    if perWord ≠ 0 then some ((entries + perWord - 1) / perWord) else none

/-- One pass of the unpacking loop; the index into `words` may be out of bounds. -/
def unpackEntry (words : List UInt64) (bits : UInt8) (index : Nat) : Option UInt16 :=
  let perWord := 64 / bits.toNat
  let mask : UInt64 := ((1 : UInt64) <<< bits.toUInt64) - 1
  match words[index / perWord]? with
  | none => none
  | some word =>
    let shift := index % perWord * bits.toNat
    some ((word >>> .ofNat shift) &&& mask).toUInt16

def unpackPacked (words : List UInt64) (bits : UInt8) (entries : Nat) (context : String) :
    ChunkM (List UInt16) :=
  match packedWordCount bits entries with
  | none => Mut.fail (.invalidBits context bits)
  | some expected =>
    if words.length ≠ expected then Mut.fail (.packedWordCount context expected words.length)
    else Mut.ofOption ((List.range entries).mapM (unpackEntry words bits))

def readPacked (bits : UInt8) (entries : Nat) (context : String) : ChunkM (List UInt16) := do
  match packedWordCount bits entries with
  | none => Mut.fail (.invalidBits context bits)
  | some count => do
    let words ← Mut.repeatCall (codec readU64) count
    unpackPacked words bits entries context

/-- `left` more values, none of which is in `palette` yet. -/
def readPalette (kind : ContainerKind) : Nat → List UInt32 → ChunkM (List UInt32)
  | 0, palette => pure palette
  | left + 1, palette => do
    let value ← readRuntimeId kind.name
    if value ∈ palette then Mut.fail (.duplicatePaletteValue kind.name value)
    else readPalette kind left (palette ++ [value])

/-- The first entry whose index is outside the palette is an error. -/
def checkIndices (kind : ContainerKind) (paletteLen : Nat) : Nat → List UInt16 → ChunkM Unit
  | _, [] => pure ()
  | entry, index :: indices =>
    if index.toNat ≥ paletteLen then
      Mut.fail (.paletteIndexOutOfRange kind.name entry index.toNat paletteLen)
    else checkIndices kind paletteLen (entry + 1) indices

def decodeContainer (kind : ContainerKind) : ChunkM WirePalettedContainer := do
  let wireBits ← codec readU8
  if wireBits > kind.maxBits then Mut.fail (.invalidBits kind.name wireBits)
  else if wireBits = 0 then do
    let value ← readRuntimeId kind.name
    pure (.single value kind.entries)
  else
    let storageBits := kind.storageBits wireBits
    if wireBits ≤ kind.localMax then do
      let paletteLen ← readCount "palette" (2 ^ storageBits.toNat)
      if paletteLen = 0 ∨ paletteLen > 2 ^ storageBits.toNat then
        Mut.fail (.invalidPaletteLength kind.name paletteLen storageBits)
      else do
        let palette ← readPalette kind paletteLen []
        let indices ← readPacked storageBits kind.entries kind.name
        checkIndices kind palette.length 0 indices
        pure (.indirect palette indices)
    else do
      let raw ← readPacked storageBits kind.entries kind.name
      pure (.direct (raw.map UInt16.toUInt32))

def validateSectionCount (field : String) (value : Int16) (max : Nat) : ChunkM Unit :=
  if value < 0 ∨ value.toUInt16.toNat > max then Mut.fail (.invalidSectionCount field value max)
  else pure ()

def decodeSection : ChunkM WireChunkSection := do
  let nonEmpty ← codec readI16
  validateSectionCount "non-empty block count" nonEmpty blockEntries
  let fluid ← codec readI16
  validateSectionCount "fluid count" fluid blockEntries
  let blocks ← decodeContainer .blocks
  let biomes ← decodeContainer .biomes
  pure ⟨nonEmpty.toUInt16, fluid.toUInt16, blocks, biomes⟩

/-- The loop over the input, with room for `left` more sections. -/
def untilConsumed {α : Type} (decode : ChunkM α) : Nat → ChunkM (List α)
  | 0 => do
    let r ← Mut.get
    if r.remaining = 0 then pure [] else Mut.fail (.sectionLimit maxChunkSections)
  | left + 1 => do
    let r ← Mut.get
    if r.remaining = 0 then pure []
    else do
      let value ← decode
      let rest ← untilConsumed decode left
      pure (value :: rest)

def decodeSections (bytes : Bytes) : Outcome ChunkDecodeError CodecReader (List WireChunkSection) :=
  (do
    let sections ← untilConsumed decodeSection maxChunkSections
    if sections.isEmpty then Mut.fail .emptySections else pure sections : ChunkM _) (.new bytes)

end Chunk

/-! ### The world's sections -/

inductive PalettedContainer (T : Type) where
  | single (value : T) (entries : Nat)
  | indirect (palette : List T) (indices : List UInt16)
  | direct (values : List T)
  deriving DecidableEq

namespace PalettedContainer
variable {T : Type}

def len : PalettedContainer T → Nat
  | single _ entries => entries
  | indirect _ indices => indices.length
  | direct values => values.length

def get (c : PalettedContainer T) (index : Nat) : Option T :=
  match c with
  | single value entries => if index < entries then some value else none
  | indirect palette indices => indices[index]?.bind fun paletteIndex => palette[paletteIndex.toNat]?
  | direct values => values[index]?

end PalettedContainer

structure RuntimeBiomeId where
  id : UInt32
  deriving DecidableEq

structure ChunkSection where
  nonEmptyBlockCount : UInt16
  fluidCount : UInt16
  blocks : PalettedContainer RuntimeBlockStateId
  biomes : PalettedContainer RuntimeBiomeId
  deriving DecidableEq

def sectionIndex (x y z : UInt8) (width : Nat) : Option Nat :=
  if x.toNat ≥ width ∨ y.toNat ≥ width ∨ z.toNat ≥ width then none
  else do
    let row ← checkedMul y.toNat width
    let row ← checkedAdd row z.toNat
    let row ← checkedMul row width
    checkedAdd row x.toNat

namespace ChunkSection

def block (s : ChunkSection) (x y z : UInt8) : Option RuntimeBlockStateId :=
  (sectionIndex x y z 16).bind s.blocks.get

def biome (s : ChunkSection) (x y z : UInt8) : Option RuntimeBiomeId :=
  (sectionIndex x y z 4).bind s.biomes.get

end ChunkSection

def mapPalette {T : Type} (palette : WirePalettedContainer) (map : UInt32 → T) :
    PalettedContainer T :=
  match palette with
  | .single value entries => .single (map value) entries
  | .indirect palette indices => .indirect (palette.map map) indices
  | .direct values => .direct (values.map map)

def semanticSection (wire : WireChunkSection) : ChunkSection where
  nonEmptyBlockCount := wire.nonEmptyBlockCount
  fluidCount := wire.fluidCount
  blocks := mapPalette wire.blocks RuntimeBlockStateId.mk
  biomes := mapPalette wire.biomes RuntimeBiomeId.mk

end Cubic
