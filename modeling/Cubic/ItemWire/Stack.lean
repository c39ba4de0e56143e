import Cubic.Codec.Extent
import Cubic.Codec.Frame
import Cubic.ItemWire.Profile

/-!
# Item stacks on the wire (`bootstrap/v775/inventory.rs`)

A stack comes from the server with its component values one after another, without lengths.
In the Creative slot packet each value goes out behind its length. The writers only append,
so each is the bytes that it appends.
-/

namespace Cubic.ItemWire

set_option autoImplicit false

structure DirectBannerPattern where
  assetId : MinecraftIdentifier
  translationKey : String
  deriving DecidableEq

inductive BannerPatternHolder where
  | reference (identifier : MinecraftIdentifier)
  | direct (pattern : DirectBannerPattern)
  deriving DecidableEq

structure BannerPatternLayer where
  pattern : BannerPatternHolder
  dyeRawId : UInt8
  deriving DecidableEq

structure BannerPatternLayers where
  layers : List BannerPatternLayer
  deriving DecidableEq

structure ComponentPatch where
  added : OrderedMap MinecraftIdentifier Bytes
  removed : OrderedSet MinecraftIdentifier
  hashes : OrderedMap MinecraftIdentifier Int32
  bannerPatterns : Option BannerPatternLayers
  deriving DecidableEq

def ComponentPatch.default : ComponentPatch := ⟨.empty, .empty, .empty, none⟩

structure ItemStack where
  item : MinecraftIdentifier
  count : UInt32
  components : ComponentPatch
  deriving DecidableEq

/-! ### Banner patterns -/

section Banner
variable (reference : UInt32 → Option MinecraftIdentifier)

/-- A pattern is written behind a zero, or known by its raw id plus one. -/
def readBannerPatternHolder : ItemM BannerPatternHolder := do
  let encodedHolder ← readNonnegative "banner-pattern holder"
  if encodedHolder = 0 then do
    let asset ← onCodec (readString bannerPatternAssetLimits)
    match MinecraftIdentifier.new asset with
    | .error _ => Mut.fail (.invalidBannerPatternIdentifier asset)
    | .ok assetId => do
      let translationKey ← onCodec (readString bannerPatternTranslationLimits)
      pure (.direct ⟨assetId, translationKey⟩)
  else
    match reference (encodedHolder - 1) with
    | none => Mut.fail (.unknownBannerPatternId (encodedHolder - 1))
    | some identifier => pure (.reference identifier)

def readBannerPatternLayer : ItemM BannerPatternLayer := do
  let pattern ← readBannerPatternHolder reference
  let dye ← readNonnegative "banner-pattern dye"
  if dye < 16 then pure ⟨pattern, dye.toUInt8⟩ else Mut.fail (.invalidDyeColor dye)

def decodeBannerPatternLayersWith : ItemM BannerPatternLayers := do
  let count ← readBoundedCount "banner-pattern layer" maxBannerPatternLayers
  let layers ← Mut.repeatCall (readBannerPatternLayer reference) count
  pure ⟨layers⟩

end Banner

def decodeBannerPatternLayers (profile : ItemStackProfile) : ItemM BannerPatternLayers :=
  decodeBannerPatternLayersWith profile.bannerPatterns.lookup

/-! ### Stacks from the server -/

section Decode
variable (layout : NbtLayout) (profile : ItemStackProfile)

/-- The value of a component is read over; that of banner patterns is kept. -/
def readComponent (codec : ComponentCodec) (identifier : MinecraftIdentifier) :
    ItemM (Option BannerPatternLayers) :=
  if codec = .bannerPatterns then do
    let patterns ← decodeBannerPatternLayers profile
    pure (some patterns)
  else do
    skipComponent layout codec identifier
    pure none

def ComponentPatch.add (patch : ComponentPatch) (identifier : MinecraftIdentifier) (bytes : Bytes)
    (hash : Option Int32) (bannerPatterns : Option BannerPatternLayers) : ComponentPatch where
  added := patch.added.insert identifier bytes
  removed := patch.removed
  hashes := hash.elim patch.hashes (patch.hashes.insert identifier)
  bannerPatterns := bannerPatterns.or patch.bannerPatterns

/-- One round of the loop over the added components. -/
def readAddedComponent (patch : ComponentPatch) : ItemM ComponentPatch := do
  let raw ← readNonnegative "component type"
  match profile.components.lookup raw with
  | none => Mut.fail (.unknownComponentId raw)
  | some (identifier, codec) => do
    let value ← withConsumed .codec (readComponent layout profile codec identifier)
    if value.2.length > maxComponentValueBytes then
      Mut.fail (.payloadTooLarge "item component" value.2.length maxComponentValueBytes)
    else if (patch.added.lookup identifier).isSome then Mut.fail (.duplicateComponent identifier)
    else do
      let hash ← componentHash profile identifier value.2
      pure (patch.add identifier value.2 hash value.1)

def readAddedComponents : Nat → ComponentPatch → ItemM ComponentPatch
  | 0, patch => pure patch
  | left + 1, patch => do
    let patch ← readAddedComponent layout profile patch
    readAddedComponents left patch

/-- One round of the loop over the removed components. -/
def readRemovedComponent (patch : ComponentPatch) : ItemM ComponentPatch := do
  let raw ← readNonnegative "removed component type"
  match profile.components.lookup raw with
  | none => Mut.fail (.unknownComponentId raw)
  | some (identifier, _) =>
    if (patch.added.lookup identifier).isSome ∨ (patch.removed.lookup identifier).isSome then
      Mut.fail (.duplicateComponent identifier)
    else pure { patch with removed := patch.removed.insert identifier () }

def readRemovedComponents : Nat → ComponentPatch → ItemM ComponentPatch
  | 0, patch => pure patch
  | left + 1, patch => do
    let patch ← readRemovedComponent profile patch
    readRemovedComponents left patch

def readComponentPatch : ItemM ComponentPatch := do
  let added ← readBoundedCount "added component count" maxComponentsPerStack
  let removed ← readBoundedCount "removed component count" (maxComponentsPerStack - added)
  let patch ← readAddedComponents layout profile added .default
  readRemovedComponents profile removed patch

def decodeNonemptyStack (count : Int32) (rawItem : UInt32) : ItemM ItemStack :=
  if count < 0 ∨ count.toInt > maxStackCount then
    Mut.fail (.valueOutOfRange "item count" count.toInt maxStackCount)
  else
    match profile.items.lookup rawItem with
    | none => Mut.fail (.unknownItemId rawItem)
    | some item => do
      let components ← readComponentPatch layout profile
      pure ⟨item, count.toUInt32, components⟩

def decodeItemStack : ItemM (Option ItemStack) := do
  let count ← onCodec readVarInt
  if count = 0 then pure none
  else do
    let rawItem ← readNonnegative "item ID"
    let stack ← decodeNonemptyStack layout profile count rawItem
    pure (some stack)

/-- The stack of an item particle, with the item before the count. -/
def decodeItemStackTemplate : ItemM ItemStack := do
  let rawItem ← readNonnegative "item ID"
  let count ← onCodec readVarInt
  decodeNonemptyStack layout profile count rawItem

end Decode

/-! ### The Creative slot packet -/

abbrev EncodeM := Mut Unit InventoryCodecError

section Encode
variable (profile : ItemStackProfile)

def maxBootstrapFrameSize : Nat := minecraftMaxFrameSize

def framed (packetId : Int32) (body : Bytes) : EncodeM Bytes :=
  Mut.ofExcept ((encodeFrame (writeVarInt packetId ++ body) maxBootstrapFrameSize).mapError .codec)

end Encode

end Cubic.ItemWire
