import Cubic.Nbt.Decode
import Cubic.Nbt.Lookup
import Cubic.Play.Protocol
import Cubic.Version.Identifier

/-!
# The values of item components (`bootstrap/v775/inventory.rs`)

A component of a stack that the server sends has no length. The reader of its codec has to
walk over it to find the next one.
-/

namespace Cubic.ItemWire

set_option autoImplicit false

def maxContainerSlots : Nat := 512
def maxComponentsPerStack : Nat := 256
def maxComponentValueBytes : Nat := 1024 * 1024
def maxStackCount : Nat := 99
def maxChangedSlots : Nat := 128
def maxBannerPatternLayers : Nat := 20
def bannerPatternAssetLimits : StringLimits := ⟨256, 1024⟩
def bannerPatternTranslationLimits : StringLimits := ⟨256, 1024⟩
def titleLimits : StringLimits := ⟨32767, 32767⟩

/-- `StringLimits::new(32_767, 98_301)` -/
def componentStringLimits : StringLimits := ⟨32767, 98301⟩

/-- `StringLimits::new(256, 1_024)` -/
def inlineIdentifierLimits : StringLimits := ⟨256, 1024⟩

inductive ComponentCodec where
  | unit
  | varInt
  | i32
  | f32
  | bool
  | string
  | nbt
  | nbtList
  | varIntPairs
  | varIntList
  | stringPairs
  | useEffects
  | food
  | weapon
  | attackRange
  | customModelData
  | tooltipDisplay
  | potionContents
  | bannerPatterns
  | fireworks
  | instrument
  | paintingVariant
  | twoVarInts
  | unsupported
  deriving DecidableEq

inductive InventoryCodecError where
  | bootstrap (e : BootstrapProtocolError)
  | codec (e : CodecError)
  | nbt (e : NbtError)
  | missingRegistry (registry : String)
  | unsupportedComponentCodec (identifier : MinecraftIdentifier)
  | unknownItemId (rawId : UInt32)
  | unknownComponentId (rawId : UInt32)
  | unknownMenuId (rawId : UInt32)
  | unknownItem (item : MinecraftIdentifier)
  | unknownComponent (component : MinecraftIdentifier)
  | unknownBannerPatternId (rawId : UInt32)
  | unknownBannerPattern (pattern : MinecraftIdentifier)
  | invalidBannerPatternIdentifier (value : String)
  | invalidInlineIdentifier (value : String)
  | invalidDyeColor (dye : UInt32)
  | duplicateComponent (component : MinecraftIdentifier)
  | negativeValue (context : String) (value : Int32)
  | countTooLarge (context : String) (count max : Nat)
  | valueOutOfRange (context : String) (value max : Int)
  | trailingData (remaining : Nat)
  | payloadTooLarge (context : String) (size max : Nat)
  | tooManyChangedSlots (count max : Nat)
  | componentNestingTooDeep (max : Nat)
  | internalCodecDispatch (reason : String)
  deriving DecidableEq

abbrev ItemM := Mut CodecReader InventoryCodecError

/-- The arms of `component_codec`. -/
def componentCodecs : List (List String × ComponentCodec) := [
  (["minecraft:unbreakable", "minecraft:creative_slot_lock", "minecraft:intangible_projectile",
    "minecraft:glider"], .unit),
  (["minecraft:max_stack_size", "minecraft:max_damage", "minecraft:damage",
    "minecraft:repair_cost", "minecraft:enchantable", "minecraft:map_id",
    "minecraft:map_post_processing", "minecraft:ominous_bottle_amplifier",
    "minecraft:additional_trade_cost"], .varInt),
  (["minecraft:rarity", "minecraft:dye", "minecraft:base_color", "minecraft:villager/variant",
    "minecraft:wolf/variant", "minecraft:wolf/sound_variant", "minecraft:wolf/collar",
    "minecraft:fox/variant", "minecraft:salmon/size", "minecraft:parrot/variant",
    "minecraft:tropical_fish/pattern", "minecraft:tropical_fish/base_color",
    "minecraft:tropical_fish/pattern_color", "minecraft:mooshroom/variant",
    "minecraft:rabbit/variant", "minecraft:pig/variant", "minecraft:pig/sound_variant",
    "minecraft:cow/variant", "minecraft:cow/sound_variant", "minecraft:frog/variant",
    "minecraft:horse/variant", "minecraft:llama/variant", "minecraft:axolotl/variant",
    "minecraft:cat/variant", "minecraft:cat/sound_variant", "minecraft:cat/collar",
    "minecraft:sheep/color", "minecraft:shulker/color"], .varInt),
  (["minecraft:dyed_color", "minecraft:map_color"], .i32),
  (["minecraft:minimum_attack_charge", "minecraft:potion_duration_scale"], .f32),
  (["minecraft:enchantment_glint_override"], .bool),
  (["minecraft:item_model", "minecraft:damage_resistant", "minecraft:note_block_sound",
    "minecraft:tooltip_style", "minecraft:provides_banner_patterns"], .string),
  (["minecraft:custom_data", "minecraft:custom_name", "minecraft:item_name",
    "minecraft:bucket_entity_data", "minecraft:container_loot", "minecraft:debug_stick_state",
    "minecraft:lock", "minecraft:map_decorations", "minecraft:recipes"], .nbt),
  (["minecraft:lore"], .nbtList),
  (["minecraft:enchantments", "minecraft:stored_enchantments",
    "minecraft:suspicious_stew_effects"], .varIntPairs),
  (["minecraft:pot_decorations"], .varIntList),
  (["minecraft:block_state"], .stringPairs),
  (["minecraft:use_effects"], .useEffects),
  (["minecraft:food"], .food),
  (["minecraft:weapon"], .weapon),
  (["minecraft:swing_animation"], .twoVarInts),
  (["minecraft:attack_range"], .attackRange),
  (["minecraft:custom_model_data"], .customModelData),
  (["minecraft:tooltip_display"], .tooltipDisplay),
  (["minecraft:potion_contents"], .potionContents),
  (["minecraft:banner_patterns"], .bannerPatterns),
  (["minecraft:fireworks"], .fireworks),
  (["minecraft:instrument"], .instrument),
  (["minecraft:painting/variant"], .paintingVariant)]

def codecOfName (name : String) : ComponentCodec :=
  match componentCodecs.find? fun arm => arm.1.contains name with
  | some arm => arm.2
  | none => .unsupported

def componentCodec (identifier : MinecraftIdentifier) : ComponentCodec := codecOfName identifier.text

/-! ### Reading -/

/-- The `?` that turns a codec error into one of the inventory. -/
def onCodec {α : Type} (m : ReaderM α) : ItemM α := Mut.mapErr .codec m

def readNonnegative (context : String) : ItemM UInt32 := do
  let value ← onCodec readVarInt
  if value < 0 then Mut.fail (.negativeValue context value) else pure value.toUInt32

def readBoundedCount (context : String) (max : Nat) : ItemM Nat := do
  let value ← onCodec readVarInt
  if value < 0 then Mut.fail (.negativeValue context value)
  else if value.toInt.toNat > max then Mut.fail (.countTooLarge context value.toInt.toNat max)
  else pure value.toInt.toNat

def finish : ItemM Unit := do
  let r ← Mut.get
  if r.remaining ≠ 0 then Mut.fail (.trailingData r.remaining) else pure ()

/-- `for _ in 0..count { let _ = read()?; }` -/
def skipTimes {α : Type} (m : ItemM α) (count : Nat) : ItemM Unit := do
  let _ ← Mut.repeatCall m count
  pure ()

/-- A bounded count and so many values. -/
def skipList {α : Type} (context : String) (m : ItemM α) : ItemM Unit := do
  let count ← readBoundedCount context 256
  skipTimes m count

def skip {α : Type} (m : ItemM α) : ItemM Unit := do
  let _ ← m
  pure ()

def skipVarInt : ItemM Unit := skip (onCodec readVarInt)

def skipI32 : ItemM Unit := skip (onCodec readI32)

def skipF32 : ItemM Unit := skip (onCodec readF32)

def skipBool : ItemM Unit := skip (onCodec readBool)

def skipString : ItemM Unit := skip (onCodec (readString componentStringLimits))

/-- `if reader.read_bool()? { read()?; }` -/
def skipOptional (m : ItemM Unit) : ItemM Unit := do
  let present ← onCodec readBool
  if present then m else pure ()

/-- A holder is zero before a direct value, else the raw id of a reference plus one. -/
def skipRegistryHolder (skipDirect : ItemM Unit) : ItemM Unit := do
  let holder ← readNonnegative "registry holder"
  if holder = 0 then skipDirect else pure ()

def skipInlineIdentifier : ItemM Unit := do
  let identifier ← onCodec (readString inlineIdentifierLimits)
  match MinecraftIdentifier.new identifier with
  | .ok _ => pure ()
  | .error _ => Mut.fail (.invalidInlineIdentifier identifier)

def skipExplosion : ItemM Unit := do
  let shape ← readNonnegative "firework shape"
  if shape > 4 then Mut.fail (.valueOutOfRange "firework shape" shape.toNat 4)
  else do
    skipList "firework colors" skipI32
    skipList "firework fade colors" skipI32
    skipBool
    skipBool

def skipFireworks : ItemM Unit := do
  skipVarInt
  skipList "firework explosions" skipExplosion

def skipSoundEvent : ItemM Unit := do
  skipInlineIdentifier
  skipOptional skipF32

def skipF32List : ItemM Unit := skipList "component float list" skipF32

def skipBoolList : ItemM Unit := skipList "component boolean list" skipBool

def skipStringList : ItemM Unit := skipList "component string list" skipString

/-- `left` counts the depths below 16. -/
def skipEffectDetail : Nat → ItemM Unit
  | 0 => Mut.fail (.componentNestingTooDeep 16)
  | left + 1 => do
    skipVarInt
    skipVarInt
    skipBool
    skipBool
    skipBool
    skipOptional (skipEffectDetail left)

def skipPotionEffect : ItemM Unit := do
  skipVarInt
  skipEffectDetail 16

def skipPotionContents : ItemM Unit := do
  skipOptional skipVarInt
  skipOptional skipI32
  skipList "custom potion effects" skipPotionEffect
  skipOptional skipString

section Layout
variable (layout : NbtLayout)

def skipNbt : ItemM Unit := skip (onReader .nbt (decodeUnnamedNetworkTag .default layout))

def skipInstrument : ItemM Unit := do
  skipRegistryHolder skipSoundEvent
  skipF32
  skipF32
  skipNbt layout

def skipPaintingVariant : ItemM Unit := do
  skip (readNonnegative "painting width")
  skip (readNonnegative "painting height")
  skipInlineIdentifier
  skipTimes (skipOptional (skipNbt layout)) 2

def skipComponent (codec : ComponentCodec) (identifier : MinecraftIdentifier) : ItemM Unit :=
  match codec with
  | .unit => pure ()
  | .varInt => skipVarInt
  | .i32 => skipI32
  | .f32 => skipF32
  | .bool => skipBool
  | .string => skipString
  | .nbt => skipNbt layout
  | .nbtList => skipList "component NBT list" (skipNbt layout)
  | .varIntPairs => skipList "component pair list" do
    skipVarInt
    skipVarInt
  | .varIntList => skipList "component integer list" skipVarInt
  | .stringPairs => skipList "component string map" do
    skipString
    skipString
  | .useEffects => do
    skipBool
    skipBool
    skipF32
  | .food => do
    skipVarInt
    skipF32
    skipBool
  | .weapon => do
    skipVarInt
    skipF32
  | .twoVarInts => do
    skipVarInt
    skipVarInt
  | .attackRange => skipTimes skipF32 6
  | .customModelData => do
    skipF32List
    skipBoolList
    skipStringList
    skipList "custom model colors" skipI32
  | .tooltipDisplay => do
    skipBool
    skipList "hidden tooltip components" skipVarInt
  | .potionContents => skipPotionContents
  | .fireworks => skipFireworks
  | .instrument => skipRegistryHolder (skipInstrument layout)
  | .paintingVariant => skipRegistryHolder (skipPaintingVariant layout)
  | .bannerPatterns => Mut.fail
    (.internalCodecDispatch "banner-pattern component bypassed its semantic decoder")
  | .unsupported => Mut.fail (.unsupportedComponentCodec identifier)

end Layout

/-! ### Fingerprints -/

def crc32cBit (crc : UInt32) : UInt32 := (crc >>> 1) ^^^ (0x82f63b78 &&& (0 - (crc &&& 1)))

def crc32cByte (crc : UInt32) (byte : UInt8) : UInt32 :=
  (List.replicate 8 ()).foldl (fun crc _ => crc32cBit crc) (crc ^^^ byte.toUInt32)

def crc32c (bytes : Bytes) : UInt32 := ~~~ bytes.foldl crc32cByte (~~~ 0)

/-- `i32::to_le_bytes` -/
def littleEndianI32 (value : Int32) : Bytes := (writeI32 value).reverse

def primitiveHashPayload (tag : UInt8) (bytes : Bytes) : Bytes := tag :: bytes

/-- The bytes that are hashed of a component's value; none of a value that is not hashed. -/
def hashPayload : ComponentCodec → ItemM (Option Bytes)
  | .unit => pure (some [2, 3])
  | .varInt => do
    let value ← onCodec readVarInt
    pure (some (primitiveHashPayload 8 (littleEndianI32 value)))
  | .i32 => do
    let value ← onCodec readI32
    pure (some (primitiveHashPayload 8 (littleEndianI32 value)))
  | .f32 => do
    let value ← onCodec readF32
    pure (some (primitiveHashPayload 10 (writeF32 value).reverse))
  | .bool => do
    let value ← onCodec readBool
    pure (some [13, if value then 1 else 0])
  | .string => do
    let value ← onCodec (readString componentStringLimits)
    let units := encodeUtf16 value
    if units.length ≤ i32Max then
      pure (some (12 :: littleEndianI32 (.ofNat units.length) ++
        units.flatMap fun unit => (writeU16 unit).reverse))
    else Mut.fail (.valueOutOfRange "component string length" units.length i32Max)
  | _ => pure none

def hashValue (codec : ComponentCodec) : ItemM (Option Int32) := do
  match ← hashPayload codec with
  | none => pure none
  | some payload => do
    finish
    pure (some (crc32c payload).toInt32)

end Cubic.ItemWire
