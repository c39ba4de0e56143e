import Cubic.Bootstrap.Clientbound
import Cubic.Lib.Utf8
import Cubic.Nbt.Lookup
import Cubic.World.Model

/-! # The registries of the Configuration phase (`world_adapter.rs`) -/

namespace Cubic.Bootstrap

set_option autoImplicit false

open World NbtCompound

/-- What the registries raise of a `WorldAdapterError`. -/
inductive RegistryError where
  | identifier (message : String)
  | invalidInteger (field : String) (value : Int)
  | missingDimensionData (entry : String)
  | invalidDimensionData (entry : String)
  | missingDimensionField (entry field : String)
  | invalidBiomeField (registry entry path reason : String)
  deriving DecidableEq

abbrev Adapted (α : Type) := Except RegistryError α

def okOr {α : Type} (o : Option α) (e : RegistryError) : Adapted α :=
  match o with
  | some a => .ok a
  | none => .error e

def identifier (value : String) : Adapted MinecraftIdentifier :=
  (MinecraftIdentifier.new value).mapError fun e => .identifier e.message

def compoundEntries : NbtTag → Option (List (NbtString × NbtTree))
  | ⟨.compound entries, _⟩ => some entries
  | _ => none

def getInt (entries : List (NbtString × NbtTree)) (name : String) : Option Int32 :=
  match getStr entries name with
  | some (.int value) => some value
  | _ => none

/-- `u32::try_from` of a position -/
def rawIdOf (field : String) (rawId : Nat) : Adapted UInt32 :=
  if rawId < 2 ^ 32 then .ok (.ofNat rawId) else .error (.invalidInteger field (2 ^ 63 - 1))

/-- `enumerate`, `map` and `collect` -/
def adaptEntries {α : Type} (adapt : Nat → ConfigurationRegistryEntry → Adapted α)
    (entries : List ConfigurationRegistryEntry) : Adapted (List α) :=
  entries.zipIdx.mapM fun entry => adapt entry.2 entry.1

/-! ### Dimension types -/

def dimensionType (rawId : Nat) (entry : ConfigurationRegistryEntry) :
    Adapted RuntimeDimensionType := do
  let name ← identifier entry.identifier
  let data ← okOr entry.data (.missingDimensionData name.text)
  let compound ← okOr (compoundEntries data) (.invalidDimensionData name.text)
  let minY ← okOr (getInt compound "min_y") (.missingDimensionField name.text "min_y")
  let height ← okOr (getInt compound "height") (.missingDimensionField name.text "height")
  let rawId ← rawIdOf "dimension type raw ID" rawId
  if height < 0 then .error (.invalidInteger "dimension height" height.toInt)
  else pure ⟨rawId, name, ⟨minY, height.toUInt32⟩⟩

def dimensionTypes : List ConfigurationRegistryEntry → Adapted (List RuntimeDimensionType) :=
  adaptEntries dimensionType

/-! ### Biomes -/

def biomeRegistry : String := "minecraft:worldgen/biome"

def biomeField (entry : MinecraftIdentifier) (path reason : String) : RegistryError :=
  .invalidBiomeField biomeRegistry entry.text path reason

def nbtFloat (entries : List (NbtString × NbtTree)) (name : String) : Option F32 :=
  match getStr entries name with
  | some (.float bits) => if (⟨bits⟩ : F32).isFinite then some ⟨bits⟩ else none
  | _ => none

def hexDigit (c : Char) : Option Nat :=
  if '0' ≤ c ∧ c ≤ '9' then some (c.toNat - '0'.toNat)
  else if 'a' ≤ c ∧ c ≤ 'f' then some (c.toNat - 'a'.toNat + 10)
  else if 'A' ≤ c ∧ c ≤ 'F' then some (c.toNat - 'A'.toNat + 10)
  else none

/-- `u32::from_str_radix` of six bytes: a sign may stand before the digits. -/
def fromHex (digits : List Char) : Option Nat :=
  let digits := match digits with
    | '+' :: rest => rest
    | _ => digits
  if digits = [] then none
  else digits.foldlM (fun value c => (hexDigit c).map fun digit => value * 16 + digit) 0

/-- The text after `#`, if it has six bytes. -/
def stripHash : List Char → Option (List Char)
  | '#' :: hex => if Utf8.size hex = 6 then some hex else none
  | _ => none

def biomeColor (effects : List (NbtString × NbtTree)) (field path : String)
    (entry : MinecraftIdentifier) (required : Bool) : Adapted (Option UInt32) :=
  match getStr effects field with
  | none =>
    if required then .error (biomeField entry path "required hexadecimal NBT string is absent")
    else .ok none
  | some (.string value) => do
    let hex ← okOr (stripHash (decodeUtf16Lossy value))
      (biomeField entry path "expected color in #RRGGBB form")
    let color ← okOr (fromHex hex)
      (biomeField entry path "color contains non-hexadecimal digits")
    pure (some (.ofNat color))
  | some _ => .error (biomeField entry path "expected hexadecimal NBT string")

def biomeGrassModifier (effects : List (NbtString × NbtTree)) (entry : MinecraftIdentifier) :
    Adapted GrassColorModifier :=
  match getStr effects "grass_color_modifier" with
  | none => .ok .none
  | some (.string value) =>
    let name := value.toStringLossy
    if name = "none" then .ok .none
    else if name = "dark_forest" then .ok .darkForest
    else if name = "swamp" then .ok .swamp
    else .error (biomeField entry "effects.grass_color_modifier" "unknown modifier")
  | some _ => .error (biomeField entry "effects.grass_color_modifier" "expected NBT string")

def biomeEffects (compound : List (NbtString × NbtTree)) :
    Option (List (NbtString × NbtTree)) :=
  match getStr compound "effects" with
  | some (.compound effects) => some effects
  | _ => none

def biomeNumber (compound : List (NbtString × NbtTree)) (entry : MinecraftIdentifier)
    (name : String) : Adapted F32 :=
  okOr (nbtFloat compound name)
    (biomeField entry name "required finite NBT float is absent or has the wrong type")

def biome (rawId : Nat) (entry : ConfigurationRegistryEntry) : Adapted RuntimeBiome := do
  let name ← identifier entry.identifier
  let data ← okOr entry.data (biomeField name "entry data" "required compound is absent")
  let compound ← okOr (compoundEntries data)
    (biomeField name "entry data" "expected compound NBT")
  let temperature ← biomeNumber compound name "temperature"
  let downfall ← biomeNumber compound name "downfall"
  let effects ← okOr (biomeEffects compound)
    (biomeField name "effects" "required compound is absent or has the wrong NBT type")
  let water ← biomeColor effects "water_color" "effects.water_color" name true
  let waterColor ← okOr water
    (biomeField name "effects.water_color" "required hexadecimal NBT string is absent")
  let foliageColor ← biomeColor effects "foliage_color" "effects.foliage_color" name false
  let dryFoliageColor ← biomeColor effects "dry_foliage_color" "effects.dry_foliage_color" name
    false
  let grassColor ← biomeColor effects "grass_color" "effects.grass_color" name false
  let grassColorModifier ← biomeGrassModifier effects name
  let rawId ← rawIdOf "biome raw ID" rawId
  pure ⟨rawId, name, temperature, downfall, waterColor, foliageColor, dryFoliageColor, grassColor,
    grassColorModifier⟩

def biomes : List ConfigurationRegistryEntry → Adapted (List RuntimeBiome) := adaptEntries biome

end Cubic.Bootstrap
