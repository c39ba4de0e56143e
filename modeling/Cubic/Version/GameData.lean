import Cubic.Lib.BinarySearch
import Cubic.Lib.OrderedMap
import Cubic.Version.Identifier

/-!
# Generated game data (`game_data.rs`)

The artifact, its validation and the lookups. Of the provenance only the source is checked.
-/

namespace Cubic.Version

set_option autoImplicit false

open BinarySearch

def maxRegistries : Nat := 512
def maxEntriesPerRegistry : Nat := 65536
def maxBlocks : Nat := 8192
def maxPropertiesPerBlock : Nat := 64
def maxValuesPerProperty : Nat := 256

/-- `GameDataFormatVersion::CURRENT` -/
def currentFormatVersion : UInt32 := 1

structure RegistryEntry where
  identifier : MinecraftIdentifier
  rawId : UInt32
  deriving DecidableEq

structure RegistryTable where
  identifier : MinecraftIdentifier
  entries : List RegistryEntry
  deriving DecidableEq

structure BlockProperty where
  name : String
  values : List String
  deriving DecidableEq

structure BlockState where
  stateId : UInt32
  properties : OrderedMap String String
  deriving DecidableEq

structure BlockDefinition where
  identifier : MinecraftIdentifier
  rawId : UInt32
  defaultStateId : UInt32
  properties : List BlockProperty
  states : List BlockState
  deriving DecidableEq

structure GameDataArtifact where
  schemaVersion : UInt32
  provenanceSource : String
  registries : List RegistryTable
  blocks : List BlockDefinition

inductive GameDataError where
  | unsupportedGameDataFormat (found supported : UInt32)
  | invalid (e : VersionError)
  deriving DecidableEq

/-! ### Lookups -/

namespace RegistryTable

def byIdentifier (table : RegistryTable) (identifier : MinecraftIdentifier) : Option RegistryEntry :=
  search RegistryEntry.identifier table.entries identifier

def byRawId (table : RegistryTable) (rawId : UInt32) : Option RegistryEntry :=
  table.entries.find? fun entry => entry.rawId = rawId

end RegistryTable

namespace BlockDefinition

def state (block : BlockDefinition) (stateId : UInt32) : Option BlockState :=
  search BlockState.stateId block.states stateId

def stateForProperties (block : BlockDefinition) (properties : OrderedMap String String) :
    Option BlockState :=
  block.states.find? fun state => state.properties = properties

end BlockDefinition

namespace GameDataArtifact

def registry (artifact : GameDataArtifact) (identifier : MinecraftIdentifier) :
    Option RegistryTable :=
  search RegistryTable.identifier artifact.registries identifier

def block (artifact : GameDataArtifact) (identifier : MinecraftIdentifier) :
    Option BlockDefinition :=
  search BlockDefinition.identifier artifact.blocks identifier

def blockByRawId (artifact : GameDataArtifact) (rawId : UInt32) : Option BlockDefinition :=
  artifact.blocks.find? fun block => block.rawId = rawId

def blockState (artifact : GameDataArtifact) (stateId : UInt32) :
    Option (BlockDefinition × BlockState) :=
  artifact.blocks.findSome? fun block => (block.state stateId).map fun state => (block, state)

def itemRegistry : MinecraftIdentifier := ⟨"minecraft:item", by decide +kernel⟩

def entityTypeRegistry : MinecraftIdentifier := ⟨"minecraft:entity_type", by decide +kernel⟩

def item (artifact : GameDataArtifact) (identifier : MinecraftIdentifier) : Option RegistryEntry :=
  (artifact.registry itemRegistry).bind (·.byIdentifier identifier)

def itemByRawId (artifact : GameDataArtifact) (rawId : UInt32) : Option RegistryEntry :=
  (artifact.registry itemRegistry).bind (·.byRawId rawId)

def entityType (artifact : GameDataArtifact) (identifier : MinecraftIdentifier) :
    Option RegistryEntry :=
  (artifact.registry entityTypeRegistry).bind (·.byIdentifier identifier)

def entityTypeByRawId (artifact : GameDataArtifact) (rawId : UInt32) : Option RegistryEntry :=
  (artifact.registry entityTypeRegistry).bind (·.byRawId rawId)

end GameDataArtifact

/-! ### Validation -/

def invalid {α : Type} (reason : String) : Except GameDataError α := .error (.invalid ⟨reason⟩)

/-- `if condition { return invalid(reason) }` -/
def reject (condition : Prop) [Decidable condition] (reason : String) : Except GameDataError Unit :=
  if condition then invalid reason else .ok ()

def okOrInvalid {α : Type} (o : Option α) (reason : String) : Except GameDataError α :=
  match o with
  | some a => .ok a
  | none => invalid reason

def ensureSortedUnique {κ : Type} [LinearOrder κ] (label : String) :
    Option κ → List κ → Except GameDataError Unit
  | _, [] => .ok ()
  | previous, value :: rest => do
    reject (previous.any fun prior => value ≤ prior) ("duplicate or unsorted " ++ label)
    ensureSortedUnique label (some value) rest

def validatePropertyToken (value : String) : Except GameDataError Unit :=
  reject (value.isEmpty ∨ 128 < value.utf8ByteSize ∨ value.toList.any isControl)
    "block property name/value is empty, overlong, or contains controls"

/-- A raw id is inserted a second time. -/
def repeatsRawId : OrderedSet UInt32 → List RegistryEntry → Bool
  | _, [] => false
  | rawIds, entry :: rest =>
    (rawIds.lookup entry.rawId).isSome || repeatsRawId (rawIds.insert entry.rawId ()) rest

def validateRegistry (registry : RegistryTable) : Except GameDataError Unit := do
  reject (maxEntriesPerRegistry < registry.entries.length) "registry exceeds entry count limit"
  ensureSortedUnique "registry entry identifier" none (registry.entries.map (·.identifier))
  reject (repeatsRawId OrderedMap.empty registry.entries) "registry contains duplicate raw IDs"

def validateProperty (property : BlockProperty) : Except GameDataError Unit := do
  validatePropertyToken property.name
  reject (property.values.isEmpty ∨ maxValuesPerProperty < property.values.length)
    "block property has an invalid value count"
  ensureSortedUnique "block property value" none property.values
  property.values.forM validatePropertyToken

def validateStateProperty (state : BlockState) (property : BlockProperty) :
    Except GameDataError Unit := do
  let value ← okOrInvalid (state.properties.lookup property.name)
    "block state is missing a property"
  reject (value ∉ property.values) "block state uses an impossible property value"

/-- The states of a block, with the state ids of all blocks so far. -/
def validateStates (block : BlockDefinition) :
    Option UInt32 → OrderedSet UInt32 → List BlockState → Except GameDataError (OrderedSet UInt32)
  | _, globalStateIds, [] => .ok globalStateIds
  | previous, globalStateIds, state :: rest => do
    reject ((previous.any fun value => state.stateId ≤ value) ∨
        (globalStateIds.lookup state.stateId).isSome)
      "duplicate or unsorted block-state ID"
    reject (state.properties.size ≠ block.properties.length)
      "block state does not define every property exactly once"
    block.properties.forM (validateStateProperty state)
    validateStates block (some state.stateId) (globalStateIds.insert state.stateId ()) rest

def validateBlock (blockRegistry : RegistryTable) (globalStateIds : OrderedSet UInt32)
    (block : BlockDefinition) : Except GameDataError (OrderedSet UInt32) := do
  reject (maxPropertiesPerBlock < block.properties.length) "block exceeds property count limit"
  let registryEntry ← okOrInvalid (blockRegistry.byIdentifier block.identifier)
    ("block " ++ block.identifier.text ++ " is absent from minecraft:block")
  reject (registryEntry.rawId ≠ block.rawId)
    "block raw ID does not match minecraft:block registry"
  ensureSortedUnique "block property" none (block.properties.map (·.name))
  block.properties.forM validateProperty
  reject (block.states.isEmpty ∨ (block.state block.defaultStateId).isNone)
    "block has no states or its default state is missing"
  validateStates block none globalStateIds block.states

def validateBlocks (blockRegistry : RegistryTable) :
    OrderedSet UInt32 → List BlockDefinition → Except GameDataError Unit
  | _, [] => .ok ()
  | globalStateIds, block :: rest => do
    let globalStateIds ← validateBlock blockRegistry globalStateIds block
    validateBlocks blockRegistry globalStateIds rest

def validateArtifact (artifact : GameDataArtifact) : Except GameDataError Unit := do
  if artifact.schemaVersion ≠ currentFormatVersion then
    .error (.unsupportedGameDataFormat artifact.schemaVersion currentFormatVersion)
  else
    reject (artifact.provenanceSource ≠ "mojang_data_generator_reports")
      "unsupported or missing provenance source"
    reject (maxRegistries < artifact.registries.length ∨ maxBlocks < artifact.blocks.length)
      "artifact exceeds registry or block count limits"
    ensureSortedUnique "registry identifier" none (artifact.registries.map (·.identifier))
    artifact.registries.forM validateRegistry
    ensureSortedUnique "block identifier" none (artifact.blocks.map (·.identifier))
    let blockRegistry ← okOrInvalid
      (artifact.registries.find? fun registry => registry.identifier.text = "minecraft:block")
      "artifact has no minecraft:block registry"
    reject (blockRegistry.entries.length ≠ artifact.blocks.length)
      "minecraft:block entries and block definitions differ in count"
    validateBlocks blockRegistry OrderedMap.empty artifact.blocks

/-- An artifact that `GameData::new` accepts. -/
structure GameData where
  artifact : GameDataArtifact
  valid : validateArtifact artifact = .ok ()

end Cubic.Version
