import Cubic.ItemWire.Component
import Cubic.Lib.Reverse
import Cubic.Version.Lookups

/-!
# The item profile of a connection (`ItemStackProfile`)

Identifiers and raw ids of one version, in both directions. The banner patterns come from the
server, which may name a pattern twice; the other registries hold an identifier once.
-/

namespace Cubic.ItemWire

set_option autoImplicit false

open Version OrderedMap

/-- The raw ids of a registry, each with an identifier of its own. -/
structure Numbering where
  entries : OrderedMap UInt32 MinecraftIdentifier
  distinct : entries.Injective

/-- `table.entries.iter().map(..).collect()` -/
def tableEntries (table : RegistryTable) : OrderedMap UInt32 MinecraftIdentifier :=
  ofList (table.entries.map fun entry => (entry.rawId, entry.identifier))

theorem tableEntries_injective {artifact : GameDataArtifact} (h : Validated artifact)
    {identifier : MinecraftIdentifier} {table : RegistryTable}
    (htable : artifact.registry identifier = some table) : (tableEntries table).Injective := by
  have hmem := ((h.indexes_registry identifier table).mp htable).1
  have hdistinct : (table.entries.map RegistryEntry.identifier).Nodup :=
    (h.entries table hmem).1.imp fun hlt => hlt.ne
  apply injective_ofList
  intro e he e' he' heq
  obtain ⟨entry, hentry, rfl⟩ := List.mem_map.mp he
  obtain ⟨entry', hentry', rfl⟩ := List.mem_map.mp he'
  rw [List.inj_on_of_nodup_map hdistinct hentry hentry' heq]

def registryEntries (data : GameData) (registry : MinecraftIdentifier) :
    Except InventoryCodecError Numbering :=
  match h : data.artifact.registry registry with
  | none => .error (.missingRegistry registry.text)
  | some table => .ok ⟨tableEntries table, tableEntries_injective (validated data) h⟩

def optionalRegistryEntries (data : GameData) (registry : MinecraftIdentifier) :
    OrderedMap UInt32 MinecraftIdentifier :=
  (data.artifact.registry registry).elim .empty tableEntries

/-- The identifiers of a registry with their codecs. -/
def withCodecs (entries : OrderedMap UInt32 MinecraftIdentifier) :
    OrderedMap UInt32 (MinecraftIdentifier × ComponentCodec) :=
  ofList (entries.entries.map fun e => (e.1, (e.2, componentCodec e.2)))

theorem lookup_withCodecs (entries : OrderedMap UInt32 MinecraftIdentifier) (raw : UInt32) :
    (withCodecs entries).lookup raw =
      (entries.lookup raw).map fun identifier => (identifier, componentCodec identifier) := by
  have hkeys : ((entries.entries.map fun e => (e.1, (e.2, componentCodec e.2))).map Prod.fst) =
      entries.keys := List.map_map
  unfold withCodecs
  rw [lookup_ofList (hkeys ▸ entries.keys_nodup), Entries.lookup_map fun identifier =>
    (identifier, componentCodec identifier)]
  rfl

structure ItemStackProfile where
  items : OrderedMap UInt32 MinecraftIdentifier
  itemRawIds : OrderedMap MinecraftIdentifier UInt32
  components : OrderedMap UInt32 (MinecraftIdentifier × ComponentCodec)
  componentRawIds : OrderedMap MinecraftIdentifier UInt32
  menus : OrderedMap UInt32 MinecraftIdentifier
  bannerPatterns : OrderedMap UInt32 MinecraftIdentifier
  bannerPatternRawIds : OrderedMap MinecraftIdentifier UInt32
  items_distinct : items.Injective
  itemRawIds_eq : itemRawIds = items.reverse
  components_eq : ∃ entries : Numbering,
    components = withCodecs entries.entries ∧ componentRawIds = entries.entries.reverse
  bannerPatternRawIds_eq : bannerPatternRawIds = bannerPatterns.reverse

def dataComponentTypeRegistry : MinecraftIdentifier :=
  ⟨"minecraft:data_component_type", by decide +kernel⟩

def menuRegistry : MinecraftIdentifier := ⟨"minecraft:menu", by decide +kernel⟩

def bannerPatternRegistry : MinecraftIdentifier := ⟨"minecraft:banner_pattern", by decide +kernel⟩

namespace ItemStackProfile

def fromGameData (data : GameData) : Except InventoryCodecError ItemStackProfile := do
  let items ← registryEntries data GameDataArtifact.itemRegistry
  let components ← registryEntries data dataComponentTypeRegistry
  let menus ← registryEntries data menuRegistry
  let bannerPatterns := optionalRegistryEntries data bannerPatternRegistry
  pure {
    items := items.entries
    itemRawIds := items.entries.reverse
    components := withCodecs components.entries
    componentRawIds := components.entries.reverse
    menus := menus.entries
    bannerPatterns
    bannerPatternRawIds := bannerPatterns.reverse
    items_distinct := items.distinct
    itemRawIds_eq := rfl
    components_eq := ⟨components, rfl, rfl⟩
    bannerPatternRawIds_eq := rfl }

/-- `for (index, identifier) in patterns.into_iter().enumerate()` -/
def numbered (patterns : List MinecraftIdentifier) : OrderedMap UInt32 MinecraftIdentifier :=
  ofList (patterns.zipIdx.map fun e => (.ofNat e.2, e.1))

def installBannerPatterns (profile : ItemStackProfile) (patterns : List MinecraftIdentifier) :
    Except InventoryCodecError ItemStackProfile :=
  if patterns.length > 2 ^ 32 then
    .error (.countTooLarge "banner-pattern registry" (2 ^ 32) (2 ^ 32 - 1))
  else .ok { profile with
    bannerPatterns := numbered patterns
    bannerPatternRawIds := (numbered patterns).reverse
    bannerPatternRawIds_eq := rfl }

def itemRawId (profile : ItemStackProfile) (item : MinecraftIdentifier) : Option UInt32 :=
  profile.itemRawIds.lookup item

def componentRawId (profile : ItemStackProfile) (component : MinecraftIdentifier) :
    Option UInt32 :=
  profile.componentRawIds.lookup component

variable {profile : ItemStackProfile} {raw raw' : UInt32} {identifier : MinecraftIdentifier}

theorem itemRawId_iff :
    profile.itemRawId identifier = some raw ↔ profile.items.lookup raw = some identifier := by
  rw [itemRawId, profile.itemRawIds_eq]
  exact profile.items_distinct.lookup_reverse

theorem component_codec {codec : ComponentCodec}
    (h : profile.components.lookup raw = some (identifier, codec)) :
    codec = componentCodec identifier := by
  obtain ⟨entries, hcomponents, -⟩ := profile.components_eq
  rw [hcomponents, lookup_withCodecs] at h
  obtain ⟨_, _, heq⟩ := Option.map_eq_some_iff.mp h
  cases heq
  rfl

theorem componentRawId_iff : profile.componentRawId identifier = some raw ↔
    profile.components.lookup raw = some (identifier, componentCodec identifier) := by
  obtain ⟨entries, hcomponents, hrawIds⟩ := profile.components_eq
  rw [componentRawId, hrawIds, hcomponents, lookup_withCodecs, entries.distinct.lookup_reverse,
    Option.map_eq_some_iff]
  constructor
  · exact fun h => ⟨identifier, h, rfl⟩
  · rintro ⟨_, h, heq⟩
    cases heq
    exact h

end ItemStackProfile

/-- A call on a reader of its own. -/
def ownReader {σ α : Type} (m : ItemM α) (bytes : Bytes) : Mut σ InventoryCodecError α := fun s =>
  match m (.new bytes) with
  | .ok a _ => .ok a s
  | .err e _ => .err e s
  | .panic => .panic

/-- The fingerprint of a component's value, where its codec has one. -/
def componentHash (profile : ItemStackProfile) (component : MinecraftIdentifier) (wireValue : Bytes) :
    ItemM (Option Int32) :=
  match (profile.componentRawIds.lookup component).bind profile.components.lookup with
  | none => Mut.fail (.unknownComponent component)
  | some (_, codec) => ownReader (hashValue codec) wireValue

end Cubic.ItemWire
