import Cubic.Lib.Mut
import Cubic.Version.GameData
import Mathlib.Data.List.Pairwise

/-!
# The lookups of an accepted artifact are inverse to each other
-/

namespace Cubic.Version

set_option autoImplicit false

open BinarySearch Mut

/-! ### What the validation lets through -/

theorem reject_eq_ok {condition : Prop} [Decidable condition] {reason : String} {u : Unit} :
    reject condition reason = .ok u ↔ ¬ condition := by
  unfold reject invalid
  split
  · rename_i h
    exact iff_of_false nofun (not_not.mpr h)
  · rename_i h
    exact iff_of_true rfl h

theorem okOrInvalid_eq_ok {α : Type} {o : Option α} {reason : String} {a : α} :
    okOrInvalid o reason = .ok a ↔ o = some a := by
  unfold okOrInvalid invalid
  cases o with
  | none => exact iff_of_false nofun nofun
  | some b =>
    constructor
    · intro h
      cases h
      rfl
    · intro h
      cases h
      rfl

theorem forM_eq_ok {α : Type} {f : α → Except GameDataError Unit} {xs : List α} {u : Unit} :
    xs.forM f = .ok u ↔ ∀ x ∈ xs, f x = .ok () := by
  induction xs with
  | nil => exact iff_of_true rfl fun _ h => absurd h List.not_mem_nil
  | cons x rest ih =>
    change (f x >>= fun _ => rest.forM f) = .ok () ↔ _
    rw [except_bind_eq_ok, List.forall_mem_cons, ← ih]
    constructor
    · rintro ⟨_, hx, hrest⟩
      exact ⟨hx, hrest⟩
    · rintro ⟨hx, hrest⟩
      exact ⟨(), hx, hrest⟩

theorem ensureSortedUnique_ok {κ : Type} [LinearOrder κ] {label : String} {values : List κ} :
    ∀ {previous : Option κ} {u : Unit}, ensureSortedUnique label previous values = .ok u →
      (previous.toList ++ values).Pairwise (· < ·) := by
  induction values with
  | nil =>
    intro previous u _
    cases previous with
    | none => exact List.Pairwise.nil
    | some prior => exact List.pairwise_singleton _ _
  | cons value rest ih =>
    intro previous u h
    obtain ⟨_, hreject, h⟩ := except_bind_eq_ok.mp h
    have hnot := reject_eq_ok.mp hreject
    have hrest := ih h
    cases previous with
    | none => exact hrest
    | some prior =>
      have hlt : prior < value := not_le.mp fun hle => hnot (decide_eq_true hle)
      refine List.pairwise_cons.mpr ⟨?_, hrest⟩
      intro x hx
      rcases List.mem_cons.mp hx with rfl | hx
      · exact hlt
      · exact hlt.trans (List.rel_of_pairwise_cons hrest hx)

theorem lookup_insert_eq_none {ids : OrderedSet UInt32} {id id' : UInt32} :
    (ids.insert id ()).lookup id' = none ↔ id' ≠ id ∧ ids.lookup id' = none := by
  rw [OrderedMap.lookup_insert]
  split
  · rename_i h
    exact iff_of_false nofun fun hne => hne.1 h
  · rename_i h
    exact (and_iff_right h).symm

theorem repeatsRawId_eq_false {entries : List RegistryEntry} : ∀ {rawIds : OrderedSet UInt32},
    repeatsRawId rawIds entries = false →
      (entries.map RegistryEntry.rawId).Nodup ∧
        ∀ entry ∈ entries, rawIds.lookup entry.rawId = none := by
  induction entries with
  | nil => exact fun _ => ⟨List.nodup_nil, nofun⟩
  | cons entry rest ih =>
    intro rawIds h
    obtain ⟨hentry, hrest⟩ := Bool.or_eq_false_iff.mp h
    obtain ⟨hnodup, hfresh⟩ := ih hrest
    refine ⟨List.nodup_cons.mpr ⟨?_, hnodup⟩, List.forall_mem_cons.mpr ⟨?_, ?_⟩⟩
    · intro hmem
      obtain ⟨other, hother, heq⟩ := List.mem_map.mp hmem
      exact (lookup_insert_eq_none.mp (hfresh other hother)).1 heq
    · exact Option.isSome_eq_false_iff.mp hentry |> Option.isNone_iff_eq_none.mp
    · exact fun other hother => (lookup_insert_eq_none.mp (hfresh other hother)).2

/-- The state ids seen so far, after those of the states. -/
def Collects (ids ids' : OrderedSet UInt32) (states : List BlockState) : Prop :=
  (∀ state ∈ states, ids.lookup state.stateId = none) ∧
    ∀ id, ids'.lookup id = none ↔ ids.lookup id = none ∧ id ∉ states.map BlockState.stateId

theorem validateStates_ok {block : BlockDefinition} {states : List BlockState} :
    ∀ {previous : Option UInt32} {ids ids' : OrderedSet UInt32},
      validateStates block previous ids states = .ok ids' →
        (previous.toList ++ states.map BlockState.stateId).Pairwise (· < ·) ∧
          Collects ids ids' states := by
  induction states with
  | nil =>
    intro previous ids ids' h
    cases h
    refine ⟨?_, nofun, fun id => (and_iff_left List.not_mem_nil).symm⟩
    cases previous with
    | none => exact List.Pairwise.nil
    | some prior => exact List.pairwise_singleton _ _
  | cons state rest ih =>
    intro previous ids ids' h
    obtain ⟨_, hreject, h⟩ := except_bind_eq_ok.mp h
    obtain ⟨_, _, h⟩ := except_bind_eq_ok.mp h
    obtain ⟨_, _, h⟩ := except_bind_eq_ok.mp h
    obtain ⟨hprevious, hfresh⟩ := not_or.mp (reject_eq_ok.mp hreject)
    obtain ⟨hascending, hcollects, hids⟩ := ih h
    have hstate : ids.lookup state.stateId = none := by
      cases hlookup : ids.lookup state.stateId with
      | none => rfl
      | some u =>
        rw [hlookup] at hfresh
        exact absurd rfl hfresh
    refine ⟨?_, List.forall_mem_cons.mpr ⟨hstate, ?_⟩, ?_⟩
    · cases previous with
      | none => exact hascending
      | some prior =>
        have hlt : prior < state.stateId := not_le.mp fun hle => hprevious (decide_eq_true hle)
        refine List.pairwise_cons.mpr ⟨?_, hascending⟩
        intro id hid
        rcases List.mem_cons.mp hid with rfl | hid
        · exact hlt
        · exact hlt.trans (List.rel_of_pairwise_cons hascending hid)
    · exact fun other hother => (lookup_insert_eq_none.mp (hcollects other hother)).2
    · intro id
      rw [hids, lookup_insert_eq_none, List.map_cons, List.mem_cons, not_or]
      constructor
      · rintro ⟨⟨hne, hnone⟩, hrest⟩
        exact ⟨hnone, hne, hrest⟩
      · rintro ⟨hnone, hne, hrest⟩
        exact ⟨⟨hne, hnone⟩, hrest⟩

/-- The block has an entry of its own, and its states ascend. -/
structure Listed (blockRegistry : RegistryTable) (block : BlockDefinition) : Prop where
  registered : ∃ entry, blockRegistry.byIdentifier block.identifier = some entry ∧
    entry.rawId = block.rawId
  ascending : (block.states.map BlockState.stateId).Pairwise (· < ·)

theorem validateBlock_ok {blockRegistry : RegistryTable} {block : BlockDefinition}
    {ids ids' : OrderedSet UInt32} (h : validateBlock blockRegistry ids block = .ok ids') :
    Listed blockRegistry block ∧ Collects ids ids' block.states := by
  obtain ⟨_, _, h⟩ := except_bind_eq_ok.mp h
  obtain ⟨entry, hentry, h⟩ := except_bind_eq_ok.mp h
  obtain ⟨_, hraw, h⟩ := except_bind_eq_ok.mp h
  obtain ⟨_, _, h⟩ := except_bind_eq_ok.mp h
  obtain ⟨_, _, h⟩ := except_bind_eq_ok.mp h
  obtain ⟨_, _, h⟩ := except_bind_eq_ok.mp h
  obtain ⟨hascending, hcollects⟩ := validateStates_ok h
  exact ⟨⟨⟨entry, okOrInvalid_eq_ok.mp hentry, not_not.mp (reject_eq_ok.mp hraw)⟩, hascending⟩,
    hcollects⟩

/-- No state id of the one block is one of the other. -/
def Apart (a b : BlockDefinition) : Prop :=
  ∀ s ∈ a.states, ∀ s' ∈ b.states, s.stateId ≠ s'.stateId

theorem validateBlocks_ok {blockRegistry : RegistryTable} {blocks : List BlockDefinition} :
    ∀ {ids : OrderedSet UInt32} {u : Unit}, validateBlocks blockRegistry ids blocks = .ok u →
      (∀ block ∈ blocks, Listed blockRegistry block ∧
        ∀ state ∈ block.states, ids.lookup state.stateId = none) ∧ blocks.Pairwise Apart := by
  induction blocks with
  | nil => exact fun _ => ⟨nofun, List.Pairwise.nil⟩
  | cons block rest ih =>
    intro ids u h
    obtain ⟨ids', hblock, h⟩ := except_bind_eq_ok.mp h
    obtain ⟨hlisted, hfresh, hids⟩ := validateBlock_ok hblock
    obtain ⟨hrest, hapart⟩ := ih h
    refine ⟨List.forall_mem_cons.mpr ⟨⟨hlisted, hfresh⟩, ?_⟩, List.pairwise_cons.mpr ⟨?_, hapart⟩⟩
    · intro other hother
      obtain ⟨hlisted', hfresh'⟩ := hrest other hother
      exact ⟨hlisted', fun state hstate => ((hids _).mp (hfresh' state hstate)).1⟩
    · intro other hother s hs s' hs' heq
      have hnot := ((hids _).mp ((hrest other hother).2 s' hs')).2
      exact hnot (heq ▸ List.mem_map_of_mem hs)

structure Validated (artifact : GameDataArtifact) : Prop where
  registries : (artifact.registries.map RegistryTable.identifier).Pairwise (· < ·)
  entries : ∀ table ∈ artifact.registries,
    (table.entries.map RegistryEntry.identifier).Pairwise (· < ·) ∧
      (table.entries.map RegistryEntry.rawId).Nodup
  blocks : (artifact.blocks.map BlockDefinition.identifier).Pairwise (· < ·)
  listed : ∃ table ∈ artifact.registries, ∀ block ∈ artifact.blocks, Listed table block
  apart : artifact.blocks.Pairwise Apart

theorem validated (data : GameData) : Validated data.artifact := by
  have h := data.valid
  unfold validateArtifact at h
  split at h
  · cases h
  obtain ⟨_, _, h⟩ := except_bind_eq_ok.mp h
  obtain ⟨_, _, h⟩ := except_bind_eq_ok.mp h
  obtain ⟨_, hregistries, h⟩ := except_bind_eq_ok.mp h
  obtain ⟨_, hentries, h⟩ := except_bind_eq_ok.mp h
  obtain ⟨_, hblocks, h⟩ := except_bind_eq_ok.mp h
  obtain ⟨blockRegistry, hfind, h⟩ := except_bind_eq_ok.mp h
  obtain ⟨_, _, h⟩ := except_bind_eq_ok.mp h
  obtain ⟨hlisted, hapart⟩ := validateBlocks_ok h
  have hregistry := List.mem_of_find?_eq_some (okOrInvalid_eq_ok.mp hfind)
  refine ⟨ensureSortedUnique_ok hregistries, ?_, ensureSortedUnique_ok hblocks,
    ⟨blockRegistry, hregistry, fun block hblock => (hlisted block hblock).1⟩, hapart⟩
  intro table htable
  have hvalid := forM_eq_ok.mp hentries table htable
  obtain ⟨_, _, hvalid⟩ := except_bind_eq_ok.mp hvalid
  obtain ⟨_, hsorted, hvalid⟩ := except_bind_eq_ok.mp hvalid
  have hrepeats := Bool.eq_false_iff.mpr (reject_eq_ok.mp hvalid)
  exact ⟨ensureSortedUnique_ok hsorted, (repeatsRawId_eq_false hrepeats).1⟩

/-! ### The lookups -/

namespace GameDataArtifact

def entriesOf (artifact : GameDataArtifact) (identifier : MinecraftIdentifier) :
    List RegistryEntry :=
  (artifact.registry identifier).elim [] RegistryTable.entries

/-- The states of all blocks, each with its block. -/
def allStates (artifact : GameDataArtifact) : List (BlockDefinition × BlockState) :=
  artifact.blocks.flatMap fun block => block.states.map fun state => (block, state)

/-- Each lookup finds exactly what there is, under the identifier or the id that it carries. -/
structure Inverse (artifact : GameDataArtifact) : Prop where
  registry : Indexes artifact.registry RegistryTable.identifier artifact.registries
  entry : ∀ table ∈ artifact.registries,
    Indexes table.byIdentifier RegistryEntry.identifier table.entries ∧
      Indexes table.byRawId RegistryEntry.rawId table.entries
  block : Indexes artifact.block BlockDefinition.identifier artifact.blocks ∧
    Indexes artifact.blockByRawId BlockDefinition.rawId artifact.blocks
  item : Indexes artifact.item RegistryEntry.identifier (artifact.entriesOf itemRegistry) ∧
    Indexes artifact.itemByRawId RegistryEntry.rawId (artifact.entriesOf itemRegistry)
  entityType :
    Indexes artifact.entityType RegistryEntry.identifier (artifact.entriesOf entityTypeRegistry) ∧
      Indexes artifact.entityTypeByRawId RegistryEntry.rawId
        (artifact.entriesOf entityTypeRegistry)
  blockState : Indexes artifact.blockState (fun p => p.2.stateId) artifact.allStates
  state : ∀ block ∈ artifact.blocks, Indexes block.state BlockState.stateId block.states
  owner : ∀ block ∈ artifact.blocks, ∀ block' ∈ artifact.blocks, ∀ s ∈ block.states,
    ∀ s' ∈ block'.states, s.stateId = s'.stateId → block = block'
  stateForProperties : ∀ block ∈ artifact.blocks, ∀ s ∈ block.states,
    block.stateForProperties s.properties = some s

end GameDataArtifact

variable {artifact : GameDataArtifact}

namespace Validated

theorem indexes_entries (h : Validated artifact) :
    ∀ table ∈ artifact.registries,
      Indexes table.byIdentifier RegistryEntry.identifier table.entries ∧
        Indexes table.byRawId RegistryEntry.rawId table.entries :=
  fun table htable => ⟨indexes_search (h.entries table htable).1,
    Indexes.find? (h.entries table htable).2⟩

theorem indexes_registry (h : Validated artifact) :
    Indexes artifact.registry RegistryTable.identifier artifact.registries :=
  indexes_search h.registries

/-- A lookup in a registry that may be missing. -/
theorem indexes_entriesOf (h : Validated artifact) (identifier : MinecraftIdentifier) {κ : Type}
    {lookup : RegistryTable → κ → Option RegistryEntry} {key : RegistryEntry → κ}
    (hlookup : ∀ table ∈ artifact.registries, Indexes (lookup table) key table.entries) :
    Indexes (fun k => (artifact.registry identifier).bind fun table => lookup table k) key
      (artifact.entriesOf identifier) := by
  intro k e
  unfold GameDataArtifact.entriesOf
  cases hregistry : artifact.registry identifier with
  | none => exact iff_of_false nofun fun hmem => List.not_mem_nil hmem.1
  | some table => exact hlookup table ((h.indexes_registry _ _).mp hregistry).1 k e

theorem nodup_rawIds (h : Validated artifact) :
    (artifact.blocks.map BlockDefinition.rawId).Nodup := by
  obtain ⟨table, htable, hlisted⟩ := h.listed
  have hblocks : artifact.blocks.Nodup := nodup_of_ascending h.blocks
  refine hblocks.map_on ?_
  intro a ha b hb hraw
  obtain ⟨entry, hentry, hrawId⟩ := (hlisted a ha).registered
  obtain ⟨entry', hentry', hrawId'⟩ := (hlisted b hb).registered
  obtain ⟨hbyIdentifier, hbyRawId⟩ := h.indexes_entries table htable
  obtain ⟨hmem, hidentifier⟩ := (hbyIdentifier _ _).mp hentry
  obtain ⟨hmem', hidentifier'⟩ := (hbyIdentifier _ _).mp hentry'
  have hsame : entry = entry' := Option.some.inj
    (((hbyRawId _ _).mpr ⟨hmem, hrawId.trans hraw⟩).symm.trans
      ((hbyRawId _ _).mpr ⟨hmem', hrawId'⟩))
  have hblock := (indexes_search h.blocks a.identifier a).mpr ⟨ha, rfl⟩
  have hblock' := (indexes_search h.blocks a.identifier b).mpr
    ⟨hb, hidentifier'.symm.trans (hsame ▸ hidentifier)⟩
  exact Option.some.inj (hblock.symm.trans hblock')

theorem owner (h : Validated artifact) : ∀ block ∈ artifact.blocks, ∀ block' ∈ artifact.blocks,
    ∀ s ∈ block.states, ∀ s' ∈ block'.states, s.stateId = s'.stateId → block = block' := by
  intro block hblock block' hblock' s hs s' hs' heq
  by_contra hne
  have hsymm : Std.Symm Apart := ⟨fun a b hab s hs s' hs' heq => hab s' hs' s hs heq.symm⟩
  exact h.apart.forall hblock hblock' hne s hs s' hs' heq

theorem state (h : Validated artifact) :
    ∀ block ∈ artifact.blocks, Indexes block.state BlockState.stateId block.states := by
  obtain ⟨table, htable, hlisted⟩ := h.listed
  exact fun block hblock => indexes_search (hlisted block hblock).ascending

end Validated

/-- The lookups of an accepted artifact are inverse to each other exactly when no block has two
states with the same properties. -/
theorem inverse_iff (data : GameData) :
    data.artifact.Inverse ↔
      ∀ block ∈ data.artifact.blocks, (block.states.map BlockState.properties).Nodup := by
  have h := validated data
  constructor
  · intro hinverse block hblock
    obtain ⟨table, _, hlisted⟩ := h.listed
    have hstates := nodup_of_ascending (hlisted block hblock).ascending
    refine hstates.map_on ?_
    intro s hs s' hs' hproperties
    have hfind := hinverse.stateForProperties block hblock s hs
    rw [hproperties, hinverse.stateForProperties block hblock s' hs'] at hfind
    exact (Option.some.inj hfind).symm
  · intro hdistinct
    refine ⟨h.indexes_registry, h.indexes_entries,
      ⟨indexes_search h.blocks, Indexes.find? h.nodup_rawIds⟩, ⟨?_, ?_⟩, ⟨?_, ?_⟩, ?_, h.state,
      h.owner, ?_⟩
    · exact h.indexes_entriesOf _ fun table htable => (h.indexes_entries table htable).1
    · exact h.indexes_entriesOf _ fun table htable => (h.indexes_entries table htable).2
    · exact h.indexes_entriesOf _ fun table htable => (h.indexes_entries table htable).1
    · exact h.indexes_entriesOf _ fun table htable => (h.indexes_entries table htable).2
    · exact Indexes.findSome? h.state h.owner
    · intro block hblock s hs
      exact (Indexes.find? (hdistinct block hblock) _ _).mpr ⟨hs, rfl⟩

/-! ### Two states without properties -/

def air : MinecraftIdentifier := ⟨"minecraft:air", by decide +kernel⟩

/-- One block with two states, neither of which has properties. -/
def twinArtifact : GameDataArtifact where
  schemaVersion := 1
  provenanceSource := "mojang_data_generator_reports"
  registries := [⟨⟨"minecraft:block", by decide +kernel⟩, [⟨air, 0⟩]⟩]
  blocks := [⟨air, 0, 0, [], [⟨0, OrderedMap.empty⟩, ⟨1, OrderedMap.empty⟩]⟩]

theorem inverse_fails : ∃ data : GameData, data.artifact = twinArtifact ∧
    ¬ data.artifact.Inverse := by
  have hvalid : validateArtifact twinArtifact = .ok () := by decide +kernel
  refine ⟨⟨twinArtifact, hvalid⟩, rfl, ?_⟩
  intro hinverse
  have hsecond := hinverse.stateForProperties _ List.mem_cons_self ⟨1, OrderedMap.empty⟩ (by decide)
  have hfirst : (some ⟨0, OrderedMap.empty⟩ : Option BlockState) = some ⟨1, OrderedMap.empty⟩ :=
    hsecond
  cases hfirst

end Cubic.Version
