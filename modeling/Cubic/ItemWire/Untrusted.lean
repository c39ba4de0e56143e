import Cubic.ItemWire.Patch
import Cubic.Lib.Pointwise

/-!
# The receiver of the Creative slot packet

The receiver reads each value by its length. As the tests do, it puts the stack together again
as the server would send it, and decodes that. A sound patch written component by component is
decoded to itself, in whatever order its components come.
-/

namespace Cubic.ItemWire

set_option autoImplicit false

/-! ### The reader -/

section
variable {layout : NbtLayout} {profile : ItemStackProfile} {identifier : MinecraftIdentifier}
  {payload : Bytes} {hash : Option Int32} {patterns : Option BannerPatternLayers}
  {patch : ComponentPatch}

/-- The raw id of a component as it is written. -/
def componentHeader (profile : ItemStackProfile) (identifier : MinecraftIdentifier) : Bytes :=
  (profile.componentRawId identifier).elim [] fun raw => writeVarInt raw.toInt32

theorem Known.header (h : Known profile identifier) : ∃ raw : UInt32, raw.toNat ≤ i32Max ∧
    profile.components.lookup raw = some (identifier, componentCodec identifier) ∧
      componentHeader profile identifier = writeVarInt raw.toInt32 := by
  obtain ⟨raw, hraw, hlookup⟩ := h
  refine ⟨raw, hraw, hlookup, ?_⟩
  rw [componentHeader, ItemStackProfile.componentRawId_iff.mpr hlookup]
  rfl

theorem reads_addedComponent (hvalued : Valued layout profile identifier payload hash patterns)
    (hfresh : patch.added.lookup identifier = none) :
    Reads (readAddedComponent layout profile patch) (componentHeader profile identifier ++ payload)
      (patch.add identifier payload hash patterns) := by
  obtain ⟨raw, hraw, hlookup, hheader⟩ := hvalued.known.header
  rw [hheader]
  refine (reads_nonnegative hraw _).bind ?_
  rw [hlookup]
  refine (Reads.withConsumed hvalued.reads).bindNil ?_
  rw [if_neg (Nat.not_lt.mpr hvalued.size_le), hfresh]
  have hhash : Reads (componentHash profile identifier payload) [] hash := fun before rest => by
    rw [List.append_nil]
    exact hvalued.hashed ⟨before, rest⟩
  exact hhash.bindNil (reads_pure _)

theorem reads_addedComponents (entries : List (MinecraftIdentifier × Bytes)) :
    ∀ {patch : ComponentPatch}, Sound layout profile patch →
      (∀ identifier, patch.removed.lookup identifier = none) →
      (∀ e ∈ entries, ∃ hash patterns, Valued layout profile e.1 e.2 hash patterns) →
      (entries.map Prod.fst).Nodup → (∀ e ∈ entries, patch.added.lookup e.1 = none) →
      ∃ patch', Reads (readAddedComponents layout profile entries.length patch)
          (entries.flatMap fun e => componentHeader profile e.1 ++ e.2) patch' ∧
        Sound layout profile patch' ∧ patch'.removed = patch.removed ∧
        patch'.added = entries.foldl (fun m e => m.insert e.1 e.2) patch.added := by
  induction entries with
  | nil => exact fun hsound _ _ _ _ => ⟨_, reads_pure _, hsound, rfl, rfl⟩
  | cons e entries ih =>
    intro patch hsound hremoved hvalued hnodup hfresh
    obtain ⟨⟨hash, patterns, hvalue⟩, hvalued⟩ := List.forall_mem_cons.mp hvalued
    obtain ⟨hnew, hfresh⟩ := List.forall_mem_cons.mp hfresh
    obtain ⟨hnotin, hnodup⟩ := List.nodup_cons.mp hnodup
    obtain ⟨patch', hreads, hsound', hremoved', hadded⟩ :=
      ih (hsound.add hvalue hnew (hremoved e.1)) hremoved hvalued hnodup (by
        intro e' he'
        rw [lookup_added_of_ne]
        · exact hfresh e' he'
        · exact fun heq => hnotin (heq ▸ List.mem_map_of_mem he'))
    refine ⟨patch', ?_, hsound', hremoved', hadded⟩
    rw [List.flatMap_cons]
    exact (reads_addedComponent hvalue hnew).bind hreads

theorem reads_removedComponents (identifiers : List MinecraftIdentifier) :
    ∀ {patch : ComponentPatch}, Sound layout profile patch → identifiers.Nodup →
      (∀ identifier ∈ identifiers, Known profile identifier ∧
        patch.added.lookup identifier = none ∧ patch.removed.lookup identifier = none) →
      ∃ patch', Reads (readRemovedComponents profile identifiers.length patch)
          (identifiers.flatMap (componentHeader profile)) patch' ∧
        Sound layout profile patch' ∧ patch'.added = patch.added ∧
        patch'.removed = identifiers.foldl (fun m k => m.insert k ()) patch.removed := by
  induction identifiers with
  | nil => exact fun hsound _ _ => ⟨_, reads_pure _, hsound, rfl, rfl⟩
  | cons identifier identifiers ih =>
    intro patch hsound hnodup hall
    obtain ⟨⟨hknown, hadded, hremoved⟩, hall⟩ := List.forall_mem_cons.mp hall
    obtain ⟨hnotin, hnodup⟩ := List.nodup_cons.mp hnodup
    have hone : Reads (readRemovedComponent profile patch) (componentHeader profile identifier)
        { patch with removed := patch.removed.insert identifier () } := by
      obtain ⟨raw, hraw, hlookup, hheader⟩ := hknown.header
      rw [hheader]
      refine (reads_nonnegative hraw _).bindNil ?_
      rw [hlookup]
      dsimp only
      rw [if_neg]
      · exact reads_pure _
      · rw [hadded, hremoved]
        exact fun h => h.elim nofun nofun
    obtain ⟨patch', hreads, hsound', hadded', hremoved'⟩ :=
      ih (hsound.remove hknown hadded) hnodup (by
        intro other hother
        obtain ⟨hknown', hadded', hremoved'⟩ := hall other hother
        refine ⟨hknown', hadded', ?_⟩
        rw [OrderedMap.lookup_insert, if_neg]
        · exact hremoved'
        · exact fun heq => hnotin (heq ▸ hother))
    refine ⟨patch', ?_, hsound', hadded', hremoved'⟩
    rw [List.flatMap_cons]
    exact hone.bind hreads

/-- The components of a patch as they are sent, in some order, behind their two counts. -/
def patchWire (profile : ItemStackProfile) (added : List (MinecraftIdentifier × Bytes))
    (removed : List MinecraftIdentifier) : Bytes :=
  writeVarInt (.ofNat added.length) ++ (writeVarInt (.ofNat removed.length) ++
    ((added.flatMap fun e => componentHeader profile e.1 ++ e.2) ++
      removed.flatMap (componentHeader profile)))

/-- A sound patch is decoded from its components in any order. -/
theorem reads_patch (hsound : Sound layout profile patch)
    (hsize : patch.added.size + patch.removed.size ≤ maxComponentsPerStack)
    {added : List (MinecraftIdentifier × Bytes)} {removed : List MinecraftIdentifier}
    (hadded : added.Perm patch.added.entries) (hremoved : removed.Perm patch.removed.keys) :
    Reads (readComponentPatch layout profile) (patchWire profile added removed) patch := by
  have hmax : maxComponentsPerStack ≤ i32Max := by decide
  have hcount : added.length = patch.added.size := hadded.length_eq
  have hcount' : removed.length = patch.removed.size :=
    hremoved.length_eq.trans (List.length_map _)
  have hkeys : (added.map Prod.fst).Nodup :=
    (hadded.map Prod.fst).nodup_iff.mpr patch.added.keys_nodup
  obtain ⟨middle, hreads, hsound', hnone, hmap⟩ :=
    reads_addedComponents added sound_default (fun _ => rfl) (by
      intro e he
      obtain ⟨patterns, hvalued, -⟩ :=
        hsound.valued (OrderedMap.mem_entries_iff.mp (hadded.mem_iff.mp he))
      exact ⟨_, patterns, hvalued⟩) hkeys fun _ _ => rfl
  have hsame : middle.added = patch.added := by
    rw [hmap]
    exact (OrderedMap.ofList_perm hadded hkeys).trans (OrderedMap.ofList_entries patch.added)
  obtain ⟨patch', hreads', hsound'', hadded'', hremoved''⟩ :=
    reads_removedComponents removed hsound' (hremoved.nodup_iff.mpr patch.removed.keys_nodup) (by
      intro identifier hmem
      obtain ⟨hfresh, hknown⟩ :=
        hsound.removed (OrderedMap.mem_keys_iff.mp (hremoved.mem_iff.mp hmem))
      refine ⟨hknown, hsame ▸ hfresh, ?_⟩
      rw [hnone]
      rfl)
  have hset : patch'.removed = patch.removed := by
    rw [hremoved'', hnone]
    exact OrderedMap.foldl_insert_perm hremoved
  have heq : patch' = patch := hsound''.ext hsound (hadded''.trans hsame) hset
  subst heq
  refine (reads_boundedCount (by omega) (by omega) _).bind ?_
  refine (reads_boundedCount (by omega) (by omega) _).bind ?_
  exact hreads.bind hreads'

/-- A stack as it is sent, with its components in some order. -/
def stackWire (profile : ItemStackProfile) (count rawItem : UInt32)
    (added : List (MinecraftIdentifier × Bytes)) (removed : List MinecraftIdentifier) : Bytes :=
  writeVarInt count.toInt32 ++ (writeVarInt rawItem.toInt32 ++ patchWire profile added removed)

theorem count_toInt32 {count : UInt32} (hpos : 1 ≤ count.toNat) (hmax : count.toNat ≤ maxStackCount) :
    count.toInt32 ≠ 0 ∧ count.toInt32.toInt = count.toNat := by
  have hle : count.toNat ≤ i32Max := hmax.trans (by decide)
  have hint : count.toInt32.toInt = count.toNat := by
    rw [← UInt32.ofNat_toNat (x := count), UInt32.toInt32_ofNat', toInt_ofNat_i32]
    · rw [UInt32.ofNat_toNat]
    · exact hle
  refine ⟨?_, hint⟩
  intro hzero
  rw [hzero] at hint
  have : (0 : Int32).toInt = 0 := rfl
  omega

theorem count_toUInt32 {count : Int32} (hzero : ¬ count = 0)
    (h : ¬ (count < 0 ∨ count.toInt > maxStackCount)) :
    1 ≤ count.toUInt32.toNat ∧ count.toUInt32.toNat ≤ maxStackCount := by
  obtain ⟨hnonneg, hle⟩ := not_or.mp h
  have hnat : count.toUInt32.toNat = count.toInt.toNat := by
    rw [Int32.toNat_toUInt32_of_le (Int32.not_lt.mp hnonneg), Int32.toNat_toInt]
  have hne : count.toInt ≠ 0 := fun h => hzero (Int32.toInt_inj.mp h)
  rw [Int32.lt_iff_toInt_lt] at hnonneg
  have hzero' : (0 : Int32).toInt = 0 := rfl
  rw [hnat]
  omega

theorem reads_stack (stack : ItemStack) {rawItem : UInt32} (hpos : 1 ≤ stack.count.toNat)
    (hmax : stack.count.toNat ≤ maxStackCount) (hraw : rawItem.toNat ≤ i32Max)
    (hitem : profile.items.lookup rawItem = some stack.item)
    (hsound : Sound layout profile stack.components)
    (hsize : stack.components.added.size + stack.components.removed.size ≤ maxComponentsPerStack)
    {added : List (MinecraftIdentifier × Bytes)} {removed : List MinecraftIdentifier}
    (hadded : added.Perm stack.components.added.entries)
    (hremoved : removed.Perm stack.components.removed.keys) :
    Reads (decodeItemStack layout profile) (stackWire profile stack.count rawItem added removed)
      (some stack) := by
  obtain ⟨hne, hint⟩ := count_toInt32 hpos hmax
  refine ((reads_varInt _).mapErr InventoryCodecError.codec).bind ?_
  rw [if_neg hne]
  refine (reads_nonnegative hraw _).bind ?_
  have hstack : Reads (decodeNonemptyStack layout profile stack.count.toInt32 rawItem)
      (patchWire profile added removed) stack := by
    have hcount : ¬ (stack.count.toInt32 < 0 ∨ stack.count.toInt32.toInt > maxStackCount) := by
      rw [Int32.lt_iff_toInt_lt, hint]
      change ¬ ((stack.count.toNat : Int) < 0 ∨ (stack.count.toNat : Int) > maxStackCount)
      omega
    unfold decodeNonemptyStack
    rw [if_neg hcount, hitem]
    exact (reads_patch hsound hsize hadded hremoved).map fun components =>
      (⟨stack.item, stack.count.toInt32.toUInt32, components⟩ : ItemStack)
  exact hstack.map some

/-! ### What a decoded stack is -/

theorem decodeItemStack_ok {s t : CodecReader} {stack : ItemStack}
    (h : decodeItemStack layout profile s = .ok (some stack) t) :
    1 ≤ stack.count.toNat ∧ stack.count.toNat ≤ maxStackCount ∧
    Sound layout profile stack.components ∧
    stack.components.added.size + stack.components.removed.size ≤ maxComponentsPerStack ∧
    ∃ rawItem : UInt32, rawItem.toNat ≤ i32Max ∧
      profile.items.lookup rawItem = some stack.item := by
  obtain ⟨count, _, _, h⟩ := Mut.bind_eq_ok.mp h
  split at h
  · cases h
  · rename_i hzero
    obtain ⟨rawItem, _, hraw, h⟩ := Mut.bind_eq_ok.mp h
    obtain ⟨decoded, _, hdecode, h⟩ := Mut.bind_eq_ok.mp h
    cases h
    unfold decodeNonemptyStack at hdecode
    split at hdecode
    · cases hdecode
    · rename_i hcount
      cases hlookup : profile.items.lookup rawItem with
      | none =>
        rw [hlookup] at hdecode
        cases hdecode
      | some item =>
        rw [hlookup] at hdecode
        obtain ⟨patch, _, hpatch, hstack⟩ := Mut.bind_eq_ok.mp hdecode
        cases hstack
        obtain ⟨hsound, hsize⟩ := readComponentPatch_ok hpatch
        obtain ⟨hpos, hmax⟩ := count_toUInt32 hzero hcount
        exact ⟨hpos, hmax, hsound, hsize, rawItem, readNonnegative_ok hraw, hlookup⟩

/-- A decoded stack took its own bytes and no more, its count and its patch are in order, and
it is decoded again from its components in any order. -/
theorem decodeItemStack_selfContained {s t : CodecReader} {stack : ItemStack}
    (h : decodeItemStack layout profile s = .ok (some stack) t) :
    (∃ bytes, s.rest = bytes ++ t.rest ∧ t.before = s.before ++ bytes ∧
      Reads (decodeItemStack layout profile) bytes (some stack)) ∧
    1 ≤ stack.count.toNat ∧ stack.count.toNat ≤ maxStackCount ∧
    Sound layout profile stack.components ∧
    stack.components.added.size + stack.components.removed.size ≤ maxComponentsPerStack ∧
    ∃ rawItem : UInt32, profile.itemRawId stack.item = some rawItem ∧
      ∀ added removed, List.Perm added stack.components.added.entries →
        List.Perm removed stack.components.removed.keys →
          Reads (decodeItemStack layout profile)
            (stackWire profile stack.count rawItem added removed) (some stack) := by
  obtain ⟨bytes, hbytes⟩ := local_decodeItemStack layout profile s (some stack) t h
  obtain ⟨hpos, hmax, hsound, hsize, rawItem, hraw, hitem⟩ := decodeItemStack_ok h
  refine ⟨⟨bytes, hbytes.rest, hbytes.before, hbytes.reads⟩, hpos, hmax, hsound, hsize, rawItem,
    ItemStackProfile.itemRawId_iff.mpr hitem, fun added removed hadded hremoved => ?_⟩
  exact reads_stack stack hpos hmax hraw hitem hsound hsize hadded hremoved

end

/-! ### A banner

The registry of the server lists one pattern twice, and the damage comes in more bytes than it
needs. -/

section Banner

def bannerItem : MinecraftIdentifier := ⟨"minecraft:white_banner", by decide +kernel⟩

def damageComponent : MinecraftIdentifier := ⟨"minecraft:damage", by decide +kernel⟩

def loreComponent : MinecraftIdentifier := ⟨"minecraft:lore", by decide +kernel⟩

def creeperPattern : MinecraftIdentifier := ⟨"minecraft:creeper", by decide +kernel⟩

def bannerComponents : Numbering where
  entries := .ofList [(1, damageComponent), (2, bannerPatternsComponent), (3, loreComponent)]
  distinct := OrderedMap.injective_ofList (by decide +kernel)

def bannerProfile : ItemStackProfile where
  items := .ofList [(7, bannerItem)]
  itemRawIds := OrderedMap.reverse (.ofList [(7, bannerItem)])
  components := withCodecs bannerComponents.entries
  componentRawIds := bannerComponents.entries.reverse
  menus := .empty
  bannerPatterns := .ofList [(0, creeperPattern), (1, creeperPattern)]
  bannerPatternRawIds := OrderedMap.reverse (.ofList [(0, creeperPattern), (1, creeperPattern)])
  items_distinct := OrderedMap.injective_ofList (by decide +kernel)
  itemRawIds_eq := rfl
  components_eq := ⟨bannerComponents, rfl, rfl⟩
  bannerPatternRawIds_eq := rfl

def bannerBytes : Bytes := [1, 7, 2, 1, 1, 0x85, 0, 2, 1, 1, 15, 3]

def bannerStack : ItemStack where
  item := bannerItem
  count := 1
  components := {
    added := .ofList [(damageComponent, [0x85, 0]), (bannerPatternsComponent, [1, 1, 15])]
    removed := .ofList [(loreComponent, ())]
    hashes := .ofList [(damageComponent, (crc32c [8, 5, 0, 0, 0]).toInt32)]
    bannerPatterns := some ⟨[⟨.reference creeperPattern, 15⟩]⟩ }

theorem decode_bannerBytes : decodeItemStack ⟨24, 32⟩ bannerProfile (.new bannerBytes) =
    .ok (some bannerStack) ⟨bannerBytes, []⟩ := by
  decide +kernel

theorem decodeItemStack_selfContained_banner :
    (∃ bytes, bannerBytes = bytes ++ [] ∧ bannerBytes = [] ++ bytes ∧
      Reads (decodeItemStack ⟨24, 32⟩ bannerProfile) bytes (some bannerStack)) ∧
    1 ≤ bannerStack.count.toNat ∧ bannerStack.count.toNat ≤ maxStackCount ∧
    Sound ⟨24, 32⟩ bannerProfile bannerStack.components ∧
    bannerStack.components.added.size + bannerStack.components.removed.size ≤
      maxComponentsPerStack ∧
    ∃ rawItem : UInt32, bannerProfile.itemRawId bannerStack.item = some rawItem ∧
      ∀ added removed, List.Perm added bannerStack.components.added.entries →
        List.Perm removed bannerStack.components.removed.keys →
          Reads (decodeItemStack ⟨24, 32⟩ bannerProfile)
            (stackWire bannerProfile bannerStack.count rawItem added removed) (some bannerStack) :=
  decodeItemStack_selfContained decode_bannerBytes

end Banner

end Cubic.ItemWire
