import Cubic.ItemWire.Stack
import Cubic.Nbt.Extent

/-!
# Stacks find their own end

No component value has a length, and yet what a stack takes from the input depends on its own
bytes alone: each codec is local, so each reader of stacks is.
-/

namespace Cubic.ItemWire

set_option autoImplicit false

section Readers
variable {α : Type}

theorem local_onCodec {m : ReaderM α} (hm : Local m) : Local (onCodec m) :=
  hm.mapErr InventoryCodecError.codec

theorem local_readNonnegative (context : String) : Local (readNonnegative context) := by
  refine (local_onCodec local_readVarInt).bind fun value => ?_
  exact local_ite (fun _ => local_fail _) fun _ => local_pure _

theorem local_readBoundedCount (context : String) (max : Nat) :
    Local (readBoundedCount context max) := by
  refine (local_onCodec local_readVarInt).bind fun value => ?_
  refine local_ite (fun _ => local_fail _) fun _ => ?_
  exact local_ite (fun _ => local_fail _) fun _ => local_pure _

theorem local_skip {m : ItemM α} (hm : Local m) : Local (skip m) := hm.bind fun _ => local_pure ()

theorem local_skipTimes {m : ItemM α} (hm : Local m) (count : Nat) : Local (skipTimes m count) :=
  (hm.repeatCall count).bind fun _ => local_pure ()

theorem local_skipList {m : ItemM α} (context : String) (hm : Local m) :
    Local (skipList context m) :=
  (local_readBoundedCount context 256).bind fun count => local_skipTimes hm count

theorem local_skipOptional {m : ItemM Unit} (hm : Local m) : Local (skipOptional m) :=
  (local_onCodec local_readBool).bind fun _ => local_ite (fun _ => hm) fun _ => local_pure ()

theorem local_skipRegistryHolder {m : ItemM Unit} (hm : Local m) : Local (skipRegistryHolder m) :=
  (local_readNonnegative _).bind fun _ => local_ite (fun _ => hm) fun _ => local_pure ()

theorem local_skipVarInt : Local skipVarInt := local_skip (local_onCodec local_readVarInt)

theorem local_skipI32 : Local skipI32 := local_skip (local_onCodec local_readI32)

theorem local_skipF32 : Local skipF32 := local_skip (local_onCodec local_readF32)

theorem local_skipBool : Local skipBool := local_skip (local_onCodec local_readBool)

theorem local_skipString : Local skipString := local_skip (local_onCodec (local_readString _))

theorem local_skipInlineIdentifier : Local skipInlineIdentifier := by
  refine (local_onCodec (local_readString _)).bind fun identifier => ?_
  cases MinecraftIdentifier.new identifier with
  | ok value => exact local_pure ()
  | error e => exact local_fail _

theorem local_skipExplosion : Local skipExplosion := by
  refine (local_readNonnegative _).bind fun shape => ?_
  refine local_ite (fun _ => local_fail _) fun _ => ?_
  refine (local_skipList _ local_skipI32).bind fun _ => ?_
  refine (local_skipList _ local_skipI32).bind fun _ => ?_
  exact local_skipBool.bind fun _ => local_skipBool

theorem local_skipFireworks : Local skipFireworks :=
  local_skipVarInt.bind fun _ => local_skipList _ local_skipExplosion

theorem local_skipSoundEvent : Local skipSoundEvent :=
  local_skipInlineIdentifier.bind fun _ => local_skipOptional local_skipF32

theorem local_skipEffectDetail (left : Nat) : Local (skipEffectDetail left) := by
  induction left with
  | zero => exact local_fail _
  | succ left ih =>
    refine local_skipVarInt.bind fun _ => ?_
    refine local_skipVarInt.bind fun _ => ?_
    refine local_skipBool.bind fun _ => ?_
    refine local_skipBool.bind fun _ => ?_
    exact local_skipBool.bind fun _ => local_skipOptional ih

theorem local_skipPotionContents : Local skipPotionContents := by
  have heffect : Local skipPotionEffect := local_skipVarInt.bind fun _ => local_skipEffectDetail 16
  refine (local_skipOptional local_skipVarInt).bind fun _ => ?_
  refine (local_skipOptional local_skipI32).bind fun _ => ?_
  refine (local_skipList _ heffect).bind fun _ => ?_
  exact local_skipOptional local_skipString

theorem local_ownReader (m : ItemM α) (bytes : Bytes) : Local (ownReader m bytes : ItemM α) := by
  apply local_of_frame
  intro s a t h
  unfold ownReader at h ⊢
  cases hm : m (.new bytes) with
  | ok b r =>
    rw [hm] at h
    cases h
    exact ⟨rfl, fun _ => rfl⟩
  | err e r =>
    rw [hm] at h
    cases h
  | panic =>
    rw [hm] at h
    cases h

end Readers

section Layout
variable (layout : NbtLayout) (profile : ItemStackProfile)

theorem local_skipNbt : Local (skipNbt layout) :=
  local_skip ((local_unnamedNetworkTag .default layout).onReader InventoryCodecError.nbt)

theorem local_skipInstrument : Local (skipInstrument layout) := by
  refine (local_skipRegistryHolder local_skipSoundEvent).bind fun _ => ?_
  refine local_skipF32.bind fun _ => ?_
  exact local_skipF32.bind fun _ => local_skipNbt layout

theorem local_skipPaintingVariant : Local (skipPaintingVariant layout) := by
  refine (local_skip (local_readNonnegative _)).bind fun _ => ?_
  refine (local_skip (local_readNonnegative _)).bind fun _ => ?_
  refine local_skipInlineIdentifier.bind fun _ => ?_
  exact local_skipTimes (local_skipOptional (local_skipNbt layout)) 2

theorem local_skipComponent (codec : ComponentCodec) (identifier : MinecraftIdentifier) :
    Local (skipComponent layout codec identifier) := by
  cases codec with
  | unit => exact local_pure ()
  | varInt => exact local_skipVarInt
  | i32 => exact local_skipI32
  | f32 => exact local_skipF32
  | bool => exact local_skipBool
  | string => exact local_skipString
  | nbt => exact local_skipNbt layout
  | nbtList => exact local_skipList _ (local_skipNbt layout)
  | varIntPairs => exact local_skipList _ (local_skipVarInt.bind fun _ => local_skipVarInt)
  | varIntList => exact local_skipList _ local_skipVarInt
  | stringPairs => exact local_skipList _ (local_skipString.bind fun _ => local_skipString)
  | useEffects =>
    refine local_skipBool.bind fun _ => ?_
    exact local_skipBool.bind fun _ => local_skipF32
  | food =>
    refine local_skipVarInt.bind fun _ => ?_
    exact local_skipF32.bind fun _ => local_skipBool
  | weapon => exact local_skipVarInt.bind fun _ => local_skipF32
  | twoVarInts => exact local_skipVarInt.bind fun _ => local_skipVarInt
  | attackRange => exact local_skipTimes local_skipF32 6
  | customModelData =>
    refine (local_skipList _ local_skipF32).bind fun _ => ?_
    refine (local_skipList _ local_skipBool).bind fun _ => ?_
    refine (local_skipList _ local_skipString).bind fun _ => ?_
    exact local_skipList _ local_skipI32
  | tooltipDisplay => exact local_skipBool.bind fun _ => local_skipList _ local_skipVarInt
  | potionContents => exact local_skipPotionContents
  | fireworks => exact local_skipFireworks
  | instrument => exact local_skipRegistryHolder (local_skipInstrument layout)
  | paintingVariant => exact local_skipRegistryHolder (local_skipPaintingVariant layout)
  | bannerPatterns => exact local_fail _
  | unsupported => exact local_fail _

theorem local_readBannerPatternHolder (reference : UInt32 → Option MinecraftIdentifier) :
    Local (readBannerPatternHolder reference) := by
  refine (local_readNonnegative _).bind fun holder => local_ite (fun _ => ?_) fun _ => ?_
  · refine (local_onCodec (local_readString _)).bind fun asset => ?_
    cases MinecraftIdentifier.new asset with
    | error e => exact local_fail _
    | ok assetId => exact (local_onCodec (local_readString _)).bind fun _ => local_pure _
  · cases reference (holder - 1) with
    | none => exact local_fail _
    | some identifier => exact local_pure _

theorem local_readBannerPatternLayer (reference : UInt32 → Option MinecraftIdentifier) :
    Local (readBannerPatternLayer reference) := by
  refine (local_readBannerPatternHolder reference).bind fun pattern => ?_
  refine (local_readNonnegative _).bind fun dye => ?_
  exact local_ite (fun _ => local_pure _) fun _ => local_fail _

theorem local_bannerPatternLayers : Local (decodeBannerPatternLayers profile) := by
  refine (local_readBoundedCount _ _).bind fun count => ?_
  exact ((local_readBannerPatternLayer _).repeatCall count).bind fun _ => local_pure _

theorem local_readComponent (codec : ComponentCodec) (identifier : MinecraftIdentifier) :
    Local (readComponent layout profile codec identifier) := by
  refine local_ite (fun _ => ?_) fun _ => ?_
  · exact (local_bannerPatternLayers profile).bind fun _ => local_pure _
  · exact (local_skipComponent layout codec identifier).bind fun _ => local_pure _

theorem local_componentHash (component : MinecraftIdentifier) (wireValue : Bytes) :
    Local (componentHash profile component wireValue) := by
  unfold componentHash
  cases (profile.componentRawIds.lookup component).bind profile.components.lookup with
  | none => exact local_fail _
  | some entry => exact local_ownReader _ _

theorem local_readAddedComponent (patch : ComponentPatch) :
    Local (readAddedComponent layout profile patch) := by
  refine (local_readNonnegative _).bind fun raw => ?_
  cases profile.components.lookup raw with
  | none => exact local_fail _
  | some entry =>
    refine (local_readComponent layout profile _ _).withConsumed.bind fun value => ?_
    refine local_ite (fun _ => local_fail _) fun _ => ?_
    refine local_ite (fun _ => local_fail _) fun _ => ?_
    exact (local_componentHash profile _ _).bind fun _ => local_pure _

theorem local_readAddedComponents (left : Nat) : ∀ patch : ComponentPatch,
    Local (readAddedComponents layout profile left patch) := by
  induction left with
  | zero => exact fun patch => local_pure patch
  | succ left ih => exact fun patch => (local_readAddedComponent layout profile patch).bind ih

theorem local_readRemovedComponent (patch : ComponentPatch) :
    Local (readRemovedComponent profile patch) := by
  refine (local_readNonnegative _).bind fun raw => ?_
  cases profile.components.lookup raw with
  | none => exact local_fail _
  | some entry => exact local_ite (fun _ => local_fail _) fun _ => local_pure _

theorem local_readRemovedComponents (left : Nat) : ∀ patch : ComponentPatch,
    Local (readRemovedComponents profile left patch) := by
  induction left with
  | zero => exact fun patch => local_pure patch
  | succ left ih => exact fun patch => (local_readRemovedComponent profile patch).bind ih

theorem local_readComponentPatch : Local (readComponentPatch layout profile) := by
  refine (local_readBoundedCount _ _).bind fun added => ?_
  refine (local_readBoundedCount _ _).bind fun removed => ?_
  refine (local_readAddedComponents layout profile added _).bind fun patch => ?_
  exact local_readRemovedComponents profile removed patch

theorem local_decodeNonemptyStack (count : Int32) (rawItem : UInt32) :
    Local (decodeNonemptyStack layout profile count rawItem) := by
  refine local_ite (fun _ => local_fail _) fun _ => ?_
  cases profile.items.lookup rawItem with
  | none => exact local_fail _
  | some item => exact (local_readComponentPatch layout profile).bind fun _ => local_pure _

theorem local_decodeItemStack : Local (decodeItemStack layout profile) := by
  refine (local_onCodec local_readVarInt).bind fun count => ?_
  refine local_ite (fun _ => local_pure none) fun _ => ?_
  refine (local_readNonnegative _).bind fun rawItem => ?_
  exact (local_decodeNonemptyStack layout profile count rawItem).bind fun _ => local_pure _

end Layout

end Cubic.ItemWire
