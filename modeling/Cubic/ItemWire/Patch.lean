import Cubic.ItemWire.Extent

/-!
# What a decoded patch holds

Beside the bytes of each added component a patch keeps fingerprints and banner patterns. These
are what the profile makes of the bytes, so a sound patch is known by its bytes and by what it
removes. Every decoded patch is sound, and the components of a sound patch are decoded again
in any order.
-/

namespace Cubic.ItemWire

set_option autoImplicit false

/-- `minecraft:banner_patterns` -/
def bannerPatternsComponent : MinecraftIdentifier := ⟨"minecraft:banner_patterns", by decide +kernel⟩

theorem eq_bannerPatterns {identifier : MinecraftIdentifier}
    (h : componentCodec identifier = .bannerPatterns) : identifier = bannerPatternsComponent := by
  have harms : ∀ arm ∈ componentCodecs, arm.2 = .bannerPatterns → arm.1 = ["minecraft:banner_patterns"] := by
    decide
  unfold componentCodec codecOfName at h
  split at h
  · rename_i arm hfind
    have hname := harms arm (List.mem_of_find?_eq_some hfind) h
    have hcontains := List.find?_some hfind
    rw [hname, List.contains_iff_mem, List.mem_singleton] at hcontains
    exact MinecraftIdentifier.ext hcontains
  · cases h

/-! ### Numbers and fingerprints -/

theorem readNonnegative_ok {context : String} {s t : CodecReader} {value : UInt32}
    (h : readNonnegative context s = .ok value t) : value.toNat ≤ i32Max := by
  obtain ⟨read, _, _, h⟩ := Mut.bind_eq_ok.mp h
  split at h
  · cases h
  · rename_i hread
    cases h
    rw [Int32.toNat_toUInt32_of_le (Int32.not_lt.mp hread), i32Max, ← Int32.toNat_toInt]
    have hlt := read.toInt_lt
    omega

theorem reads_nonnegative {value : UInt32} (h : value.toNat ≤ i32Max) (context : String) :
    Reads (readNonnegative context) (writeVarInt value.toInt32) value := by
  refine ((reads_varInt value.toInt32).mapErr InventoryCodecError.codec).bindNil ?_
  have hnonneg : ¬ value.toInt32 < 0 := by
    rw [Int32.not_lt, Int32.le_iff_toInt_le]
    have heq : value.toInt32 = .ofNat value.toNat := by
      rw [← UInt32.toInt32_ofNat', UInt32.ofNat_toNat]
    rw [heq, toInt_ofNat_i32 h]
    exact Int.natCast_nonneg _
  rw [if_neg hnonneg, UInt32.toUInt32_toInt32]
  exact reads_pure value

theorem readBoundedCount_ok {context : String} {max count : Nat} {s t : CodecReader}
    (h : readBoundedCount context max s = .ok count t) : count ≤ max := by
  obtain ⟨read, _, _, h⟩ := Mut.bind_eq_ok.mp h
  split at h
  · cases h
  · split at h
    · cases h
    · rename_i hle
      cases h
      exact Nat.not_lt.mp hle

theorem reads_boundedCount {max count : Nat} (hmax : count ≤ max) (h : count ≤ i32Max)
    (context : String) :
    Reads (readBoundedCount context max) (writeVarInt (.ofNat count)) count := by
  refine ((reads_varInt (.ofNat count)).mapErr InventoryCodecError.codec).bindNil ?_
  rw [if_neg (Int32.not_lt.mpr (int32_nonneg h)), toInt_ofNat_i32 h, Int.toNat_natCast,
    if_neg (Nat.not_lt.mpr hmax)]
  exact reads_pure count

theorem ownReader_eq_ok {σ α : Type} {m : ItemM α} {bytes : Bytes} {s t : σ} {a : α} :
    ownReader m bytes s = .ok a t ↔ (∃ r, m (.new bytes) = .ok a r) ∧ t = s := by
  unfold ownReader
  cases m (.new bytes) with
  | ok b r =>
    constructor
    · intro h
      cases h
      exact ⟨⟨r, rfl⟩, rfl⟩
    · rintro ⟨⟨r', h⟩, rfl⟩
      cases h
      rfl
  | err e r => exact iff_of_false nofun fun h => nomatch h.1
  | panic => exact iff_of_false nofun fun h => nomatch h.1

/-- A fingerprint is that of the value, wherever the reader stands. -/
theorem componentHash_ok {profile : ItemStackProfile} {component : MinecraftIdentifier} {bytes : Bytes}
    {s t : CodecReader} {hash : Option Int32}
    (h : componentHash profile component bytes s = .ok hash t) :
    ∀ s', componentHash profile component bytes s' = .ok hash s' := by
  intro s'
  unfold componentHash at h ⊢
  cases hentry : (profile.componentRawIds.lookup component).bind profile.components.lookup with
  | none =>
    rw [hentry] at h
    cases h
  | some entry =>
    rw [hentry] at h
    exact ownReader_eq_ok.mpr ⟨(ownReader_eq_ok.mp h).1, rfl⟩

section Profile
variable (layout : NbtLayout) (profile : ItemStackProfile)

/-- The profile knows the component, under a raw id that can be written. -/
def Known (identifier : MinecraftIdentifier) : Prop :=
  ∃ raw : UInt32, raw.toNat ≤ i32Max ∧
    profile.components.lookup raw = some (identifier, componentCodec identifier)

/-- What the profile makes of the value of a component. -/
structure Valued (identifier : MinecraftIdentifier) (payload : Bytes) (hash : Option Int32)
    (patterns : Option BannerPatternLayers) : Prop where
  known : Known profile identifier
  reads : Reads (readComponent layout profile (componentCodec identifier) identifier) payload patterns
  size_le : payload.length ≤ maxComponentValueBytes
  hashed : ∀ s, componentHash profile identifier payload s = .ok hash s

structure Sound (patch : ComponentPatch) : Prop where
  valued : ∀ {identifier payload}, patch.added.lookup identifier = some payload →
    ∃ patterns, Valued layout profile identifier payload (patch.hashes.lookup identifier) patterns ∧
      (componentCodec identifier = .bannerPatterns → patch.bannerPatterns = patterns)
  hashes : ∀ {identifier}, patch.added.lookup identifier = none →
    patch.hashes.lookup identifier = none
  patterns : patch.added.lookup bannerPatternsComponent = none → patch.bannerPatterns = none
  removed : ∀ {identifier}, (patch.removed.lookup identifier).isSome →
    patch.added.lookup identifier = none ∧ Known profile identifier

variable {layout profile} {identifier : MinecraftIdentifier} {payload : Bytes}
  {hash hash' : Option Int32} {patterns patterns' : Option BannerPatternLayers}
  {patch patch' : ComponentPatch}

theorem Valued.unique (h : Valued layout profile identifier payload hash patterns)
    (h' : Valued layout profile identifier payload hash' patterns') :
    hash = hash' ∧ patterns = patterns' := by
  have hread := (h.reads [] []).symm.trans (h'.reads [] [])
  have hhash := (h.hashed (.new [])).symm.trans (h'.hashed (.new []))
  exact ⟨(Outcome.ok.inj hhash).1, (Outcome.ok.inj hread).1⟩

/-- Only banner patterns are kept beside their bytes. -/
theorem Valued.patterns_eq_none (h : Valued layout profile identifier payload hash patterns)
    (hcodec : componentCodec identifier ≠ .bannerPatterns) : patterns = none := by
  have hread := h.reads [] []
  rw [readComponent, if_neg hcodec] at hread
  obtain ⟨_, _, _, hpure⟩ := Mut.bind_eq_ok.mp hread
  exact (Outcome.ok.inj hpure).1.symm

theorem Valued.patterns_isSome (h : Valued layout profile identifier payload hash patterns)
    (hcodec : componentCodec identifier = .bannerPatterns) : ∃ layers, patterns = some layers := by
  have hread := h.reads [] []
  rw [readComponent, if_pos hcodec] at hread
  obtain ⟨layers, _, _, hpure⟩ := Mut.bind_eq_ok.mp hread
  exact ⟨layers, (Outcome.ok.inj hpure).1.symm⟩

/-- A sound patch is known by its bytes and by what it removes. -/
theorem Sound.ext (h : Sound layout profile patch) (h' : Sound layout profile patch')
    (hadded : patch.added = patch'.added) (hremoved : patch.removed = patch'.removed) :
    patch = patch' := by
  have hhashes : patch.hashes = patch'.hashes := by
    apply OrderedMap.ext_lookup
    intro identifier
    cases hlookup : patch.added.lookup identifier with
    | none => rw [h.hashes hlookup, h'.hashes (hadded ▸ hlookup)]
    | some payload =>
      obtain ⟨_, hvalued, -⟩ := h.valued hlookup
      obtain ⟨_, hvalued', -⟩ := h'.valued (hadded ▸ hlookup)
      exact (hvalued.unique hvalued').1
  have hpatterns : patch.bannerPatterns = patch'.bannerPatterns := by
    cases hlookup : patch.added.lookup bannerPatternsComponent with
    | none => rw [h.patterns hlookup, h'.patterns (hadded ▸ hlookup)]
    | some payload =>
      obtain ⟨_, hvalued, heq⟩ := h.valued hlookup
      obtain ⟨_, hvalued', heq'⟩ := h'.valued (hadded ▸ hlookup)
      rw [heq rfl, heq' rfl, (hvalued.unique hvalued').2]
  cases patch
  cases patch'
  cases hadded
  cases hremoved
  cases hhashes
  cases hpatterns
  rfl

theorem sound_default : Sound layout profile .default where
  valued h := nomatch h
  hashes _ := rfl
  patterns _ := rfl
  removed h := nomatch h

theorem lookup_added_self :
    (patch.add identifier payload hash patterns).added.lookup identifier = some payload := by
  rw [ComponentPatch.add, OrderedMap.lookup_insert, if_pos rfl]

theorem lookup_added_of_ne {identifier' : MinecraftIdentifier} (h : identifier' ≠ identifier) :
    (patch.add identifier payload hash patterns).added.lookup identifier' =
      patch.added.lookup identifier' := by
  rw [ComponentPatch.add, OrderedMap.lookup_insert, if_neg h]

theorem lookup_hashes_self (h : patch.hashes.lookup identifier = none) :
    (patch.add identifier payload hash patterns).hashes.lookup identifier = hash := by
  cases hash with
  | none => exact h
  | some value =>
    change (patch.hashes.insert identifier value).lookup identifier = some value
    rw [OrderedMap.lookup_insert, if_pos rfl]

theorem lookup_hashes_of_ne {identifier' : MinecraftIdentifier} (h : identifier' ≠ identifier) :
    (patch.add identifier payload hash patterns).hashes.lookup identifier' =
      patch.hashes.lookup identifier' := by
  cases hash with
  | none => rfl
  | some value =>
    change (patch.hashes.insert identifier value).lookup identifier' = _
    rw [OrderedMap.lookup_insert, if_neg h]

theorem Sound.add (h : Sound layout profile patch)
    (hvalued : Valued layout profile identifier payload hash patterns)
    (hfresh : patch.added.lookup identifier = none) (hremoved : patch.removed.lookup identifier = none) :
    Sound layout profile (patch.add identifier payload hash patterns) := by
  -- banner patterns are another component than one without patterns
  have hother : ∀ identifier', componentCodec identifier' = .bannerPatterns →
      identifier' ≠ identifier → patterns = none := fun identifier' hcodec hne =>
    hvalued.patterns_eq_none fun hsame =>
      hne ((eq_bannerPatterns hcodec).trans (eq_bannerPatterns hsame).symm)
  refine ⟨?_, ?_, ?_, ?_⟩
  · intro identifier' payload' hpayload
    by_cases hsame : identifier' = identifier
    · subst hsame
      rw [lookup_added_self] at hpayload
      cases hpayload
      rw [lookup_hashes_self (h.hashes hfresh)]
      refine ⟨patterns, hvalued, fun hcodec => ?_⟩
      obtain ⟨layers, hlayers⟩ := hvalued.patterns_isSome hcodec
      rw [hlayers]
      rfl
    · rw [lookup_added_of_ne hsame] at hpayload
      obtain ⟨patterns', hvalued', heq⟩ := h.valued hpayload
      rw [lookup_hashes_of_ne hsame]
      refine ⟨patterns', hvalued', fun hcodec => ?_⟩
      rw [← heq hcodec, hother identifier' hcodec hsame]
      rfl
  · intro identifier' hnone
    by_cases hsame : identifier' = identifier
    · rw [hsame, lookup_added_self] at hnone
      cases hnone
    · rw [lookup_added_of_ne hsame] at hnone
      rw [lookup_hashes_of_ne hsame]
      exact h.hashes hnone
  · intro hnone
    have hne : bannerPatternsComponent ≠ identifier := by
      rintro rfl
      rw [lookup_added_self] at hnone
      cases hnone
    rw [lookup_added_of_ne hne] at hnone
    change patterns.or patch.bannerPatterns = none
    rw [hother bannerPatternsComponent rfl hne, h.patterns hnone]
    rfl
  · intro identifier' hsome
    obtain ⟨hnone, hknown⟩ := h.removed hsome
    refine ⟨?_, hknown⟩
    rw [lookup_added_of_ne]
    · exact hnone
    · rintro rfl
      change (patch.removed.lookup identifier').isSome at hsome
      rw [hremoved] at hsome
      cases hsome

theorem Sound.remove (h : Sound layout profile patch) (hknown : Known profile identifier)
    (hadded : patch.added.lookup identifier = none) :
    Sound layout profile { patch with removed := patch.removed.insert identifier () } where
  valued := h.valued
  hashes := h.hashes
  patterns := h.patterns
  removed {identifier'} hsome := by
    rw [OrderedMap.lookup_insert] at hsome
    split at hsome
    · rename_i heq
      subst heq
      exact ⟨hadded, hknown⟩
    · exact h.removed hsome

/-! ### Decoded patches are sound -/

theorem readAddedComponent_ok {s t : CodecReader}
    (h : readAddedComponent layout profile patch s = .ok patch' t) :
    ∃ identifier payload hash patterns, Valued layout profile identifier payload hash patterns ∧
      patch.added.lookup identifier = none ∧ patch' = patch.add identifier payload hash patterns := by
  obtain ⟨raw, s₁, hraw, h⟩ := Mut.bind_eq_ok.mp h
  cases hlookup : profile.components.lookup raw with
  | none =>
    rw [hlookup] at h
    cases h
  | some entry =>
    obtain ⟨identifier, codec⟩ := entry
    rw [hlookup] at h
    have hcodec := ItemStackProfile.component_codec hlookup
    subst hcodec
    obtain ⟨value, s₂, hvalue, h⟩ := Mut.bind_eq_ok.mp h
    have hreads := (local_readComponent layout profile _ identifier).of_withConsumed hvalue
    split at h
    · cases h
    · rename_i hsize
      split at h
      · cases h
      · rename_i hfresh
        obtain ⟨hash, s₃, hhash, h⟩ := Mut.bind_eq_ok.mp h
        cases h
        refine ⟨identifier, value.2, hash, value.1, ⟨?_, hreads.reads, Nat.not_lt.mp hsize,
          componentHash_ok hhash⟩, Option.not_isSome_iff_eq_none.mp hfresh, rfl⟩
        exact ⟨raw, readNonnegative_ok hraw, hlookup⟩

/-- A patch that is sound and removes nothing yet. -/
theorem readAddedComponents_ok (left : Nat) : ∀ {patch : ComponentPatch} {s : CodecReader},
    Sound layout profile patch → (∀ identifier, patch.removed.lookup identifier = none) →
    ∀ {patch' t}, readAddedComponents layout profile left patch s = .ok patch' t →
      Sound layout profile patch' ∧ patch'.added.size = patch.added.size + left ∧
        ∀ identifier, patch'.removed.lookup identifier = none := by
  induction left with
  | zero =>
    intro patch s hsound hremoved patch' t h
    cases h
    exact ⟨hsound, rfl, hremoved⟩
  | succ left ih =>
    intro patch s hsound hremoved patch' t h
    obtain ⟨next, s₁, hnext, h⟩ := Mut.bind_eq_ok.mp h
    obtain ⟨identifier, payload, hash, patterns, hvalued, hfresh, rfl⟩ := readAddedComponent_ok hnext
    obtain ⟨hsound', hsize, hremoved'⟩ :=
      ih (hsound.add hvalued hfresh (hremoved identifier)) hremoved h
    refine ⟨hsound', ?_, hremoved'⟩
    have hinsert : (patch.add identifier payload hash patterns).added.size = patch.added.size + 1 := by
      rw [ComponentPatch.add, OrderedMap.size_insert, hfresh]
      rfl
    rw [hsize, hinsert]
    omega

theorem readRemovedComponents_ok (left : Nat) : ∀ {patch : ComponentPatch} {s : CodecReader},
    Sound layout profile patch → ∀ {patch' t},
    readRemovedComponents profile left patch s = .ok patch' t →
      Sound layout profile patch' ∧ patch'.added = patch.added ∧
        patch'.removed.size = patch.removed.size + left := by
  induction left with
  | zero =>
    intro patch s hsound patch' t h
    cases h
    exact ⟨hsound, rfl, rfl⟩
  | succ left ih =>
    intro patch s hsound patch' t h
    obtain ⟨next, s₁, hnext, h⟩ := Mut.bind_eq_ok.mp h
    obtain ⟨raw, s₂, hraw, hnext⟩ := Mut.bind_eq_ok.mp hnext
    cases hlookup : profile.components.lookup raw with
    | none =>
      rw [hlookup] at hnext
      cases hnext
    | some entry =>
      obtain ⟨identifier, codec⟩ := entry
      rw [hlookup] at hnext
      dsimp only at hnext
      split at hnext
      · cases hnext
      · rename_i hconflict
        cases hnext
        obtain ⟨hadded, hremoved⟩ := not_or.mp hconflict
        have hcodec := ItemStackProfile.component_codec hlookup
        subst hcodec
        obtain ⟨hsound', hkept, hsize⟩ := ih (hsound.remove ⟨raw, readNonnegative_ok hraw, hlookup⟩
          (Option.not_isSome_iff_eq_none.mp hadded)) h
        refine ⟨hsound', hkept, ?_⟩
        rw [hsize, OrderedMap.size_insert, if_neg hremoved]
        omega

/-- A decoded patch is sound, and not larger than a stack may have it. -/
theorem readComponentPatch_ok {s t : CodecReader}
    (h : readComponentPatch layout profile s = .ok patch t) :
    Sound layout profile patch ∧
      patch.added.size + patch.removed.size ≤ maxComponentsPerStack := by
  obtain ⟨added, s₁, hadded, h⟩ := Mut.bind_eq_ok.mp h
  obtain ⟨removed, s₂, hremoved, h⟩ := Mut.bind_eq_ok.mp h
  obtain ⟨middle, s₃, hmiddle, h⟩ := Mut.bind_eq_ok.mp h
  obtain ⟨hsound, hsize, hnone⟩ := readAddedComponents_ok added sound_default (fun _ => rfl) hmiddle
  obtain ⟨hsound', hkept, hsize'⟩ := readRemovedComponents_ok removed hsound h
  refine ⟨hsound', ?_⟩
  have hempty : middle.removed = .empty := OrderedMap.ext_lookup hnone
  have hmax := readBoundedCount_ok hadded
  have hmax' := readBoundedCount_ok hremoved
  rw [hkept, hsize, hsize', hempty]
  change 0 + added + (0 + removed) ≤ maxComponentsPerStack
  omega

end Profile

end Cubic.ItemWire
