import Cubic.Nbt.Decode

/-!
# The two unnamed network forms of a compound

`encode_unnamed_network_tag` and `decode_unnamed_network_tag` treat a compound as the root forms
do, at the same depth and with the same charges.
-/

namespace Cubic

set_option autoImplicit false

open NbtM

/-- `NbtTag::Compound` -/
def NbtCompound.tag (c : NbtCompound) : NbtTag := ⟨.compound c.val, c.property⟩

section Limits
variable {limits : NbtLimits} {layout : NbtLayout}

theorem encodeUnnamedNetworkTag_compound (c : NbtCompound) :
    encodeUnnamedNetworkTag limits layout c.tag = encodeUnnamedNetworkRoot limits layout c := by
  have hvalidate : validateTag limits layout 0 c.tag.val = validateRoot limits layout c.val none := by
    funext b
    change validateTag limits layout 0 (.compound c.val) b = _
    rw [validateTag, validateRoot]
    rfl
  have hpayload : encodePayload limits c.tag.val = encodeCompound limits c.val := by
    change encodePayload limits (.compound c.val) = _
    rw [encodePayload, encodeCompound]
  rw [encodeUnnamedNetworkTag, encodeUnnamedNetworkRoot, hvalidate, hpayload]
  rfl

variable {s s' : DecodeContext} {c : NbtCompound}

theorem requireCompoundRoot_eq_ok :
    requireCompoundRoot s = .ok () s' ↔
      readTypeId "NBT root type" s = .ok NbtTagType.compound.id s' := by
  unfold requireCompoundRoot
  rw [Mut.bind_eq_ok]
  constructor
  · rintro ⟨id, t, hid, h⟩
    split at h
    · cases h
    split at h
    · cases h
    rename_i hcompound
    cases h
    rw [hid, not_not.mp hcompound]
  · intro hid
    exact ⟨_, _, hid, rfl⟩

/-- After the type byte both forms count the root and decode its entries. -/
theorem decodeUnnamedNetworkRoot_eq_ok :
    decodeUnnamedNetworkRoot limits layout s = .ok c s' ↔ ∃ t u,
      readTypeId "NBT root type" s = .ok NbtTagType.compound.id t ∧
      spend (addTag limits 0) t = .ok () u ∧ decodeCompound limits layout 0 u = .ok c.val s' := by
  unfold decodeUnnamedNetworkRoot decodeRootCompound
  rw [Mut.bind_eq_ok]
  constructor
  · rintro ⟨_, t, hroot, h⟩
    obtain ⟨_, u, hcount, h⟩ := Mut.bind_eq_ok.mp h
    exact ⟨t, u, requireCompoundRoot_eq_ok.mp hroot, hcount, Mut.certify_eq_ok.mp h⟩
  · rintro ⟨t, u, hid, hcount, h⟩
    exact ⟨(), t, requireCompoundRoot_eq_ok.mpr hid,
      Mut.bind_eq_ok.mpr ⟨(), u, hcount, Mut.certify_eq_ok.mpr h⟩⟩

theorem decodePayloadUpTo_tagType (fuel : Nat) {type : NbtTagType} {depth : Nat} {t : NbtTree}
    (h : decodePayloadUpTo limits layout fuel type depth s = .ok t s') : t.tagType = type := by
  cases fuel with
  | zero =>
    obtain ⟨_, u, _, h⟩ := Mut.bind_eq_ok.mp h
    cases h
  | succ fuel =>
    obtain ⟨_, u, _, h⟩ := Mut.bind_eq_ok.mp h
    cases type with
    | tagEnd => cases h
    | list =>
      obtain ⟨id, s₁, _, h⟩ := Mut.bind_eq_ok.mp h
      obtain ⟨length, s₂, _, h⟩ := Mut.bind_eq_ok.mp h
      by_cases hlength : length ≤ 0
      · rw [if_pos hlength] at h
        cases h
        rfl
      rw [if_neg hlength] at h
      obtain ⟨_, s₃, _, h⟩ := Mut.bind_eq_ok.mp h
      cases htype : NbtTagType.fromId id with
      | none =>
        rw [htype] at h
        cases h
      | some elementType =>
      rw [htype] at h
      by_cases hend : elementType = .tagEnd
      · simp only [if_pos hend] at h
        cases h
      simp only [if_neg hend] at h
      obtain ⟨allocation, s₄, _, h⟩ := Mut.bind_eq_ok.mp h
      obtain ⟨_, s₅, _, h⟩ := Mut.bind_eq_ok.mp h
      obtain ⟨next, s₆, _, h⟩ := Mut.bind_eq_ok.mp h
      obtain ⟨elements, s₇, _, h⟩ := Mut.bind_eq_ok.mp h
      obtain ⟨_, s₈, _, h⟩ := Mut.bind_eq_ok.mp h
      cases h
      rfl
    | byteArray =>
      obtain ⟨length, s₁, _, h⟩ := Mut.bind_eq_ok.mp h
      obtain ⟨_, s₂, _, h⟩ := Mut.bind_eq_ok.mp h
      obtain ⟨bytes, s₃, _, h⟩ := Mut.bind_eq_ok.mp h
      obtain ⟨_, s₄, _, h⟩ := Mut.bind_eq_ok.mp h
      cases h
      rfl
    | intArray =>
      obtain ⟨length, s₁, _, h⟩ := Mut.bind_eq_ok.mp h
      obtain ⟨byteLength, s₂, _, h⟩ := Mut.bind_eq_ok.mp h
      obtain ⟨bytes, s₃, _, h⟩ := Mut.bind_eq_ok.mp h
      obtain ⟨_, s₄, _, h⟩ := Mut.bind_eq_ok.mp h
      obtain ⟨values, rfl⟩ := readValue_canonical h
      rfl
    | longArray =>
      obtain ⟨length, s₁, _, h⟩ := Mut.bind_eq_ok.mp h
      obtain ⟨byteLength, s₂, _, h⟩ := Mut.bind_eq_ok.mp h
      obtain ⟨bytes, s₃, _, h⟩ := Mut.bind_eq_ok.mp h
      obtain ⟨_, s₄, _, h⟩ := Mut.bind_eq_ok.mp h
      obtain ⟨values, rfl⟩ := readValue_canonical h
      rfl
    | _ =>
      obtain ⟨value, rfl⟩ := readValue_canonical h
      rfl

theorem decodePayload_compound_eq_ok {t : DecodeContext} :
    decodePayload limits layout .compound 0 t = .ok (.compound c.val) s' ↔ ∃ u,
      spend (addTag limits 0) t = .ok () u ∧ decodeCompound limits layout 0 u = .ok c.val s' := by
  unfold decodePayload
  rw [decodePayloadUpTo, Mut.bind_eq_ok]
  constructor
  · rintro ⟨_, u, hcount, h⟩
    obtain ⟨entries, v, hentries, h⟩ := Mut.bind_eq_ok.mp h
    cases h
    exact ⟨u, hcount, hentries⟩
  · rintro ⟨u, hcount, h⟩
    exact ⟨(), u, hcount, Mut.bind_eq_ok.mpr ⟨c.val, s', h, rfl⟩⟩

theorem decodeUnnamedNetworkTag_eq_ok :
    decodeUnnamedNetworkTag limits layout s = .ok c.tag s' ↔ ∃ t u,
      readTypeId "NBT root type" s = .ok NbtTagType.compound.id t ∧
      spend (addTag limits 0) t = .ok () u ∧ decodeCompound limits layout 0 u = .ok c.val s' := by
  unfold decodeUnnamedNetworkTag
  rw [Mut.bind_eq_ok]
  constructor
  · rintro ⟨id, t, hid, h⟩
    split at h
    · cases h
    cases htype : NbtTagType.fromId id with
    | none =>
      rw [htype] at h
      cases h
    | some type =>
      rw [htype] at h
      have hpayload := Mut.certify_eq_ok.mp h
      have hcompound : NbtTagType.compound = type := decodePayloadUpTo_tagType _ hpayload
      subst hcompound
      obtain ⟨u, hcount, hentries⟩ := decodePayload_compound_eq_ok.mp hpayload
      rw [← NbtTagType.id_of_fromId htype] at hid
      exact ⟨t, u, hid, hcount, hentries⟩
  · rintro ⟨t, u, hid, hcount, h⟩
    exact ⟨_, t, hid, Mut.certify_eq_ok.mpr (decodePayload_compound_eq_ok.mpr ⟨u, hcount, h⟩)⟩

end Limits

/-- The two unnamed entry points write the same bytes for a compound, or fail alike, and read
the same compounds from the same bytes. -/
theorem unnamedNetwork_agree (limits : NbtLimits) (layout : NbtLayout) :
    (∀ c : NbtCompound, encodeUnnamedNetworkTag limits layout c.tag =
      encodeUnnamedNetworkRoot limits layout c) ∧
      ∀ (b : Bytes) (c : NbtCompound) (k : Nat),
        (∃ s, decodeUnnamedNetworkRoot limits layout (.new (.new b)) = .ok c s ∧
          s.reader.position = k) ↔
        ∃ s, decodeUnnamedNetworkTag limits layout (.new (.new b)) = .ok c.tag s ∧
          s.reader.position = k := by
  refine ⟨encodeUnnamedNetworkTag_compound, fun b c k => exists_congr fun s => and_congr_left' ?_⟩
  rw [decodeUnnamedNetworkRoot_eq_ok, decodeUnnamedNetworkTag_eq_ok]

end Cubic
