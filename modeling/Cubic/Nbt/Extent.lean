import Cubic.Codec.Extent
import Cubic.Nbt.Decode

/-!
# NBT finds its own end

A tag says by its type and its lengths where it ends, so the decoder is local: it leaves the
bytes after the tag to the caller, and decodes the tag alike wherever it stands.
-/

namespace Cubic

set_option autoImplicit false

open NbtM

instance : Cursor DecodeContext where
  reader c := c.reader
  put r c := { c with reader := r }
  reader_put _ _ := rfl
  put_put _ _ _ := rfl
  put_reader _ := rfl

section
variable {α : Type}

theorem local_read {m : ReaderM α} (hm : Local m) : Local (read m) := (hm.mapErr NbtError.codec).zoom

theorem local_spend (m : BudgetM α) : Local (spend m) := by
  apply local_of_frame
  intro s a t h
  obtain ⟨b, hb, rfl⟩ := Mut.zoom_eq_ok.mp h
  refine ⟨rfl, fun r => ?_⟩
  exact Mut.zoom_eq_ok.mpr ⟨b, hb, rfl⟩

theorem local_readTypeId (context : String) : Local (readTypeId context) := by
  refine (local_read (local_readBytes 1 context)).bind fun bytes => ?_
  cases bytes with
  | nil => exact local_fail _
  | cons byte rest => exact local_pure byte

theorem local_readCollectionLength (kind : NbtCollectionKind) : Local (readCollectionLength kind) := by
  refine (local_read local_readI32).bind fun value => ?_
  exact local_ite (fun _ => local_fail _) fun _ => local_pure _

theorem local_checkCollectionLimit (kind : NbtCollectionKind) (length max : Nat) :
    Local (checkCollectionLimit kind length max) :=
  local_ite (fun _ => local_fail _) fun _ => local_pure _

theorem local_readValues (m : ReaderM α) (length : Nat) (bytes : Bytes) :
    Local (readValues m length bytes) := by
  unfold readValues
  cases Mut.repeatCall m length (.new bytes) with
  | ok values r => exact local_pure values
  | err e r => exact local_fail _
  | panic => exact local_fault

theorem local_record (bytes : Bytes) :
    Local (Mut.modify fun c : DecodeContext => { c with rawZero := c.rawZero || bytes.contains 0 } :
      NbtM Unit) := by
  apply local_of_frame
  intro s u t h
  cases h
  exact ⟨rfl, fun r => rfl⟩

end

section Limits
variable (limits : NbtLimits) (layout : NbtLayout)

theorem local_nbtString : Local (NbtString.decode limits) := by
  refine (local_read local_readU16).bind fun length => ?_
  refine (local_ofExcept _).bind fun _ => ?_
  refine (local_read (local_readBytes _ _)).bind fun bytes => ?_
  refine (local_record bytes).bind fun _ => ?_
  cases checkedMul length.toNat 2 with
  | none => exact local_fail _
  | some allocation => exact (local_spend _).bind fun _ => local_ofExcept _

theorem local_checkArrayLength (length : Nat) (kind : NbtCollectionKind) (elementSize : Nat) :
    Local (checkArrayLength limits length kind elementSize) :=
  (local_checkCollectionLimit _ _ _).bind fun _ => local_ofExcept _

theorem local_byteArray : Local (decodeByteArray limits) := by
  refine (local_readCollectionLength _).bind fun length => ?_
  refine (local_checkArrayLength limits length _ _).bind fun _ => ?_
  refine (local_read (local_readBytes _ _)).bind fun bytes => ?_
  exact (local_spend _).bind fun _ => local_pure _

theorem local_intArray : Local (decodeIntArray limits) := by
  refine (local_readCollectionLength _).bind fun length => ?_
  refine (local_checkArrayLength limits length _ _).bind fun byteLength => ?_
  refine (local_read (local_readBytes _ _)).bind fun bytes => ?_
  refine (local_spend _).bind fun _ => ?_
  exact (local_readValues _ _ _).bind fun values => local_pure _

theorem local_longArray : Local (decodeLongArray limits) := by
  refine (local_readCollectionLength _).bind fun length => ?_
  refine (local_checkArrayLength limits length _ _).bind fun byteLength => ?_
  refine (local_read (local_readBytes _ _)).bind fun bytes => ?_
  refine (local_spend _).bind fun _ => ?_
  exact (local_readValues _ _ _).bind fun values => local_pure _

section Children
variable {limits layout} {child : NbtTagType → Nat → NbtM NbtTree}
  (hchild : ∀ type depth, Local (child type depth))
include hchild

theorem local_list (depth : Nat) : Local (decodeListWith limits layout child depth) := by
  refine (local_readTypeId _).bind fun elementTypeId => ?_
  refine (local_read local_readI32).bind fun signedLength => ?_
  refine local_ite (fun _ => local_pure _) fun _ => ?_
  refine (local_checkCollectionLimit _ _ _).bind fun _ => ?_
  cases NbtTagType.fromId elementTypeId with
  | none => exact local_fail _
  | some elementType =>
    refine local_ite (fun _ => local_fail _) fun _ => ?_
    refine (local_ofExcept _).bind fun allocation => ?_
    refine (local_spend _).bind fun _ => ?_
    refine (local_ofExcept _).bind fun childDepth => ?_
    refine ((hchild elementType childDepth).repeatCall _).bind fun elements => ?_
    exact (local_ofExcept _).bind fun _ => local_pure _

omit hchild in
theorem local_nextEntry (wireEntries : Nat) : Local (nextEntry limits wireEntries) := by
  refine (local_readTypeId _).bind fun typeId => ?_
  refine local_ite (fun _ => local_pure none) fun _ => ?_
  cases checkedAdd wireEntries 1 with
  | none => exact local_fail _
  | some wireEntries =>
    refine (local_checkCollectionLimit _ _ _).bind fun _ => ?_
    cases NbtTagType.fromId typeId with
    | none => exact local_fail _
    | some tagType => exact local_pure (some tagType)

theorem local_entries (depth left : Nat) : ∀ (wireEntries : Nat)
    (compound : List (NbtString × NbtTree)),
    Local (decodeEntries limits layout child depth left wireEntries compound) := by
  induction left with
  | zero =>
    intro wireEntries compound
    refine (local_nextEntry wireEntries).bind fun next => ?_
    cases next with
    | none => exact local_pure compound
    | some tagType => exact local_fault
  | succ left ih =>
    intro wireEntries compound
    refine (local_nextEntry wireEntries).bind fun next => ?_
    cases next with
    | none => exact local_pure compound
    | some tagType =>
      refine (local_spend _).bind fun _ => ?_
      refine (local_nbtString limits).bind fun name => ?_
      refine (local_ofExcept _).bind fun childDepth => ?_
      exact (hchild tagType childDepth).bind fun value => ih _ _

theorem local_compound (depth : Nat) : Local (decodeCompoundWith limits layout child depth) :=
  local_entries hchild depth _ 0 []

end Children

theorem local_payload (fuel : Nat) : ∀ (tagType : NbtTagType) (depth : Nat),
    Local (decodePayloadUpTo limits layout fuel tagType depth) := by
  induction fuel with
  | zero => exact fun _ _ => (local_spend _).bind fun _ => local_fault
  | succ fuel ih =>
    intro tagType depth
    refine (local_spend _).bind fun _ => ?_
    cases tagType with
    | tagEnd => exact local_fail _
    | byte => exact (local_read local_readI8).bind fun _ => local_pure _
    | short => exact (local_read local_readI16).bind fun _ => local_pure _
    | int => exact (local_read local_readI32).bind fun _ => local_pure _
    | long => exact (local_read local_readI64).bind fun _ => local_pure _
    | float => exact (local_read local_readF32).bind fun _ => local_pure _
    | double => exact (local_read local_readF64).bind fun _ => local_pure _
    | byteArray => exact local_byteArray limits
    | string => exact (local_nbtString limits).bind fun _ => local_pure _
    | list => exact local_list ih depth
    | compound => exact (local_compound ih depth).bind fun _ => local_pure _
    | intArray => exact local_intArray limits
    | longArray => exact local_longArray limits

theorem local_unnamedNetworkTag : Local (decodeUnnamedNetworkTag limits layout) := by
  refine (local_readTypeId _).bind fun id => ?_
  refine local_ite (fun _ => local_fail _) fun _ => ?_
  cases NbtTagType.fromId id with
  | none => exact local_fail _
  | some tagType => exact (local_payload limits layout _ tagType 0).certify

end Limits

/-- The context of an entry point is its own, so the caller's reader is all that it changes. -/
theorem Local.onReader {ε α : Type} {decode : NbtM α} (h : Local decode) (g : NbtError → ε) :
    Local (onReader g decode) := by
  intro r a r' hread
  obtain ⟨c, hc, rfl⟩ : ∃ c, decode (.new r) = .ok a c ∧ r' = c.reader := by
    unfold Cubic.onReader at hread
    cases hdecode : decode (.new r) with
    | ok root c =>
      rw [hdecode] at hread
      cases hread
      exact ⟨c, rfl, rfl⟩
    | err e c =>
      rw [hdecode] at hread
      cases hread
    | panic =>
      rw [hdecode] at hread
      cases hread
  obtain ⟨xs, hxs⟩ := h (.new r) a c hc
  refine ⟨xs, hxs.rest, hxs.before, fun before rest => ?_⟩
  have hrun : decode (.new ⟨before, xs ++ rest⟩) = .ok a { c with reader := ⟨before ++ xs, rest⟩ } :=
    hxs.anywhere before rest
  change Cubic.onReader g decode ⟨before, xs ++ rest⟩ = .ok a ⟨before ++ xs, rest⟩
  rw [Cubic.onReader, hrun]

end Cubic
