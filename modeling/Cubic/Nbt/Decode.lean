import Cubic.Nbt.Encode

/-!
# The NBT decoder (`nbt/decode.rs`)

The recursion is bounded by the depth limit and the loop over a compound by the entry
limit; what lies beyond is rejected before it is read.
-/

namespace Cubic

set_option autoImplicit false

/-- The context and the reader. `rawZero` is not in the source: it says whether a string
that was read had a raw zero byte. -/
structure DecodeContext where
  reader : CodecReader
  budget : Budget
  rawZero : Bool
  deriving DecidableEq

def DecodeContext.new (reader : CodecReader) : DecodeContext := ⟨reader, ⟨0, 0⟩, false⟩

abbrev NbtM := Mut DecodeContext NbtError

namespace NbtM

def read {α : Type} (m : ReaderM α) : NbtM α :=
  Mut.zoom DecodeContext.reader (fun r c => { c with reader := r }) (Mut.mapErr .codec m)

def spend {α : Type} (m : BudgetM α) : NbtM α :=
  Mut.zoom DecodeContext.budget (fun b c => { c with budget := b }) m

end NbtM

open NbtM

def readTypeId (context : String) : NbtM UInt8 := do
  let bytes ← read (readBytes 1 context)
  match bytes with
  | byte :: _ => pure byte
  | [] => Mut.fail (.codec (.unexpectedEnd context 1 0))

def readCollectionLength (kind : NbtCollectionKind) : NbtM Nat := do
  let value ← read readI32
  if value < 0 then Mut.fail (.negativeCollectionLength kind value) else pure value.toInt.toNat

def checkCollectionLimit (kind : NbtCollectionKind) (length max : Nat) : NbtM Unit :=
  if length > max then Mut.fail (.collectionTooLarge kind length max) else pure ()

/-- `for _ in 0..length` over the bytes of an array, in a reader of their own. -/
def readValues {α : Type} (m : ReaderM α) (length : Nat) (bytes : Bytes) : NbtM (List α) :=
  match Mut.repeatCall m length (.new bytes) with
  | .ok values _ => pure values
  | .err e _ => Mut.fail (.codec e)
  | .panic => Mut.fault

section Limits
variable (limits : NbtLimits) (layout : NbtLayout)

/-- `NbtString::decode` -/
def NbtString.decode : NbtM NbtString := do
  let length ← read readU16
  Mut.ofExcept (validateEncodedLength limits length.toNat)
  let bytes ← read (readBytes length.toNat "NBT Modified UTF-8 bytes")
  Mut.modify fun c => { c with rawZero := c.rawZero || bytes.contains 0 }
  match checkedMul length.toNat 2 with
  | none => Mut.fail (.allocationBudgetExceeded usizeMax limits.maxTotalAllocatedBytes.toNat)
  | some allocation => do
    spend (chargeBudget limits allocation)
    Mut.ofExcept (decodeUnits 0 bytes)

def checkArrayLength (length : Nat) (kind : NbtCollectionKind) (elementSize : Nat) : NbtM Nat := do
  checkCollectionLimit kind length limits.maxArrayElements.toNat
  Mut.ofExcept (checkedCollectionBytes kind length elementSize)

def decodeByteArray : NbtM NbtTree := do
  let length ← readCollectionLength .byteArray
  let _ ← checkArrayLength limits length .byteArray 1
  let bytes ← read (readBytes length "TAG_Byte_Array payload")
  spend (chargeBudget limits length)
  pure (.byteArray bytes)

def decodeIntArray : NbtM NbtTree := do
  let length ← readCollectionLength .intArray
  let byteLength ← checkArrayLength limits length .intArray 4
  let bytes ← read (readBytes byteLength "TAG_Int_Array payload")
  spend (chargeBudget limits byteLength)
  let values ← readValues readI32 length bytes
  pure (.intArray values)

def decodeLongArray : NbtM NbtTree := do
  let length ← readCollectionLength .longArray
  let byteLength ← checkArrayLength limits length .longArray 8
  let bytes ← read (readBytes byteLength "TAG_Long_Array payload")
  spend (chargeBudget limits byteLength)
  let values ← readValues readI64 length bytes
  pure (.longArray values)

/-- `decode_list`, with `decode_payload` at a given depth as an argument. -/
def decodeListWith (decodePayload : NbtTagType → Nat → NbtM NbtTree) (depth : Nat) : NbtM NbtTree := do
  let elementTypeId ← readTypeId "TAG_List element type"
  let signedLength ← read readI32
  if signedLength ≤ 0 then pure (.list elementTypeId [])
  else do
    let length := signedLength.toInt.toNat
    checkCollectionLimit .list length limits.maxListElements.toNat
    match NbtTagType.fromId elementTypeId with
    | none => Mut.fail (.invalidTagId elementTypeId)
    | some elementType =>
      if elementType = .tagEnd then Mut.fail .endListWithElements
      else do
        let allocation ← Mut.ofExcept (checkedCollectionBytes .list length layout.tagBytes)
        spend (chargeBudget limits allocation)
        let childDepth ← Mut.ofExcept (nextDepth limits depth)
        let elements ← Mut.repeatCall (decodePayload elementType childDepth) length
        Mut.ofExcept (validateList elementType.id elements)
        pure (.list elementType.id elements)

/-- The head of an entry, up to its type; none at the end of the compound. -/
def nextEntry (wireEntries : Nat) : NbtM (Option NbtTagType) := do
  let typeId ← readTypeId "TAG_Compound child type"
  if typeId = NbtTagType.tagEnd.id then pure none
  else
    match checkedAdd wireEntries 1 with
    | none => Mut.fail (.collectionTooLarge .compound usizeMax limits.maxCompoundEntries.toNat)
    | some wireEntries => do
      checkCollectionLimit .compound wireEntries limits.maxCompoundEntries.toNat
      match NbtTagType.fromId typeId with
      | none => Mut.fail (.invalidTagId typeId)
      | some tagType => pure (some tagType)

/-- The loop of `decode_compound`, with room for `left` more entries. -/
def decodeEntries (decodePayload : NbtTagType → Nat → NbtM NbtTree) (depth : Nat) :
    Nat → Nat → List (NbtString × NbtTree) → NbtM (List (NbtString × NbtTree))
  | 0, wireEntries, compound => do
    match ← nextEntry limits wireEntries with
    | none => pure compound
    | some _ => Mut.fault
  | left + 1, wireEntries, compound => do
    match ← nextEntry limits wireEntries with
    | none => pure compound
    | some tagType => do
      spend (chargeBudget limits layout.compoundEntryBudget)
      let name ← NbtString.decode limits
      let childDepth ← Mut.ofExcept (nextDepth limits depth)
      let value ← decodePayload tagType childDepth
      decodeEntries decodePayload depth left (wireEntries + 1) (Entries.insert name value compound)

def decodeCompoundWith (decodePayload : NbtTagType → Nat → NbtM NbtTree) (depth : Nat) :
    NbtM (List (NbtString × NbtTree)) :=
  decodeEntries limits layout decodePayload depth limits.maxCompoundEntries.toNat 0 []

/-- At most `fuel` more levels. -/
def decodePayloadUpTo : Nat → NbtTagType → Nat → NbtM NbtTree
  | 0, _, depth => do
    spend (addTag limits depth)
    Mut.fault
  | fuel + 1, tagType, depth => do
    spend (addTag limits depth)
    match tagType with
    | .tagEnd => Mut.fail (.unexpectedEndTag "NBT payload")
    | .byte => do
      let value ← read readI8
      pure (.byte value)
    | .short => do
      let value ← read readI16
      pure (.short value)
    | .int => do
      let value ← read readI32
      pure (.int value)
    | .long => do
      let value ← read readI64
      pure (.long value)
    | .float => do
      let bits ← read readF32
      pure (.float bits)
    | .double => do
      let bits ← read readF64
      pure (.double bits)
    | .byteArray => decodeByteArray limits
    | .string => do
      let value ← NbtString.decode limits
      pure (.string value)
    | .list => decodeListWith limits layout (decodePayloadUpTo fuel) depth
    | .compound => do
      let entries ← decodeCompoundWith limits layout (decodePayloadUpTo fuel) depth
      pure (.compound entries)
    | .intArray => decodeIntArray limits
    | .longArray => decodeLongArray limits

/-- Levels deeper than the limit are rejected, so the fuel is never used up. -/
def decodePayload : NbtTagType → Nat → NbtM NbtTree :=
  decodePayloadUpTo limits layout (limits.maxDepth.toNat + 1)

def decodeCompound (depth : Nat) : NbtM (List (NbtString × NbtTree)) :=
  decodeCompoundWith limits layout (decodePayloadUpTo limits layout limits.maxDepth.toNat) depth

/-! ### Decoded trees are canonical -/

variable {limits layout}

theorem readValue_canonical {α : Type} {m : NbtM α} {f : α → NbtTree} {s s' : DecodeContext}
    {t : NbtTree} (h : (m >>= fun a => pure (f a)) s = .ok t s') : ∃ a, t = f a := by
  obtain ⟨a, s₁, _, h⟩ := Mut.bind_eq_ok.mp h
  cases h
  exact ⟨a, rfl⟩

section Children
variable {child : NbtTagType → Nat → NbtM NbtTree}
  (hchild : ∀ {type depth s t s'}, child type depth s = .ok t s' → t.Canonical)
include hchild

theorem decodeListWith_canonical {depth : Nat} {s s' : DecodeContext} {t : NbtTree}
    (h : decodeListWith limits layout child depth s = .ok t s') : t.Canonical := by
  obtain ⟨id, s₁, _, h⟩ := Mut.bind_eq_ok.mp h
  obtain ⟨length, s₂, _, h⟩ := Mut.bind_eq_ok.mp h
  by_cases hlength : length ≤ 0
  · rw [if_pos hlength] at h
    cases h
    exact ⟨trivial, trivial⟩
  rw [if_neg hlength] at h
  obtain ⟨_, s₃, _, h⟩ := Mut.bind_eq_ok.mp h
  cases htype : NbtTagType.fromId id with
  | none =>
    rw [htype] at h
    cases h
  | some type =>
  rw [htype] at h
  by_cases hend : type = .tagEnd
  · simp only [if_pos hend] at h
    cases h
  simp only [if_neg hend] at h
  obtain ⟨allocation, s₄, _, h⟩ := Mut.bind_eq_ok.mp h
  obtain ⟨_, s₅, _, h⟩ := Mut.bind_eq_ok.mp h
  obtain ⟨next, s₆, _, h⟩ := Mut.bind_eq_ok.mp h
  obtain ⟨elements, s₇, helements, h⟩ := Mut.bind_eq_ok.mp h
  obtain ⟨_, s₈, _, h⟩ := Mut.bind_eq_ok.mp h
  cases h
  have hall := Mut.repeatCall_forall (P := NbtTree.Canonical) (fun _ _ _ he => hchild he) _ helements
  exact ⟨trivial, NbtTree.allElements_iff.mpr fun e he => NbtTree.all_shift e (hall e he) 1⟩

theorem decodeEntries_canonical {depth : Nat} (left : Nat) :
    ∀ {wireEntries : Nat} {compound entries : List (NbtString × NbtTree)} {s s' : DecodeContext},
      (NbtTree.compound compound).Canonical →
      decodeEntries limits layout child depth left wireEntries compound s = .ok entries s' →
      (NbtTree.compound entries).Canonical := by
  induction left with
  | zero =>
    intro wireEntries compound entries s s' hcompound h
    obtain ⟨next, s₁, _, h⟩ := Mut.bind_eq_ok.mp h
    cases next with
    | none =>
      cases h
      exact hcompound
    | some type => cases h
  | succ left ih =>
    intro wireEntries compound entries s s' hcompound h
    obtain ⟨next, s₁, _, h⟩ := Mut.bind_eq_ok.mp h
    cases next with
    | none =>
      cases h
      exact hcompound
    | some type =>
      obtain ⟨_, s₂, _, h⟩ := Mut.bind_eq_ok.mp h
      obtain ⟨name, s₃, _, h⟩ := Mut.bind_eq_ok.mp h
      obtain ⟨childDepth, s₄, _, h⟩ := Mut.bind_eq_ok.mp h
      obtain ⟨value, s₅, hvalue, h⟩ := Mut.bind_eq_ok.mp h
      refine ih ⟨Entries.insert_ascending name value hcompound.1, ?_⟩ h
      refine NbtTree.allEntries_iff.mpr fun e he => ?_
      rcases Entries.mem_insert he with rfl | he
      · exact NbtTree.all_shift value (hchild hvalue) 1
      · exact NbtTree.allEntries_iff.mp hcompound.2 e he

theorem decodeCompoundWith_canonical {depth : Nat} {entries : List (NbtString × NbtTree)}
    {s s' : DecodeContext} (h : decodeCompoundWith limits layout child depth s = .ok entries s') :
    (NbtTree.compound entries).Canonical :=
  decodeEntries_canonical hchild _ ⟨List.Pairwise.nil, trivial⟩ h

end Children

theorem decodePayloadUpTo_canonical (fuel : Nat) :
    ∀ {type : NbtTagType} {depth : Nat} {s : DecodeContext} {t : NbtTree} {s' : DecodeContext},
      decodePayloadUpTo limits layout fuel type depth s = .ok t s' → t.Canonical := by
  induction fuel with
  | zero =>
    intro type depth s t s' h
    obtain ⟨_, s₁, _, h⟩ := Mut.bind_eq_ok.mp h
    cases h
  | succ fuel ih =>
    intro type depth s t s' h
    obtain ⟨_, s₁, _, h⟩ := Mut.bind_eq_ok.mp h
    cases type with
    | tagEnd => cases h
    | list => exact decodeListWith_canonical ih h
    | compound =>
      obtain ⟨entries, s₂, hentries, h⟩ := Mut.bind_eq_ok.mp h
      cases h
      exact decodeCompoundWith_canonical ih hentries
    | byteArray =>
      obtain ⟨length, s₂, _, h⟩ := Mut.bind_eq_ok.mp h
      obtain ⟨_, s₃, _, h⟩ := Mut.bind_eq_ok.mp h
      obtain ⟨bytes, s₄, _, h⟩ := Mut.bind_eq_ok.mp h
      obtain ⟨_, s₅, _, h⟩ := Mut.bind_eq_ok.mp h
      cases h
      exact trivial
    | intArray =>
      obtain ⟨length, s₂, _, h⟩ := Mut.bind_eq_ok.mp h
      obtain ⟨byteLength, s₃, _, h⟩ := Mut.bind_eq_ok.mp h
      obtain ⟨bytes, s₄, _, h⟩ := Mut.bind_eq_ok.mp h
      obtain ⟨_, s₅, _, h⟩ := Mut.bind_eq_ok.mp h
      obtain ⟨values, rfl⟩ := readValue_canonical h
      exact trivial
    | longArray =>
      obtain ⟨length, s₂, _, h⟩ := Mut.bind_eq_ok.mp h
      obtain ⟨byteLength, s₃, _, h⟩ := Mut.bind_eq_ok.mp h
      obtain ⟨bytes, s₄, _, h⟩ := Mut.bind_eq_ok.mp h
      obtain ⟨_, s₅, _, h⟩ := Mut.bind_eq_ok.mp h
      obtain ⟨values, rfl⟩ := readValue_canonical h
      exact trivial
    | _ =>
      obtain ⟨value, rfl⟩ := readValue_canonical h
      exact trivial

/-! ### Entry points -/

variable (limits layout)

def requireCompoundRoot : NbtM Unit := do
  let id ← readTypeId "NBT root type"
  if id = NbtTagType.tagEnd.id then Mut.fail (.unexpectedEndTag "NBT root")
  else if id ≠ NbtTagType.compound.id then Mut.fail (.invalidRootType id)
  else pure ()

/-- A root compound, at depth 0. -/
def decodeRootCompound : NbtM NbtCompound :=
  Mut.certify (fun entries => (NbtTree.compound entries).Canonical) (decodeCompound limits layout 0)
    fun _ _ _ h => decodeCompoundWith_canonical (decodePayloadUpTo_canonical _) h

def decodeNamedRoot : NbtM NamedNbtRoot := do
  requireCompoundRoot
  spend (addTag limits 0)
  let name ← NbtString.decode limits
  let compound ← decodeRootCompound limits layout
  pure ⟨name, compound⟩

def decodeUnnamedNetworkRoot : NbtM NbtCompound := do
  requireCompoundRoot
  spend (addTag limits 0)
  decodeRootCompound limits layout

def decodeUnnamedNetworkTag : NbtM NbtTag := do
  let id ← readTypeId "NBT root type"
  if id = NbtTagType.tagEnd.id then Mut.fail (.unexpectedEndTag "NBT root")
  else
    match NbtTagType.fromId id with
    | none => Mut.fail (.invalidTagId id)
    | some tagType =>
      Mut.certify NbtTree.Canonical (decodePayload limits layout tagType 0)
        fun _ _ _ h => decodePayloadUpTo_canonical _ h

def rejectTrailing : NbtM Unit := do
  let c ← Mut.get
  if c.reader.remaining = 0 then pure () else Mut.fail (.trailingData c.reader.remaining)

/-- An entry point on the reader of the caller, in a context of its own. -/
def onReader {ε α : Type} (g : NbtError → ε) (decode : NbtM α) : Mut CodecReader ε α := fun r =>
  match decode (.new r) with
  | .ok root c => .ok root c.reader
  | .err e c => .err (g e) c.reader
  | .panic => .panic

/-- The `*_complete` form of an entry point. -/
def decodeComplete {α : Type} (decode : NbtM α) (input : Bytes) : Outcome NbtError DecodeContext α :=
  (do
    let root ← decode
    rejectTrailing
    pure root : NbtM α) (.new (.new input))

def decodeNamedRootComplete (input : Bytes) : Outcome NbtError DecodeContext NamedNbtRoot :=
  decodeComplete (decodeNamedRoot limits layout) input

def decodeUnnamedNetworkRootComplete (input : Bytes) : Outcome NbtError DecodeContext NbtCompound :=
  decodeComplete (decodeUnnamedNetworkRoot limits layout) input

def decodeUnnamedNetworkTagComplete (input : Bytes) : Outcome NbtError DecodeContext NbtTag :=
  decodeComplete (decodeUnnamedNetworkTag limits layout) input

end Limits
end Cubic
