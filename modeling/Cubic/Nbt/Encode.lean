import Cubic.Nbt.Text

/-! # The NBT encoder (`nbt/encode.rs`) -/

namespace Cubic

set_option autoImplicit false

/-- The elements from `index` on have the expected type. -/
def validateElementTypes (expected : NbtTagType) : Nat → List NbtTree → Except NbtError Unit
  | _, [] => .ok ()
  | index, element :: rest =>
    if element.tagType ≠ expected then
      .error (.heterogeneousList expected element.tagType index)
    else validateElementTypes expected (index + 1) rest

/-- `validate_list` of `nbt/tag.rs` -/
def validateList (elementTypeId : UInt8) (elements : List NbtTree) : Except NbtError Unit :=
  if elements.isEmpty then .ok ()
  else
    match NbtTagType.fromId elementTypeId with
    | none => .error (.invalidTagId elementTypeId)
    | some expected =>
      if expected = .tagEnd then .error .endListWithElements
      else validateElementTypes expected 0 elements

def validateCollectionLength (kind : NbtCollectionKind) (length configuredMax : Nat) :
    Except NbtError Unit :=
  let max := min configuredMax i32Max
  if length > max then .error (.collectionTooLarge kind length max) else .ok ()

def collectionLength (length : Nat) (kind : NbtCollectionKind) : Except NbtError Int32 :=
  if length ≤ i32Max then .ok (.ofNat length)
  else .error (.collectionTooLarge kind length i32Max)

section Limits
variable (limits : NbtLimits) (layout : NbtLayout)

/-! ### The validation pass -/

def validateString (value : NbtString) : BudgetM Unit := do
  let length := encodedLen value
  Mut.ofExcept (validateEncodedLength limits length)
  match checkedMul length 2 with
  | none => Mut.fail (.allocationBudgetExceeded usizeMax limits.maxTotalAllocatedBytes.toNat)
  | some allocation => chargeBudget limits allocation

def validateArray (length : Nat) (kind : NbtCollectionKind) (elementSize : Nat) : BudgetM Unit := do
  Mut.ofExcept (validateCollectionLength kind length limits.maxArrayElements.toNat)
  let bytes ← Mut.ofExcept (checkedCollectionBytes kind length elementSize)
  chargeBudget limits bytes

/-- `validate_compound`, with the loop over the entries as an argument. -/
def validateCompoundWith (length depth : Nat) (validateEntries : Nat → BudgetM Unit) :
    BudgetM Unit := do
  Mut.ofExcept (validateCollectionLength .compound length limits.maxCompoundEntries.toNat)
  let childDepth ← Mut.ofExcept (nextDepth limits depth)
  validateEntries childDepth

mutual
def validateTag (depth : Nat) (tag : NbtTree) : BudgetM Unit := do
  addTag limits depth
  match tag with
  | .byte _ => pure ()
  | .short _ => pure ()
  | .int _ => pure ()
  | .long _ => pure ()
  | .float _ => pure ()
  | .double _ => pure ()
  | .byteArray values => validateArray limits values.length .byteArray 1
  | .string value => validateString limits value
  | .list elementTypeId elements => do
    Mut.ofExcept (validateList elementTypeId elements)
    Mut.ofExcept (validateCollectionLength .list elements.length limits.maxListElements.toNat)
    let allocation ← Mut.ofExcept (checkedCollectionBytes .list elements.length layout.tagBytes)
    chargeBudget limits allocation
    let childDepth ← Mut.ofExcept (nextDepth limits depth)
    validateElements childDepth elements
  | .compound entries =>
    validateCompoundWith limits entries.length depth fun childDepth => validateEntries childDepth entries
  | .intArray values => validateArray limits values.length .intArray 4
  | .longArray values => validateArray limits values.length .longArray 8

def validateElements (depth : Nat) (elements : List NbtTree) : BudgetM Unit :=
  match elements with
  | [] => pure ()
  | element :: rest => do
    validateTag depth element
    validateElements depth rest

def validateEntries (depth : Nat) (entries : List (NbtString × NbtTree)) : BudgetM Unit :=
  match entries with
  | [] => pure ()
  | (name, value) :: rest => do
    chargeBudget limits layout.compoundEntryBudget
    validateString limits name
    validateTag depth value
    validateEntries depth rest
end

def validateCompound (entries : List (NbtString × NbtTree)) (depth : Nat) : BudgetM Unit :=
  validateCompoundWith limits entries.length depth fun childDepth =>
    validateEntries limits layout childDepth entries

def validateRoot (root : List (NbtString × NbtTree)) (name : Option NbtString) : BudgetM Unit := do
  addTag limits 0
  match name with
  | some name => validateString limits name
  | none => pure ()
  validateCompound limits layout root 0

/-! ### The bytes -/

mutual
def encodePayload (tag : NbtTree) : Except NbtError Bytes :=
  match tag with
  | .byte value => pure (writeI8 value)
  | .short value => pure (writeI16 value)
  | .int value => pure (writeI32 value)
  | .long value => pure (writeI64 value)
  | .float bits => pure (writeF32 bits)
  | .double bits => pure (writeF64 bits)
  | .byteArray values => do
    let length ← collectionLength values.length .byteArray
    pure (writeI32 length ++ values)
  | .string value => NbtString.encode limits value
  | .list elementTypeId elements => do
    let length ← collectionLength elements.length .list
    let body ← encodeElements elements
    pure (writeU8 elementTypeId ++ (writeI32 length ++ body))
  | .compound entries => do
    let body ← encodeEntries entries
    pure (body ++ writeU8 NbtTagType.tagEnd.id)
  | .intArray values => do
    let length ← collectionLength values.length .intArray
    pure (writeI32 length ++ values.flatMap writeI32)
  | .longArray values => do
    let length ← collectionLength values.length .longArray
    pure (writeI32 length ++ values.flatMap writeI64)

def encodeElements (elements : List NbtTree) : Except NbtError Bytes :=
  match elements with
  | [] => pure []
  | element :: rest => do
    let bytes ← encodePayload element
    let body ← encodeElements rest
    pure (bytes ++ body)

def encodeEntries (entries : List (NbtString × NbtTree)) : Except NbtError Bytes :=
  match entries with
  | [] => pure []
  | (name, value) :: rest => do
    let nameBytes ← NbtString.encode limits name
    let bytes ← encodePayload value
    let body ← encodeEntries rest
    pure (writeU8 value.tagType.id ++ (nameBytes ++ (bytes ++ body)))
end

def encodeCompound (entries : List (NbtString × NbtTree)) : Except NbtError Bytes := do
  let body ← encodeEntries limits entries
  pure (body ++ writeU8 NbtTagType.tagEnd.id)

/-! ### Entry points -/

def encodeNamedRoot (root : NamedNbtRoot) : Outcome NbtError Budget Bytes :=
  (do
    validateRoot limits layout root.compound.val (some root.name)
    let name ← Mut.ofExcept (NbtString.encode limits root.name)
    let compound ← Mut.ofExcept (encodeCompound limits root.compound.val)
    pure (writeU8 NbtTagType.compound.id ++ (name ++ compound)) : BudgetM Bytes) ⟨0, 0⟩

def encodeUnnamedNetworkRoot (root : NbtCompound) : Outcome NbtError Budget Bytes :=
  (do
    validateRoot limits layout root.val none
    let compound ← Mut.ofExcept (encodeCompound limits root.val)
    pure (writeU8 NbtTagType.compound.id ++ compound) : BudgetM Bytes) ⟨0, 0⟩

def encodeUnnamedNetworkTag (tag : NbtTag) : Outcome NbtError Budget Bytes :=
  (do
    validateTag limits layout 0 tag.val
    let payload ← Mut.ofExcept (encodePayload limits tag.val)
    pure (writeU8 tag.val.tagType.id ++ payload) : BudgetM Bytes) ⟨0, 0⟩

end Limits
end Cubic
