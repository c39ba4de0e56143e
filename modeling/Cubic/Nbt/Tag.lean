import Cubic.Codec.Error
import Cubic.Lib.OrderedMap

/-!
# NBT values (`nbt/tag.rs`, `nbt/limits.rs`, `nbt/error.rs`)

A compound lists its entries; in a canonical tree the names ascend, which makes it the map
of the source.
-/

namespace Cubic

set_option autoImplicit false

inductive NbtTagType where
  | tagEnd
  | byte
  | short
  | int
  | long
  | float
  | double
  | byteArray
  | string
  | list
  | compound
  | intArray
  | longArray
  deriving DecidableEq

namespace NbtTagType

def fromId (id : UInt8) : Option NbtTagType :=
  match id.toNat with
  | 0 => some tagEnd
  | 1 => some byte
  | 2 => some short
  | 3 => some int
  | 4 => some long
  | 5 => some float
  | 6 => some double
  | 7 => some byteArray
  | 8 => some string
  | 9 => some list
  | 10 => some compound
  | 11 => some intArray
  | 12 => some longArray
  | _ => none

def id : NbtTagType → UInt8
  | tagEnd => 0
  | byte => 1
  | short => 2
  | int => 3
  | long => 4
  | float => 5
  | double => 6
  | byteArray => 7
  | string => 8
  | list => 9
  | compound => 10
  | intArray => 11
  | longArray => 12

theorem fromId_id (type : NbtTagType) : fromId type.id = some type := by
  cases type <;> rfl

theorem id_of_fromId {id : UInt8} {type : NbtTagType} (h : fromId id = some type) :
    type.id = id := by
  unfold fromId at h
  split at h <;> rename_i hid <;> cases h <;> exact UInt8.toNat_inj.mp hid.symm

theorem id_eq_zero {type : NbtTagType} (h : type.id = 0) : type = tagEnd := by
  cases type with
  | tagEnd => rfl
  | _ => exact absurd h (by decide)

end NbtTagType

inductive NbtCollectionKind where
  | byteArray
  | intArray
  | longArray
  | list
  | compound
  deriving DecidableEq

inductive NbtError where
  | codec (e : CodecError)
  | invalidTagId (id : UInt8)
  | unexpectedEndTag (context : String)
  | invalidRootType (found : UInt8)
  | malformedModifiedUtf8 (offset : Nat)
  | stringTooLong (encodedBytes max : Nat)
  | negativeCollectionLength (kind : NbtCollectionKind) (value : Int32)
  | collectionTooLarge (kind : NbtCollectionKind) (length max : Nat)
  | collectionSizeOverflow (kind : NbtCollectionKind) (length elementSize : Nat)
  | depthLimitExceeded (depth max : Nat)
  | totalTagLimitExceeded (count max : Nat)
  | allocationBudgetExceeded (attempted max : Nat)
  | heterogeneousList (expected found : NbtTagType) (index : Nat)
  | endListWithElements
  | trailingData (remaining : Nat)
  deriving DecidableEq

/-- The fields are `usize`. -/
structure NbtLimits where
  maxDepth : UInt64
  maxTotalTags : UInt64
  maxCompoundEntries : UInt64
  maxListElements : UInt64
  maxArrayElements : UInt64
  stringEncodedBytes : UInt64
  maxTotalAllocatedBytes : UInt64
  deriving DecidableEq

/-- `NbtLimits::default` -/
def NbtLimits.default : NbtLimits where
  maxDepth := 64
  maxTotalTags := 65536
  maxCompoundEntries := 4096
  maxListElements := 65536
  maxArrayElements := 1048576
  stringEncodedBytes := 65535
  maxTotalAllocatedBytes := 16777216

/-- The prefix of a string has 16 bits. -/
def NbtLimits.maxStringEncodedBytes (limits : NbtLimits) : Nat :=
  if limits.stringEncodedBytes.toNat < u16Max then limits.stringEncodedBytes.toNat else u16Max

theorem NbtLimits.maxStringEncodedBytes_le (limits : NbtLimits) :
    limits.maxStringEncodedBytes ≤ u16Max := by
  unfold maxStringEncodedBytes
  split
  · exact Nat.le_of_lt ‹_›
  · exact Nat.le_refl _

/-- Arbitrary UTF-16 code units, compared in order. -/
abbrev NbtString := List UInt16

/-- Floating point numbers are their bits. -/
inductive NbtTree where
  | byte (value : Int8)
  | short (value : Int16)
  | int (value : Int32)
  | long (value : Int64)
  | float (bits : UInt32)
  | double (bits : UInt64)
  | byteArray (values : List UInt8)
  | string (value : NbtString)
  | list (elementTypeId : UInt8) (elements : List NbtTree)
  | compound (entries : List (NbtString × NbtTree))
  | intArray (values : List Int32)
  | longArray (values : List Int64)

namespace NbtTree

def tagType : NbtTree → NbtTagType
  | byte _ => .byte
  | short _ => .short
  | int _ => .int
  | long _ => .long
  | float _ => .float
  | double _ => .double
  | byteArray _ => .byteArray
  | string _ => .string
  | list _ _ => .list
  | compound _ => .compound
  | intArray _ => .intArray
  | longArray _ => .longArray

theorem tagType_ne_end (t : NbtTree) : t.tagType ≠ .tagEnd := by
  cases t <;> exact fun h => NbtTagType.noConfusion h

theorem tagType_id_ne_zero (t : NbtTree) : t.tagType.id ≠ 0 :=
  fun h => t.tagType_ne_end (NbtTagType.id_eq_zero h)

/-- Induction on the elements of lists and the values of compounds. -/
theorem induct {P : NbtTree → Prop} (byte : ∀ v, P (.byte v)) (short : ∀ v, P (.short v))
    (int : ∀ v, P (.int v)) (long : ∀ v, P (.long v)) (float : ∀ v, P (.float v))
    (double : ∀ v, P (.double v)) (byteArray : ∀ vs, P (.byteArray vs)) (string : ∀ s, P (.string s))
    (list : ∀ id elements, (∀ e ∈ elements, P e) → P (.list id elements))
    (compound : ∀ entries, (∀ e ∈ entries, P e.2) → P (.compound entries))
    (intArray : ∀ vs, P (.intArray vs)) (longArray : ∀ vs, P (.longArray vs)) (t : NbtTree) : P t :=
  @NbtTree.rec P (fun elements => ∀ e ∈ elements, P e) (fun entries => ∀ e ∈ entries, P e.2)
    (fun e => P e.2)
    byte short int long float double byteArray string list compound intArray longArray
    (fun _ h => absurd h List.not_mem_nil)
    (fun _ _ he hrest => List.forall_mem_cons.mpr ⟨he, hrest⟩)
    (fun _ h => absurd h List.not_mem_nil)
    (fun _ _ he hrest => List.forall_mem_cons.mpr ⟨he, hrest⟩)
    (fun _ _ h => h) t

/-! ### Predicates and sums over all the nodes of a tree -/

variable (p : Nat → NbtTree → Prop) (f : NbtTree → Nat)

mutual
/-- `p` holds of every node, at its depth. -/
def All : Nat → NbtTree → Prop
  | depth, .list id elements => p depth (.list id elements) ∧ AllElements (depth + 1) elements
  | depth, .compound entries => p depth (.compound entries) ∧ AllEntries (depth + 1) entries
  | depth, .byte v => p depth (.byte v)
  | depth, .short v => p depth (.short v)
  | depth, .int v => p depth (.int v)
  | depth, .long v => p depth (.long v)
  | depth, .float v => p depth (.float v)
  | depth, .double v => p depth (.double v)
  | depth, .byteArray vs => p depth (.byteArray vs)
  | depth, .string s => p depth (.string s)
  | depth, .intArray vs => p depth (.intArray vs)
  | depth, .longArray vs => p depth (.longArray vs)

def AllElements : Nat → List NbtTree → Prop
  | _, [] => True
  | depth, t :: rest => All depth t ∧ AllElements depth rest

def AllEntries : Nat → List (NbtString × NbtTree) → Prop
  | _, [] => True
  | depth, (_, t) :: rest => All depth t ∧ AllEntries depth rest
end

mutual
/-- The sum of `f` over the nodes. -/
def total : NbtTree → Nat
  | .list id elements => f (.list id elements) + totalElements elements
  | .compound entries => f (.compound entries) + totalEntries entries
  | .byte v => f (.byte v)
  | .short v => f (.short v)
  | .int v => f (.int v)
  | .long v => f (.long v)
  | .float v => f (.float v)
  | .double v => f (.double v)
  | .byteArray vs => f (.byteArray vs)
  | .string s => f (.string s)
  | .intArray vs => f (.intArray vs)
  | .longArray vs => f (.longArray vs)

def totalElements : List NbtTree → Nat
  | [] => 0
  | t :: rest => total t + totalElements rest

def totalEntries : List (NbtString × NbtTree) → Nat
  | [] => 0
  | (_, t) :: rest => total t + totalEntries rest
end

variable {p f}

theorem allElements_iff {depth : Nat} {elements : List NbtTree} :
    AllElements p depth elements ↔ ∀ e ∈ elements, All p depth e := by
  induction elements with
  | nil => simp [AllElements]
  | cons t rest ih => simp only [AllElements, ih, List.forall_mem_cons]

theorem allEntries_iff {depth : Nat} {entries : List (NbtString × NbtTree)} :
    AllEntries p depth entries ↔ ∀ e ∈ entries, All p depth e.2 := by
  induction entries with
  | nil => simp [AllEntries]
  | cons e rest ih => simp only [AllEntries, ih, List.forall_mem_cons]

theorem totalEntries_eq (entries : List (NbtString × NbtTree)) :
    totalEntries f entries = (entries.map fun e => total f e.2).sum := by
  induction entries with
  | nil => rfl
  | cons e rest ih => rw [totalEntries, ih, List.map_cons, List.sum_cons]

theorem totalElements_eq (elements : List NbtTree) :
    totalElements f elements = (elements.map (total f)).sum := by
  induction elements with
  | nil => rfl
  | cons e rest ih => rw [totalElements, ih, List.map_cons, List.sum_cons]

/-- A predicate that does not depend on the depth holds from any depth on. -/
theorem all_shift {q : NbtTree → Prop} (t : NbtTree) :
    ∀ {depth : Nat}, t.All (fun _ => q) depth → ∀ depth', t.All (fun _ => q) depth' := by
  induction t using induct with
  | list id elements ih =>
    intro depth h depth'
    refine ⟨h.1, allElements_iff.mpr fun e he => ?_⟩
    exact ih e he (allElements_iff.mp h.2 e he) (depth' + 1)
  | compound entries ih =>
    intro depth h depth'
    refine ⟨h.1, allEntries_iff.mpr fun e he => ?_⟩
    exact ih e he (allEntries_iff.mp h.2 e he) (depth' + 1)
  | _ => exact fun h _ => h

/-- What follows at every node from two predicates follows for the tree. -/
theorem all_imp₂ {p q r : Nat → NbtTree → Prop} (himp : ∀ depth t, p depth t → q depth t → r depth t)
    (t : NbtTree) : ∀ {depth : Nat}, t.All p depth → t.All q depth → t.All r depth := by
  induction t using induct with
  | list id elements ih =>
    intro depth hp hq
    refine ⟨himp _ _ hp.1 hq.1, allElements_iff.mpr fun e he => ?_⟩
    exact ih e he (allElements_iff.mp hp.2 e he) (allElements_iff.mp hq.2 e he)
  | compound entries ih =>
    intro depth hp hq
    refine ⟨himp _ _ hp.1 hq.1, allEntries_iff.mpr fun e he => ?_⟩
    exact ih e he (allEntries_iff.mp hp.2 e he) (allEntries_iff.mp hq.2 e he)
  | _ => exact himp _ _

/-- The names in a compound ascend, so each occurs once. -/
def Sorted : NbtTree → Prop
  | compound entries => Entries.Ascending entries
  | _ => True

/-- Every compound is a map in its canonical form. -/
def Canonical (t : NbtTree) : Prop := t.All (fun _ => Sorted) 0

end NbtTree

/-- The values of the source. -/
def NbtTag : Type := {t : NbtTree // t.Canonical}

/-- A compound; its entries are those of a canonical tree. -/
def NbtCompound : Type := {entries : List (NbtString × NbtTree) // (NbtTree.compound entries).Canonical}

structure NamedNbtRoot where
  name : NbtString
  compound : NbtCompound

end Cubic
