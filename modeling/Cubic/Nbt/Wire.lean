import Cubic.Nbt.Accounting

/-!
# The canonical bytes of a tree

For a tree that fits, the encoder's second pass cannot fail: it writes `wire`.
-/

namespace Cubic

set_option autoImplicit false

def wireString (s : NbtString) : Bytes :=
  writeU16 (.ofNat (encodedLen s)) ++ s.flatMap encodeUnit

namespace NbtTree

mutual
def wire : NbtTree → Bytes
  | .byte value => writeI8 value
  | .short value => writeI16 value
  | .int value => writeI32 value
  | .long value => writeI64 value
  | .float bits => writeF32 bits
  | .double bits => writeF64 bits
  | .byteArray values => writeI32 (.ofNat values.length) ++ values
  | .string value => wireString value
  | .list id elements => writeU8 id ++ (writeI32 (.ofNat elements.length) ++ wireElements elements)
  | .compound entries => wireEntries entries ++ writeU8 NbtTagType.tagEnd.id
  | .intArray values => writeI32 (.ofNat values.length) ++ values.flatMap writeI32
  | .longArray values => writeI32 (.ofNat values.length) ++ values.flatMap writeI64

def wireElements : List NbtTree → Bytes
  | [] => []
  | element :: rest => wire element ++ wireElements rest

def wireEntries : List (NbtString × NbtTree) → Bytes
  | [] => []
  | (name, value) :: rest =>
    writeU8 value.tagType.id ++ (wireString name ++ (wire value ++ wireEntries rest))
end

/-! ### Their number -/

/-- The bytes of a name and of the type before it. -/
def entrySize (e : NbtString × NbtTree) : Nat := 3 + encodedLen e.1

/-- The bytes of a node without those of its children. -/
def nodeSize : NbtTree → Nat
  | .byte _ => 1
  | .short _ => 2
  | .int _ => 4
  | .long _ => 8
  | .float _ => 4
  | .double _ => 8
  | .byteArray values => 4 + values.length
  | .string value => 2 + encodedLen value
  | .list _ _ => 5
  | .compound entries => (entries.map entrySize).sum + 1
  | .intArray values => 4 + values.length * 4
  | .longArray values => 4 + values.length * 8

def size (t : NbtTree) : Nat := t.total nodeSize

end NbtTree

theorem length_writeI32 (v : Int32) : (writeI32 v).length = 4 := length_toBigEndian 4 _

theorem length_writeI64 (v : Int64) : (writeI64 v).length = 8 := length_toBigEndian 8 _

theorem length_wireString (s : NbtString) : (wireString s).length = 2 + encodedLen s := by
  rw [wireString, List.length_append, length_encodeUnits, writeU16, length_toBigEndian]

theorem length_flatMap_of_length {α : Type} {enc : α → Bytes} {n : Nat} (h : ∀ a, (enc a).length = n)
    (values : List α) : (values.flatMap enc).length = values.length * n := by
  induction values with
  | nil => exact (Nat.zero_mul n).symm
  | cons v rest ih =>
    rw [List.flatMap_cons, List.length_append, h, ih, List.length_cons, Nat.succ_mul, Nat.add_comm]

namespace NbtTree

theorem length_wireElements {elements : List NbtTree} (h : ∀ e ∈ elements, e.wire.length = e.size) :
    (wireElements elements).length = totalElements nodeSize elements := by
  induction elements with
  | nil => rfl
  | cons e rest ih =>
    obtain ⟨he, hrest⟩ := List.forall_mem_cons.mp h
    rw [wireElements, List.length_append, he, ih hrest]
    rfl

theorem length_wireEntries {entries : List (NbtString × NbtTree)}
    (h : ∀ e ∈ entries, e.2.wire.length = e.2.size) :
    (wireEntries entries).length = (entries.map entrySize).sum + totalEntries nodeSize entries := by
  induction entries with
  | nil => rfl
  | cons e rest ih =>
    obtain ⟨name, value⟩ := e
    obtain ⟨hvalue, hrest⟩ := List.forall_mem_cons.mp h
    simp only [wireEntries, List.length_append, hvalue, ih hrest, length_wireString, writeU8,
      List.length_singleton, List.map_cons, List.sum_cons, entrySize, totalEntries, size]
    omega

theorem length_wire (t : NbtTree) : t.wire.length = t.size := by
  induction t using induct with
  | byte v => rfl
  | short v => exact length_toBigEndian 2 _
  | int v => exact length_writeI32 v
  | long v => exact length_writeI64 v
  | float v => exact length_toBigEndian 4 _
  | double v => exact length_toBigEndian 8 _
  | byteArray vs => rw [wire, List.length_append, length_writeI32, size, total, nodeSize]
  | string s => exact length_wireString s
  | list id elements ih =>
    simp only [wire, List.length_append, length_writeI32, length_wireElements ih, writeU8,
      List.length_singleton, size, total, nodeSize]
    omega
  | compound entries ih =>
    simp only [wire, List.length_append, length_wireEntries ih, writeU8, List.length_singleton, size,
      total, nodeSize]
    omega
  | intArray vs =>
    rw [wire, List.length_append, length_writeI32, length_flatMap_of_length length_writeI32, size,
      total, nodeSize]
  | longArray vs =>
    rw [wire, List.length_append, length_writeI32, length_flatMap_of_length length_writeI64, size,
      total, nodeSize]

end NbtTree

/-! ### What the encoder writes -/

section Limits
variable {limits : NbtLimits} {layout : NbtLayout} {n depth : Nat}

theorem collectionLength_of_le {length max : Nat} {kind : NbtCollectionKind}
    (h : length ≤ min max i32Max) : collectionLength length kind = .ok (.ofNat length) :=
  if_pos (Nat.le_trans h (Nat.min_le_right _ _))

theorem encode_string {s : NbtString} (h : encodedLen s ≤ limits.maxStringEncodedBytes) :
    NbtString.encode limits s = .ok (wireString s) := by
  have hcheck := validateEncodedLength_eq_ok.mpr h
  refine Mut.except_bind_eq_ok.mpr ⟨(), hcheck, ?_⟩
  exact if_pos (Nat.le_trans h limits.maxStringEncodedBytes_le)

theorem encode_elements {elements : List NbtTree}
    (h : ∀ e ∈ elements, encodePayload limits e = .ok e.wire) :
    encodeElements limits elements = .ok (NbtTree.wireElements elements) := by
  induction elements with
  | nil => rfl
  | cons e rest ih =>
    obtain ⟨he, hrest⟩ := List.forall_mem_cons.mp h
    rw [encodeElements, he, ih hrest]
    rfl

theorem encode_entries {entries : List (NbtString × NbtTree)}
    (hnames : ∀ e ∈ entries, encodedLen e.1 ≤ limits.maxStringEncodedBytes)
    (h : ∀ e ∈ entries, encodePayload limits e.2 = .ok e.2.wire) :
    encodeEntries limits entries = .ok (NbtTree.wireEntries entries) := by
  induction entries with
  | nil => rfl
  | cons e rest ih =>
    obtain ⟨name, value⟩ := e
    obtain ⟨hname, hnames⟩ := List.forall_mem_cons.mp hnames
    obtain ⟨hvalue, hrest⟩ := List.forall_mem_cons.mp h
    rw [encodeEntries, encode_string hname, hvalue, ih hnames hrest]
    rfl

theorem encode_payload (t : NbtTree) :
    ∀ {depth : Nat}, t.Fits limits n depth → encodePayload limits t = .ok t.wire := by
  induction t using NbtTree.induct with
  | byteArray vs =>
    intro depth h
    rw [encodePayload, collectionLength_of_le h.2]
    rfl
  | string s =>
    intro depth h
    exact encode_string h.2
  | list id elements ih =>
    intro depth h
    have helements := encode_elements fun e he => ih e he (NbtTree.allElements_iff.mp h.2 e he)
    rw [encodePayload, collectionLength_of_le h.1.2.2, helements]
    rfl
  | compound entries ih =>
    intro depth h
    have hentries := encode_entries h.1.2.2 fun e he => ih e he (NbtTree.allEntries_iff.mp h.2 e he)
    rw [encodePayload, hentries]
    rfl
  | intArray vs =>
    intro depth h
    rw [encodePayload, collectionLength_of_le h.2]
    rfl
  | longArray vs =>
    intro depth h
    rw [encodePayload, collectionLength_of_le h.2]
    rfl
  | _ => exact fun _ => rfl

theorem encode_compound {entries : List (NbtString × NbtTree)}
    (h : (NbtTree.compound entries).Fits limits n depth) :
    encodeCompound limits entries = .ok (NbtTree.compound entries).wire := by
  have hpayload : encodePayload limits (.compound entries) = .ok (NbtTree.compound entries).wire :=
    encode_payload _ h
  rw [encodePayload] at hpayload
  exact hpayload

/-- The encoder succeeds on what its first pass accepts. -/
theorem validated_eq_ok {m : BudgetM Unit} {write : BudgetM Bytes} {P : Prop} {tags cost : Nat}
    {bytes wire : Bytes} {b : Budget} (hm : Spends limits 0 m P tags cost)
    (hwrite : P → ∀ b, write b = .ok wire b) :
    (m >>= fun _ => write) ⟨0, 0⟩ = .ok bytes b ↔
      P ∧ b.Bounded limits ∧ b = ⟨tags, cost⟩ ∧ bytes = wire := by
  have hzero : (⟨0, 0⟩ : Budget).plus tags cost = ⟨tags, cost⟩ := by
    rw [Budget.plus, Nat.zero_add, Nat.zero_add]
  have hstart : (⟨0, 0⟩ : Budget).Bounded limits := ⟨Nat.zero_le _, Nat.zero_le _⟩
  rw [Mut.bind_eq_ok]
  constructor
  · intro h
    obtain ⟨_, s, hs, h⟩ := h
    obtain ⟨hP, hbound, hplus⟩ := (hm _ s (Nat.zero_le _) hstart).mp hs
    rw [hwrite hP s] at h
    cases h
    exact ⟨hP, hbound, hplus.trans hzero, rfl⟩
  · intro h
    obtain ⟨hP, hbound, hb, rfl⟩ := h
    exact ⟨(), b, (hm _ b (Nat.zero_le _) hstart).mpr ⟨hP, hbound, hb.trans hzero.symm⟩, hwrite hP b⟩

variable {bytes : Bytes} {b : Budget}

theorem encodeNamedRoot_eq_ok {root : NamedNbtRoot} :
    encodeNamedRoot limits layout root = .ok bytes b ↔
      (encodedLen root.name ≤ limits.maxStringEncodedBytes ∧
        (NbtTree.compound root.compound.val).Fits limits limits.encodableEntries 0) ∧
      b.Bounded limits ∧
      b = ⟨(NbtTree.compound root.compound.val).tags,
        encodedLen root.name * 2 + (NbtTree.compound root.compound.val).cost layout⟩ ∧
      bytes = writeU8 NbtTagType.compound.id ++
        (wireString root.name ++ (NbtTree.compound root.compound.val).wire) := by
  refine validated_eq_ok (spends_namedRoot root.compound.val root.name) fun h b => ?_
  rw [encode_string h.1, encode_compound h.2]
  rfl

theorem encodeUnnamedNetworkRoot_eq_ok {root : NbtCompound} :
    encodeUnnamedNetworkRoot limits layout root = .ok bytes b ↔
      (NbtTree.compound root.val).Fits limits limits.encodableEntries 0 ∧ b.Bounded limits ∧
      b = ⟨(NbtTree.compound root.val).tags, (NbtTree.compound root.val).cost layout⟩ ∧
      bytes = writeU8 NbtTagType.compound.id ++ (NbtTree.compound root.val).wire := by
  refine validated_eq_ok (spends_unnamedRoot root.val) fun h b => ?_
  rw [encode_compound h]
  rfl

theorem encodeUnnamedNetworkTag_eq_ok {tag : NbtTag} :
    encodeUnnamedNetworkTag limits layout tag = .ok bytes b ↔
      tag.val.Fits limits limits.encodableEntries 0 ∧ b.Bounded limits ∧
      b = ⟨tag.val.tags, tag.val.cost layout⟩ ∧
      bytes = writeU8 tag.val.tagType.id ++ tag.val.wire := by
  refine validated_eq_ok (spends_tag tag.val 0 0 (Nat.le_refl 0)) fun h b => ?_
  rw [encode_payload _ h]
  rfl

end Limits
end Cubic
