import Cubic.Lib.Meter
import Cubic.Lib.Utf8
import Cubic.Nbt.Decode
import Cubic.Nbt.Lookup

/-!
# The text of a tree and the bytes it was read from

As UTF-8, the strings of a tree take no more bytes than the tree took on the wire, and neither
does one more byte for each entry of its compounds.
-/

namespace Cubic

set_option autoImplicit false

open NbtM

/-! ### Units -/

/-- The bytes that a unit takes on the wire at least. -/
def wireWidth (unit : UInt16) : Nat :=
  if unit.toNat ≤ 0x7f then 1 else if unit.toNat ≤ 0x7ff then 2 else 3

theorem wireWidth_surrogate {unit : UInt16} (h : 0xd800 ≤ unit) : wireWidth unit = 3 := by
  have hle := UInt16.le_iff_toNat_le.mp h
  change 0xd800 ≤ unit.toNat at hle
  unfold wireWidth
  rw [if_neg (by omega), if_neg (by omega)]

theorem utf8Size_unit_le (unit : UInt16) : (Char.ofNat unit.toNat).utf8Size ≤ wireWidth unit := by
  have hlt := unit.toNat_lt
  obtain ⟨hone, htwo, hthree⟩ := Utf8.utf8Size_ofNat_le unit.toNat
  unfold wireWidth
  split
  · exact hone ‹_›
  split
  · exact htwo ‹_›
  · exact hthree (by omega)

theorem utf8Size_replacementCharacter : replacementCharacter.utf8Size = 3 := by decide

/-- A pair of surrogates takes six bytes on the wire and four in UTF-8. -/
theorem size_decodeUtf16Lossy_le (s : NbtString) :
    Utf8.size (decodeUtf16Lossy s) ≤ (s.map wireWidth).sum := by
  fun_induction decodeUtf16Lossy s with
  | case1 => exact Nat.le_refl 0
  | case2 unit h =>
    have hwidth := wireWidth_surrogate h.1
    rw [Utf8.size_cons, Utf8.size_nil, utf8Size_replacementCharacter, List.map_cons, List.map_nil,
      List.sum_cons, List.sum_nil]
    omega
  | case3 unit h =>
    rw [Utf8.size_cons, Utf8.size_nil, List.map_cons, List.map_nil, List.sum_cons, List.sum_nil]
    exact Nat.add_le_add_right (utf8Size_unit_le unit) 0
  | case4 unit next rest h hnext ih =>
    have hwidth := wireWidth_surrogate h.1
    have hwidth' := wireWidth_surrogate (UInt16.le_trans (by decide) hnext.1)
    have hchar := Char.utf8Size_le_four
      (Char.ofNat (0x10000 + (unit.toNat - 0xd800) * 0x400 + (next.toNat - 0xdc00)))
    rw [Utf8.size_cons, List.map_cons, List.map_cons, List.sum_cons, List.sum_cons]
    omega
  | case5 unit next rest h _ ih =>
    have hwidth := wireWidth_surrogate h.1
    rw [Utf8.size_cons, utf8Size_replacementCharacter, List.map_cons, List.sum_cons]
    omega
  | case6 unit next rest _ h ih =>
    have hwidth := wireWidth_surrogate (UInt16.le_trans (by decide) h.1)
    rw [Utf8.size_cons, utf8Size_replacementCharacter, List.map_cons, List.sum_cons]
    omega
  | case7 unit next rest _ _ ih =>
    have hchar := utf8Size_unit_le unit
    rw [Utf8.size_cons, List.map_cons, List.sum_cons]
    omega

theorem size_text_le_of_decodeUnits {offset : Nat} {bytes : Bytes} {units : List UInt16}
    (h : decodeUnits offset bytes = .ok units) : Utf8.size (decodeUtf16Lossy units) ≤ bytes.length := by
  refine Nat.le_trans (size_decodeUtf16Lossy_le units) (sum_le_of_decodeUnits h ?_ ?_ ?_)
  · intro byte _ hle
    have hbyte : byte.toNat ≤ 0x7f := UInt8.le_iff_toNat_le.mp hle
    unfold wireWidth
    rw [UInt8.toNat_toUInt16, if_pos hbyte]
  · intro unit hlt
    unfold wireWidth
    split
    · exact Nat.le_succ 1
    · rw [if_pos (by omega)]
  · intro unit
    unfold wireWidth
    split
    · exact Nat.le_add_left 1 2
    split
    · exact Nat.le_succ 2
    · exact Nat.le_refl 3

/-! ### Trees -/

namespace NbtTree

/-- The bytes of one node, with one for each entry of a compound. -/
def nodeText : NbtTree → Nat
  | .string value => Utf8.size (decodeUtf16Lossy value)
  | .compound entries => entries.length
  | _ => 0

def textSize (t : NbtTree) : Nat := t.total nodeText

theorem textSize_list (id : UInt8) (elements : List NbtTree) :
    (list id elements).textSize = (elements.map textSize).sum := by
  unfold textSize
  rw [total, totalElements_eq]
  exact Nat.zero_add _

theorem textSize_compound (entries : List (NbtString × NbtTree)) :
    (compound entries).textSize = (entries.map fun e => e.2.textSize + 1).sum := by
  unfold textSize
  rw [total, totalEntries_eq, nodeText]
  induction entries with
  | nil => rfl
  | cons e rest ih =>
    simp only [List.map_cons, List.sum_cons, List.length_cons] at ih ⊢
    omega

end NbtTree

/-! ### What is read is paid for -/

theorem pays_readBytes (n : Nat) (context : String) :
    Mut.Pays CodecReader.position 0 (readBytes n context) List.length := by
  intro r
  unfold Mut.wp readBytes
  rw [Mut.get_bind]
  split
  · change r.position + (r.rest.take n).length ≤ (r.advance n).position
    simp only [CodecReader.position, CodecReader.advance, List.length_append]
    exact Nat.le_refl _
  split
  · trivial
  · trivial

theorem pays_readNat (n : Nat) (context : String) :
    Mut.Pays CodecReader.position 0 (readNat n context) fun _ => 0 :=
  (pays_readBytes n context).map ofBigEndian

theorem pays_readU16 : Mut.Pays CodecReader.position 0 readU16 fun _ => 0 :=
  (pays_readNat 2 "u16").map UInt16.ofNat

theorem pays_readI32 : Mut.Pays CodecReader.position 0 readI32 fun _ => 0 :=
  (pays_readNat 4 "i32").map fun n => Int32.ofBitVec (.ofNat 32 n)

theorem pays_readByte (context : String) :
    Mut.Pays CodecReader.position 0 (readByteWithContext context) fun _ => 1 := by
  refine (pays_readBytes 1 context).bind fun bytes => ?_
  cases bytes with
  | nil => exact Mut.pays_fail
  | cons byte rest => exact Mut.pays_pure (Nat.le_add_left 1 _)

theorem pays_readVarLoop {w : Nat} (context : String) (malformed : CodecError) (left : Nat) :
    ∀ (index : Nat) (acc : BitVec w),
      Mut.Pays CodecReader.position 0 (readVarLoop context malformed left index acc) fun _ => 0 := by
  induction left with
  | zero => exact fun _ _ => Mut.pays_fail
  | succ left ih =>
    intro index acc
    refine (pays_readByte context).bind fun byte => ?_
    split
    · exact (ih _ _).mono_credit (Nat.zero_le _)
    · exact Mut.pays_pure (Nat.zero_le _)

theorem pays_readVarInt : Mut.Pays CodecReader.position 0 readVarInt fun _ => 0 :=
  (pays_readVarLoop _ _ _ _ _).map Int32.ofBitVec

section Limits
variable {limits : NbtLimits} {layout : NbtLayout} {α : Type}

/-- The bytes the decoder has read. -/
def DecodeContext.position (c : DecodeContext) : Nat := c.reader.position

theorem pays_read {m : ReaderM α} {u : α → Nat} (h : Mut.Pays CodecReader.position 0 m u) :
    Mut.Pays DecodeContext.position 0 (read m) u :=
  (h.mapErr NbtError.codec).zoom fun _ _ => rfl

theorem pays_addTag (depth : Nat) :
    Mut.Pays (fun _ => 0) 0 (addTag limits depth) fun _ => 0 := by
  unfold addTag
  split
  · exact Mut.pays_fail
  refine (Mut.pays_get fun _ => Nat.le_refl 0).bind fun b => ?_
  split
  · exact Mut.pays_fail
  split
  · exact Mut.pays_fail
  · exact fun _ => Nat.le_refl 0

theorem pays_chargeBudget (amount : Nat) :
    Mut.Pays (fun _ => 0) 0 (chargeBudget limits amount) fun _ => 0 := by
  unfold chargeBudget
  refine (Mut.pays_get fun _ => Nat.le_refl 0).bind fun b => ?_
  split
  · exact Mut.pays_fail
  split
  · exact Mut.pays_fail
  · exact fun _ => Nat.le_refl 0

theorem pays_spend {m : BudgetM Unit} (h : Mut.Pays (fun _ => 0) 0 m fun _ => 0) :
    Mut.Pays DecodeContext.position 0 (spend m) fun _ => 0 :=
  h.zoom_frame fun _ _ => rfl

theorem pays_typeId (context : String) :
    Mut.Pays DecodeContext.position 0 (readTypeId context) fun _ => 1 := by
  refine (pays_read (pays_readBytes 1 context)).bind fun bytes => ?_
  cases bytes with
  | nil => exact Mut.pays_fail
  | cons byte rest => exact Mut.pays_pure (Nat.le_add_left 1 _)

theorem pays_collectionLength (kind : NbtCollectionKind) :
    Mut.Pays DecodeContext.position 0 (readCollectionLength kind) fun _ => 0 := by
  refine (pays_read pays_readI32).bind fun value => ?_
  split
  · exact Mut.pays_fail
  · exact Mut.pays_pure (Nat.le_refl 0)

theorem pays_limit {kind : NbtCollectionKind} {length max : Nat} :
    Mut.Pays DecodeContext.position 0 (checkCollectionLimit kind length max) fun _ => 0 := by
  unfold checkCollectionLimit
  split
  · exact Mut.pays_fail
  · exact Mut.pays_pure (Nat.le_refl 0)

theorem pays_values {m : ReaderM α} (h : Mut.Pays CodecReader.position 0 m fun _ => 0) (n : Nat)
    (bytes : Bytes) : Mut.Pays DecodeContext.position 0 (readValues m n bytes) fun _ => 0 := by
  unfold readValues
  have hsafe := (h.repeatCall n).not_panic (.new bytes)
  split
  · exact Mut.pays_pure (Nat.le_refl 0)
  · exact Mut.pays_fail
  · rename_i hpanic
    exact absurd hpanic hsafe

theorem pays_string :
    Mut.Pays DecodeContext.position 0 (NbtString.decode limits) fun s =>
      Utf8.size (decodeUtf16Lossy s) := by
  refine (pays_read pays_readU16).bind fun length => ?_
  refine Mut.Pays.check fun _ _ => ?_
  refine (pays_read (pays_readBytes length.toNat _)).bind fun bytes => ?_
  refine Mut.Pays.bind (Mut.pays_modify fun _ => Nat.le_refl _) fun _ => ?_
  split
  · exact Mut.pays_fail
  refine (pays_spend (pays_chargeBudget _)).bind fun _ => ?_
  refine Mut.pays_ofExcept fun s hunits => ?_
  have hsize := size_text_le_of_decodeUnits hunits
  omega

theorem pays_arrayLength {length elementSize : Nat} {kind : NbtCollectionKind} :
    Mut.Pays DecodeContext.position 0 (checkArrayLength limits length kind elementSize) fun _ => 0 :=
  pays_limit.bind fun _ => Mut.pays_ofExcept fun _ _ => Nat.le_refl 0

/-- A value without text costs nothing. -/
theorem pays_scalar {m : ReaderM α} (h : Mut.Pays CodecReader.position 0 m fun _ => 0)
    {f : α → NbtTree} (hf : ∀ a, (f a).textSize = 0) :
    Mut.Pays DecodeContext.position 0 (read m >>= fun a => pure (f a)) NbtTree.textSize :=
  (pays_read h).bind fun a => Mut.pays_pure (Nat.le_of_eq (hf a))

theorem pays_nextEntry (wireEntries : Nat) :
    Mut.Pays DecodeContext.position 0 (nextEntry limits wireEntries) fun _ => 1 := by
  refine (pays_typeId _).bind fun id => ?_
  split
  · exact Mut.pays_pure (Nat.le_refl _)
  split
  · exact Mut.pays_fail
  refine pays_limit.bind fun _ => ?_
  split
  · exact Mut.pays_fail
  · exact Mut.pays_pure (Nat.le_refl _)

/-- The entry limit is checked before an entry is announced. -/
theorem nextEntry_some {wireEntries : Nat} {type : NbtTagType} {s t : DecodeContext}
    (h : nextEntry limits wireEntries s = .ok (some type) t) :
    wireEntries + 1 ≤ limits.maxCompoundEntries.toNat := by
  obtain ⟨id, s₁, _, h⟩ := Mut.bind_eq_ok.mp h
  split at h
  · cases h
  cases hadd : checkedAdd wireEntries 1 with
  | none =>
    rw [hadd] at h
    cases h
  | some next =>
    rw [hadd] at h
    obtain ⟨_, s₂, hlimit, _⟩ := Mut.bind_eq_ok.mp h
    rw [(checkedAdd_eq_some.mp hadd).2] at hlimit
    unfold checkCollectionLimit at hlimit
    split at hlimit
    · cases hlimit
    · omega

section Children
variable {child : NbtTagType → Nat → NbtM NbtTree} {depth : Nat}
  (hchild : ∀ type, Mut.Pays DecodeContext.position 0 (child type (depth + 1)) NbtTree.textSize)
include hchild

theorem pays_list : Mut.Pays DecodeContext.position 0 (decodeListWith limits layout child depth)
    NbtTree.textSize := by
  refine (pays_typeId _).bind fun id => ?_
  refine (pays_read pays_readI32).bind fun signedLength => ?_
  split
  · exact Mut.pays_pure (Nat.zero_le _)
  refine pays_limit.bind fun _ => ?_
  split
  · exact Mut.pays_fail
  split
  · exact Mut.pays_fail
  refine Mut.Pays.check fun allocation _ => ?_
  refine (pays_spend (pays_chargeBudget allocation)).bind fun _ => ?_
  refine Mut.Pays.check fun next hnext => ?_
  rw [(nextDepth_eq_ok.mp hnext).2]
  refine ((hchild _).repeatCall _).bind fun elements => ?_
  refine Mut.Pays.check fun _ _ => Mut.pays_pure ?_
  rw [NbtTree.textSize_list]
  omega

/-- The credit is what the entries in the compound cost. -/
theorem pays_entries (left : Nat) : ∀ (wireEntries : Nat) (compound : List (NbtString × NbtTree)),
    left + wireEntries = limits.maxCompoundEntries.toNat →
    Mut.Pays DecodeContext.position (NbtTree.compound compound).textSize
      (decodeEntries limits layout child depth left wireEntries compound)
      fun entries => (NbtTree.compound entries).textSize := by
  induction left with
  | zero =>
    intro wireEntries compound hleft
    refine (pays_nextEntry wireEntries).bind_of_ok fun next s t hok => ?_
    cases next with
    | none => exact Mut.pays_pure (Nat.le_add_right _ _)
    | some type =>
      have hmax := nextEntry_some hok
      omega
  | succ left ih =>
    intro wireEntries compound hleft
    refine (pays_nextEntry wireEntries).bind fun next => ?_
    cases next with
    | none => exact Mut.pays_pure (Nat.le_add_right _ _)
    | some type =>
      refine (pays_spend (pays_chargeBudget _)).bind fun _ => ?_
      refine pays_string.bind fun name => ?_
      refine Mut.Pays.check fun next hnext => ?_
      rw [(nextDepth_eq_ok.mp hnext).2]
      refine (hchild type).bind fun value => ?_
      have hrest := ih (wireEntries + 1) (Entries.insert name value compound) (by omega)
      refine hrest.mono_credit ?_
      have hsum := Entries.sum_insert_le (fun e : NbtString × NbtTree => e.2.textSize + 1) name value
        compound
      change _ ≤ _ + (value.textSize + 1) at hsum
      rw [NbtTree.textSize_compound, NbtTree.textSize_compound]
      omega

theorem pays_compound : Mut.Pays DecodeContext.position 0
    (decodeCompoundWith limits layout child depth) fun entries => (NbtTree.compound entries).textSize :=
  pays_entries hchild _ 0 [] (Nat.add_zero _)

end Children

theorem pays_byteArray :
    Mut.Pays DecodeContext.position 0 (decodeByteArray limits) NbtTree.textSize := by
  refine (pays_collectionLength .byteArray).bind fun length => ?_
  refine pays_arrayLength.bind fun _ => ?_
  refine (pays_read (pays_readBytes length _)).bind fun bytes => ?_
  refine (pays_spend (pays_chargeBudget length)).bind fun _ => ?_
  exact Mut.pays_pure (Nat.zero_le _)

/-- The arrays of numbers. -/
theorem pays_array {m : ReaderM α} {kind : NbtCollectionKind} {elementSize : Nat} {context : String}
    {g : List α → NbtTree} (h : Mut.Pays CodecReader.position 0 m fun _ => 0)
    (hg : ∀ values, (g values).textSize = 0) :
    Mut.Pays DecodeContext.position 0 (do
      let length ← readCollectionLength kind
      let byteLength ← checkArrayLength limits length kind elementSize
      let bytes ← read (readBytes byteLength context)
      spend (chargeBudget limits byteLength)
      let values ← readValues m length bytes
      pure (g values)) NbtTree.textSize := by
  refine (pays_collectionLength kind).bind fun length => ?_
  refine pays_arrayLength.bind fun byteLength => ?_
  refine (pays_read (pays_readBytes byteLength context)).bind fun bytes => ?_
  refine (pays_spend (pays_chargeBudget byteLength)).bind fun _ => ?_
  refine Mut.Pays.mono_credit ?_ (Nat.zero_le _)
  refine (pays_values h length bytes).bind fun values => ?_
  exact Mut.pays_pure (Nat.le_of_eq (hg values))

/-- A payload that is decoded has read the text in it; a level beyond the depth limit is not
entered, so the fuel lasts. -/
theorem pays_payload (fuel : Nat) : ∀ (type : NbtTagType) (depth : Nat),
    limits.maxDepth.toNat < fuel + depth →
    Mut.Pays DecodeContext.position 0 (decodePayloadUpTo limits layout fuel type depth)
      NbtTree.textSize := by
  induction fuel with
  | zero =>
    intro type depth hdepth
    refine (pays_spend (pays_addTag depth)).bind_of_ok fun _ s t hok => ?_
    obtain ⟨b, hadd, _⟩ := Mut.zoom_eq_ok.mp hok
    have hle := (addTag_eq_ok.mp hadd).1
    omega
  | succ fuel ih =>
    intro type depth hdepth
    have hchild : ∀ type, Mut.Pays DecodeContext.position 0
        (decodePayloadUpTo limits layout fuel type (depth + 1)) NbtTree.textSize :=
      fun type => ih type (depth + 1) (by omega)
    refine (pays_spend (pays_addTag depth)).bind fun _ => ?_
    cases type with
    | tagEnd => exact Mut.pays_fail
    | byte => exact pays_scalar ((pays_readByte "i8").map UInt8.toInt8) fun _ => rfl
    | short => exact pays_scalar ((pays_readNat 2 "i16").map _) fun _ => rfl
    | int => exact pays_scalar pays_readI32 fun _ => rfl
    | long => exact pays_scalar ((pays_readNat 8 "i64").map _) fun _ => rfl
    | float => exact pays_scalar ((pays_readNat 4 "u32").map _) fun _ => rfl
    | double => exact pays_scalar ((pays_readNat 8 "u64").map _) fun _ => rfl
    | byteArray => exact pays_byteArray
    | string => exact pays_string.bind fun s => Mut.pays_pure (Nat.le_add_left _ _)
    | list => exact pays_list hchild
    | compound => exact (pays_compound hchild).bind fun entries => Mut.pays_pure (Nat.le_add_left _ _)
    | intArray => exact pays_array pays_readI32 fun _ => rfl
    | longArray => exact pays_array ((pays_readNat 8 "i64").map _) fun _ => rfl

theorem pays_unnamedNetworkTag : Mut.Pays DecodeContext.position 0
    (decodeUnnamedNetworkTag limits layout) fun tag => tag.val.textSize := by
  refine (pays_typeId _).bind fun id => ?_
  split
  · exact Mut.pays_fail
  split
  · exact Mut.pays_fail
  rename_i type _
  refine Mut.Pays.mono_credit ?_ (Nat.zero_le _)
  exact (pays_payload _ type 0 (Nat.lt_succ_self _)).certify

theorem pays_onReader {ε : Type} {g : NbtError → ε} {decode : NbtM α} {u : α → Nat}
    (h : Mut.Pays DecodeContext.position 0 decode u) :
    Mut.Pays CodecReader.position 0 (onReader g decode) u := by
  intro r
  have hpaid := h (.new r)
  unfold Mut.wp onReader at *
  split
  · rename_i hok
    rw [hok] at hpaid
    exact hpaid
  · trivial
  · rename_i hpanic
    rw [hpanic] at hpaid
    exact hpaid

theorem decodeComplete_ne_panic {decode : NbtM α} {u : α → Nat}
    (h : Mut.Pays DecodeContext.position 0 decode u) (input : Bytes) :
    decodeComplete decode input ≠ .panic := by
  have hreject : Mut.Pays DecodeContext.position 0 rejectTrailing fun _ => 0 := by
    refine Mut.Pays.bind (Mut.pays_get fun _ => Nat.le_refl 0) fun c => ?_
    split
    · exact Mut.pays_pure (Nat.le_refl 0)
    · exact Mut.pays_fail
  have hpays : Mut.Pays DecodeContext.position 0 (do
      let root ← decode
      rejectTrailing
      pure root) fun _ => 0 :=
    h.bind fun root => (hreject.mono_credit (Nat.zero_le _)).map fun _ => root
  exact hpays.not_panic (.new (.new input))

end Limits
end Cubic
