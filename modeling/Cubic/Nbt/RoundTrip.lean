import Cubic.Nbt.Decode
import Cubic.Nbt.Wire

/-!
# What is encoded is decoded again

The decoder takes the canonical bytes of a tree that fits, whatever follows them, and
spends what the validation pass of the encoder spent.
-/

namespace Cubic

set_option autoImplicit false

open NbtM

section Limits
variable (limits : NbtLimits)

/-- With `floor` tags counted and the amounts still available, `m` takes exactly `bytes` from
the front of the input, returns `a` and spends the amounts. No raw zero is recorded. -/
def Takes {α : Type} (floor : Nat) (m : NbtM α) (bytes : Bytes) (a : α) (tags cost : Nat) : Prop :=
  ∀ before rest b z, floor ≤ b.totalTags → (b.plus tags cost).Bounded limits →
    m ⟨⟨before, bytes ++ rest⟩, b, z⟩ = .ok a ⟨⟨before ++ bytes, rest⟩, b.plus tags cost, z⟩

variable {limits} {layout : NbtLayout} {α β : Type} {floor tags tags' cost cost' : Nat} {m : NbtM α}
  {f : α → NbtM β} {a : α} {c : β} {xs ys : Bytes}

theorem Takes.congr (h : Takes limits floor m xs a tags cost) (htags : tags = tags')
    (hcost : cost = cost') : Takes limits floor m xs a tags' cost' := by
  subst htags hcost
  exact h

theorem Takes.bind (hm : Takes limits floor m xs a tags cost)
    (hf : Takes limits (floor + tags) (f a) ys c tags' cost') :
    Takes limits floor (m >>= f) (xs ++ ys) c (tags + tags') (cost + cost') := by
  intro before rest b z hfloor hbound
  have hplus : b.plus (tags + tags') (cost + cost') = (b.plus tags cost).plus tags' cost' := by
    simp only [Budget.plus, Nat.add_assoc]
  rw [hplus] at hbound ⊢
  have hmid : (b.plus tags cost).Bounded limits :=
    ⟨Nat.le_trans (Nat.le_add_right _ _) hbound.1, Nat.le_trans (Nat.le_add_right _ _) hbound.2⟩
  rw [List.append_assoc, Mut.bind_of_ok (hm before (ys ++ rest) b z hfloor hmid),
    hf (before ++ xs) rest _ z (Nat.add_le_add_right hfloor tags) hbound, List.append_assoc]

theorem takes_pure (a : α) : Takes limits floor (pure a : NbtM α) [] a 0 0 := by
  intro before rest b z _ _
  rw [List.append_nil]
  rfl

/-- The last part of a parse reads and spends nothing. -/
theorem Takes.bindNil (hm : Takes limits floor m xs a tags cost)
    (hf : Takes limits (floor + tags) (f a) [] c 0 0) :
    Takes limits floor (m >>= f) xs c tags cost := by
  have h := hm.bind hf
  rwa [List.append_nil] at h

theorem Takes.map {g : α → β} (hm : Takes limits floor m xs a tags cost) :
    Takes limits floor (m >>= fun a => pure (g a)) xs (g a) tags cost :=
  hm.bindNil (takes_pure (g a))

/-- The first part of a parse reads and spends nothing. -/
theorem Takes.nilBind (hm : Takes limits floor m [] a 0 0)
    (hf : Takes limits floor (f a) ys c tags cost) : Takes limits floor (m >>= f) ys c tags cost :=
  (Takes.bind hm hf).congr (Nat.zero_add _) (Nat.zero_add _)

/-- What is spent before anything is read. -/
theorem Takes.spendBind (hm : Takes limits floor m [] a tags cost)
    (hf : Takes limits (floor + tags) (f a) ys c tags' cost') :
    Takes limits floor (m >>= f) ys c (tags + tags') (cost + cost') := Takes.bind hm hf

/-- What is read before anything is spent. -/
theorem Takes.readBind (hm : Takes limits floor m xs a 0 0)
    (hf : Takes limits floor (f a) ys c tags cost) :
    Takes limits floor (m >>= f) (xs ++ ys) c tags cost :=
  (Takes.bind hm hf).congr (Nat.zero_add _) (Nat.zero_add _)

/-- What is read last, before something is spent. -/
theorem Takes.lastRead (hm : Takes limits floor m xs a 0 0)
    (hf : Takes limits floor (f a) [] c tags cost) : Takes limits floor (m >>= f) xs c tags cost := by
  have h := hm.readBind hf
  rwa [List.append_nil] at h

theorem takes_read {m : ReaderM α} (h : Reads m xs a) : Takes limits floor (read m) xs a 0 0 := by
  intro before rest b z _ _
  have hread : Mut.mapErr NbtError.codec m ⟨before, xs ++ rest⟩ = .ok a ⟨before ++ xs, rest⟩ :=
    Mut.mapErr_eq_ok.mpr (h before rest)
  simp only [NbtM.read, Mut.zoom, hread]
  rfl

theorem takes_ofExcept {r : Except NbtError α} (h : r = .ok a) :
    Takes limits floor (Mut.ofExcept r) [] a 0 0 := by
  subst h
  exact takes_pure a

theorem takes_spend {m : BudgetM Unit} (h : ∀ b, floor ≤ b.totalTags →
    (b.plus tags cost).Bounded limits → m b = .ok () (b.plus tags cost)) :
    Takes limits floor (spend m) [] () tags cost := by
  intro before rest b z hfloor hbound
  simp only [NbtM.spend, Mut.zoom, h b hfloor hbound, List.append_nil, List.nil_append]

theorem takes_charge (amount : Nat) :
    Takes limits floor (spend (chargeBudget limits amount)) [] () 0 amount :=
  takes_spend fun _ _ hbound => chargeBudget_eq_ok.mpr ⟨hbound.2, rfl⟩

theorem takes_addTag {depth : Nat} (h : depth ≤ limits.maxDepth.toNat) :
    Takes limits floor (spend (addTag limits depth)) [] () 1 0 :=
  takes_spend fun _ _ hbound => addTag_eq_ok.mpr ⟨h, hbound.1, rfl⟩

/-- The tags counted down to a depth leave room for the next depth. -/
theorem takes_nextDepth {depth : Nat} (h : depth + 1 ≤ floor) :
    Takes limits floor (Mut.ofExcept (nextDepth limits depth)) [] (depth + 1) 0 0 := by
  intro before rest b z hfloor hbound
  have husize := usize_le limits.maxTotalTags
  have htags : b.totalTags ≤ limits.maxTotalTags.toNat := hbound.1
  have hnext : nextDepth limits depth = .ok (depth + 1) := nextDepth_eq_ok.mpr ⟨by omega, rfl⟩
  exact takes_ofExcept hnext before rest b z hfloor hbound

/-- A collection within the budget has a size that does not overflow. -/
theorem takes_collection {kind : NbtCollectionKind} {length size : Nat} {f : Nat → NbtM β}
    (hcost : length * size ≤ cost) (hf : Takes limits floor (f (length * size)) ys c tags cost) :
    Takes limits floor (Mut.ofExcept (checkedCollectionBytes kind length size) >>= f) ys c tags cost := by
  intro before rest b z hfloor hbound
  have husize := usize_le limits.maxTotalAllocatedBytes
  have hbytes : b.bytes + cost ≤ limits.maxTotalAllocatedBytes.toNat := hbound.2
  have hok : checkedCollectionBytes kind length size = .ok (length * size) :=
    checkedCollectionBytes_eq_ok.mpr ⟨by omega, rfl⟩
  exact Takes.nilBind (takes_ofExcept hok) hf before rest b z hfloor hbound

/-! ### Strings and arrays -/

theorem takes_typeId (id : UInt8) (context : String) :
    Takes limits floor (readTypeId context) (writeU8 id) id 0 0 :=
  (takes_read (reads_readBytes [id] context)).bindNil (takes_pure id)

theorem takes_modify {g : DecodeContext → DecodeContext} (h : ∀ s, g s = s) :
    Takes limits floor (Mut.modify g) [] () 0 0 := by
  intro before rest b z _ _
  rw [List.append_nil]
  exact congrArg (Outcome.ok ()) (h _)

theorem takes_string {s : NbtString} (h : encodedLen s ≤ limits.maxStringEncodedBytes) :
    Takes limits floor (NbtString.decode limits) (wireString s) s 0 (encodedLen s * 2) := by
  have hu16 : encodedLen s ≤ u16Max := Nat.le_trans h limits.maxStringEncodedBytes_le
  have hnat : (UInt16.ofNat (encodedLen s)).toNat = encodedLen s := by
    rw [UInt16.toNat_ofNat_of_lt']
    exact Nat.lt_succ_of_le hu16
  have hmul : checkedMul (encodedLen s) 2 = some (encodedLen s * 2) := by
    refine checkedMul_eq_some.mpr ⟨?_, rfl⟩
    unfold usizeMax
    unfold u16Max at hu16
    omega
  have hzero : (s.flatMap encodeUnit).contains 0 = false := by
    rw [List.contains_eq_mem]
    exact decide_eq_false (zero_not_mem_encodeUnits s)
  have hbytes := reads_readBytes (s.flatMap encodeUnit) "NBT Modified UTF-8 bytes"
  rw [length_encodeUnits] at hbytes
  unfold NbtString.decode
  refine (takes_read (reads_u16 _)).readBind ?_
  rw [hnat]
  refine (takes_ofExcept (validateEncodedLength_eq_ok.mpr h)).nilBind ?_
  refine (takes_read hbytes).lastRead (Takes.nilBind (a := ()) (takes_modify fun c => ?_) ?_)
  · rw [hzero, Bool.or_false]
  · simp only [hmul]
    exact (takes_charge _).bindNil (takes_ofExcept (decodeUnits_encode s 0))

theorem takes_collectionLength (kind : NbtCollectionKind) {length : Nat} (h : length ≤ i32Max) :
    Takes limits floor (readCollectionLength kind) (writeI32 (.ofNat length)) length 0 0 := by
  have hint := toInt_ofNat_i32 h
  have hneg : ¬ Int32.ofNat length < 0 := by
    rw [Int32.lt_iff_toInt_lt, hint]
    exact Int.not_lt.mpr (Int.natCast_nonneg length)
  refine (takes_read (reads_i32 _)).bindNil ?_
  rw [if_neg hneg, hint]
  exact takes_pure length

theorem takes_limit {kind : NbtCollectionKind} {length max : Nat} (h : length ≤ max) :
    Takes limits floor (checkCollectionLimit kind length max) [] () 0 0 := by
  unfold checkCollectionLimit
  rw [if_neg (Nat.not_lt.mpr h)]
  exact takes_pure ()

theorem takes_arrayLength {kind : NbtCollectionKind} {length size : Nat}
    (h : length ≤ min limits.maxArrayElements.toNat i32Max) (hsize : size ≤ 8) :
    Takes limits floor (checkArrayLength limits length kind size) [] (length * size) 0 0 := by
  have hlength : length ≤ i32Max := Nat.le_trans h (Nat.min_le_right _ _)
  have hmul : length * size ≤ i32Max * 8 := Nat.mul_le_mul hlength hsize
  have husize : length * size ≤ usizeMax := Nat.le_trans hmul (by decide)
  exact (takes_limit (Nat.le_trans h (Nat.min_le_left _ _))).nilBind
    (takes_ofExcept (checkedCollectionBytes_eq_ok.mpr ⟨husize, rfl⟩))

/-- The values of an array are read in a reader of their own. -/
theorem takes_values {enc : α → Bytes} {m : ReaderM α} (vs : List α) (h : ∀ v, Reads m (enc v) v) :
    Takes limits floor (readValues m vs.length (vs.flatMap enc)) [] vs 0 0 := by
  have hread := (reads_repeat vs fun v _ => h v).all.run
  unfold readValues
  rw [hread]
  exact takes_pure vs

theorem takes_byteArray {vs : List UInt8}
    (h : vs.length ≤ min limits.maxArrayElements.toNat i32Max) :
    Takes limits floor (decodeByteArray limits) (NbtTree.byteArray vs).wire (.byteArray vs) 0
      (vs.length * 1) := by
  rw [NbtTree.wire, Nat.mul_one]
  refine (takes_collectionLength .byteArray (Nat.le_trans h (Nat.min_le_right _ _))).readBind ?_
  refine (takes_arrayLength h (by decide)).nilBind ?_
  exact (takes_read (reads_readBytes vs _)).lastRead ((takes_charge _).map)

theorem takes_intArray {vs : List Int32}
    (h : vs.length ≤ min limits.maxArrayElements.toNat i32Max) :
    Takes limits floor (decodeIntArray limits) (NbtTree.intArray vs).wire (.intArray vs) 0
      (vs.length * 4) := by
  have hbytes := reads_readBytes (vs.flatMap writeI32) "TAG_Int_Array payload"
  rw [length_flatMap_of_length length_writeI32] at hbytes
  refine (takes_collectionLength .intArray (Nat.le_trans h (Nat.min_le_right _ _))).readBind ?_
  refine (takes_arrayLength h (by decide)).nilBind ?_
  exact (takes_read hbytes).lastRead ((takes_charge _).bindNil (takes_values vs reads_i32).map)

theorem takes_longArray {vs : List Int64}
    (h : vs.length ≤ min limits.maxArrayElements.toNat i32Max) :
    Takes limits floor (decodeLongArray limits) (NbtTree.longArray vs).wire (.longArray vs) 0
      (vs.length * 8) := by
  have hbytes := reads_readBytes (vs.flatMap writeI64) "TAG_Long_Array payload"
  rw [length_flatMap_of_length length_writeI64] at hbytes
  refine (takes_collectionLength .longArray (Nat.le_trans h (Nat.min_le_right _ _))).readBind ?_
  refine (takes_arrayLength h (by decide)).nilBind ?_
  exact (takes_read hbytes).lastRead ((takes_charge _).bindNil (takes_values vs reads_i64).map)

/-! ### Trees -/

variable (limits layout) in
/-- At a depth that the tags counted so far cover, `decodePayload` takes the bytes of `t`. -/
def DecodesAt (decodePayload : NbtTagType → Nat → NbtM NbtTree) (depth : Nat) (t : NbtTree) : Prop :=
  ∀ floor, depth ≤ floor →
    Takes limits floor (decodePayload t.tagType depth) t.wire t t.tags (t.cost layout)

theorem validateElementTypes_eq_ok {expected : NbtTagType} {elements : List NbtTree} :
    ∀ {index : Nat}, validateElementTypes expected index elements = .ok () ↔
      ∀ e ∈ elements, e.tagType = expected := by
  induction elements with
  | nil => simp [validateElementTypes]
  | cons e rest ih =>
    intro index
    rw [validateElementTypes, List.forall_mem_cons]
    by_cases he : e.tagType = expected
    · rw [if_neg (not_not.mpr he), ih, and_iff_right he]
    · rw [if_pos he]
      simp [he]

/-- A list that is not empty has the id of a type, which its elements have. -/
theorem validateList_eq_ok {id : UInt8} {e : NbtTree} {rest : List NbtTree} :
    validateList id (e :: rest) = .ok () ↔
      ∃ type, NbtTagType.fromId id = some type ∧ type ≠ .tagEnd ∧
        ∀ e' ∈ e :: rest, e'.tagType = type := by
  unfold validateList
  rw [if_neg (by simp)]
  cases hid : NbtTagType.fromId id with
  | none => simp
  | some type =>
    by_cases hend : type = .tagEnd
    · simp [hend]
    · simp only [if_neg hend, validateElementTypes_eq_ok]
      simp [hend]

section Children
variable {decodePayload : NbtTagType → Nat → NbtM NbtTree} {depth : Nat}

theorem takes_elements {type : NbtTagType} {elements : List NbtTree} (hdepth : depth ≤ floor)
    (htype : ∀ e ∈ elements, e.tagType = type)
    (h : ∀ e ∈ elements, DecodesAt limits layout decodePayload depth e) :
    Takes limits floor (Mut.repeatCall (decodePayload type depth) elements.length)
      (NbtTree.wireElements elements) elements (NbtTree.totalElements (fun _ => 1) elements)
      (NbtTree.totalElements (NbtTree.nodeCost layout) elements) := by
  induction elements generalizing floor with
  | nil => exact takes_pure []
  | cons e rest ih =>
    obtain ⟨he, hrest⟩ := List.forall_mem_cons.mp h
    obtain ⟨hetype, hrestType⟩ := List.forall_mem_cons.mp htype
    have hhead := he floor hdepth
    rw [hetype] at hhead
    exact hhead.bind ((ih (Nat.le_add_right_of_le hdepth) hrestType hrest).map)

theorem takes_list {id : UInt8} {elements : List NbtTree} (hdepth : depth + 1 ≤ floor)
    (hvalid : validateList id elements = .ok ())
    (hlength : elements.length ≤ min limits.maxListElements.toNat i32Max)
    (h : ∀ e ∈ elements, DecodesAt limits layout decodePayload (depth + 1) e) :
    Takes limits floor (decodeListWith limits layout decodePayload depth)
      (NbtTree.list id elements).wire (.list id elements)
      (NbtTree.totalElements (fun _ => 1) elements)
      (elements.length * layout.tagBytes + NbtTree.totalElements (NbtTree.nodeCost layout) elements) := by
  have hint := toInt_ofNat_i32 (Nat.le_trans hlength (Nat.min_le_right _ _))
  refine (takes_typeId id _).readBind ?_
  cases elements with
  | nil =>
    refine (takes_read (reads_i32 _)).readBind ?_
    exact (takes_pure _).congr rfl (by rw [List.length_nil, Nat.zero_mul]; rfl)
  | cons e rest =>
    obtain ⟨type, hid, hend, htypes⟩ := validateList_eq_ok.mp hvalid
    have hpos : ¬ Int32.ofNat (e :: rest).length ≤ 0 := by
      rw [Int32.le_iff_toInt_le, hint, List.length_cons]
      exact Int.not_le.mpr (Int.natCast_succ_pos rest.length)
    refine (takes_read (reads_i32 _)).readBind ?_
    simp only [if_neg hpos, hint, Int.toNat_natCast]
    refine (takes_limit (Nat.le_trans hlength (Nat.min_le_left _ _))).nilBind ?_
    simp only [hid, if_neg hend]
    rw [← NbtTagType.id_of_fromId hid] at hvalid ⊢
    refine takes_collection (Nat.le_add_right _ _) ?_
    refine Takes.congr ((takes_charge _).spendBind ((takes_nextDepth hdepth).nilBind
      ((takes_elements hdepth htypes h).bindNil (takes_ofExcept hvalid).map))) (Nat.zero_add _) rfl

/-- The end of a compound. -/
theorem takes_nextEntry_end (wireEntries : Nat) :
    Takes limits floor (nextEntry limits wireEntries) (writeU8 NbtTagType.tagEnd.id) none 0 0 :=
  (takes_typeId _ _).bindNil (takes_pure none)

theorem takes_nextEntry {wireEntries : Nat} {t : NbtTree}
    (h : wireEntries + 1 ≤ limits.maxCompoundEntries.toNat) :
    Takes limits floor (nextEntry limits wireEntries) (writeU8 t.tagType.id) (some t.tagType) 0 0 := by
  have husize := usize_le limits.maxCompoundEntries
  have hadd : checkedAdd wireEntries 1 = some (wireEntries + 1) :=
    checkedAdd_eq_some.mpr ⟨by omega, rfl⟩
  have hid : t.tagType.id ≠ NbtTagType.tagEnd.id := t.tagType_id_ne_zero
  refine (takes_typeId _ _).bindNil ?_
  simp only [if_neg hid, hadd, NbtTagType.fromId_id]
  exact (takes_limit h).nilBind (takes_pure _)

/-- The entries after those of `seen`, whose names they follow. -/
theorem takes_entries {entries : List (NbtString × NbtTree)} (hdepth : depth + 1 ≤ floor)
    (hnames : ∀ e ∈ entries, encodedLen e.1 ≤ limits.maxStringEncodedBytes)
    (h : ∀ e ∈ entries, DecodesAt limits layout decodePayload (depth + 1) e.2) :
    ∀ {left wireEntries : Nat} {seen : List (NbtString × NbtTree)},
      wireEntries + left = limits.maxCompoundEntries.toNat → entries.length ≤ left →
      Entries.Ascending (seen ++ entries) →
      Takes limits floor (decodeEntries limits layout decodePayload depth left wireEntries seen)
        (NbtTree.wireEntries entries ++ writeU8 NbtTagType.tagEnd.id) (seen ++ entries)
        (NbtTree.totalEntries (fun _ => 1) entries)
        ((entries.map (NbtTree.entryCost layout)).sum +
          NbtTree.totalEntries (NbtTree.nodeCost layout) entries) := by
  induction entries generalizing floor with
  | nil =>
    intro left wireEntries seen _ _ _
    rw [List.append_nil]
    cases left with
    | zero => exact (takes_nextEntry_end wireEntries).bindNil (takes_pure seen)
    | succ left => exact (takes_nextEntry_end wireEntries).bindNil (takes_pure seen)
  | cons e rest ih =>
    intro left wireEntries seen hleft hlength hseen
    obtain ⟨name, value⟩ := e
    obtain ⟨hname, hnames⟩ := List.forall_mem_cons.mp hnames
    obtain ⟨hvalue, hrest⟩ := List.forall_mem_cons.mp h
    cases left with
    | zero => exact absurd hlength (Nat.not_succ_le_zero _)
    | succ left =>
    have hlast : ∀ e ∈ seen, e.1 < name := fun e he =>
      (List.pairwise_append.mp hseen).2.2 e he _ List.mem_cons_self
    have happend : seen ++ (name, value) :: rest = Entries.insert name value seen ++ rest := by
      rw [Entries.insert_last value hlast, List.append_assoc, List.singleton_append]
    rw [happend] at hseen ⊢
    have hfloor : depth + 1 ≤ floor + 0 + 0 + value.tags := by omega
    have hmore : wireEntries + 1 + left = limits.maxCompoundEntries.toNat := by omega
    have htail := ih hfloor hnames hrest hmore (Nat.le_of_succ_le_succ hlength) hseen
    simp only [NbtTree.wireEntries, List.append_assoc]
    refine (takes_nextEntry (by omega)).readBind ?_
    refine Takes.congr ((takes_charge _).spendBind (Takes.bind (takes_string hname)
      ((takes_nextDepth hdepth).nilBind (Takes.bind (hvalue _ hdepth) htail)))) ?_ ?_
    · simp only [NbtTree.totalEntries, NbtTree.tags]
      omega
    · simp only [NbtTree.totalEntries, NbtTree.cost, List.map_cons, List.sum_cons, NbtTree.entryCost]
      omega

theorem takes_compound {entries : List (NbtString × NbtTree)} (hdepth : depth + 1 ≤ floor)
    (hlength : entries.length ≤ limits.maxCompoundEntries.toNat)
    (hsorted : Entries.Ascending entries)
    (hnames : ∀ e ∈ entries, encodedLen e.1 ≤ limits.maxStringEncodedBytes)
    (h : ∀ e ∈ entries, DecodesAt limits layout decodePayload (depth + 1) e.2) :
    Takes limits floor (decodeCompoundWith limits layout decodePayload depth)
      (NbtTree.compound entries).wire entries (NbtTree.totalEntries (fun _ => 1) entries)
      (NbtTree.nodeCost layout (.compound entries) +
        NbtTree.totalEntries (NbtTree.nodeCost layout) entries) :=
  takes_entries hdepth hnames h (Nat.zero_add _) hlength hsorted

end Children

/-- A node without children. -/
theorem takes_leaf {m : NbtM α} {depth : Nat} (hdepth : depth ≤ limits.maxDepth.toNat)
    (h : Takes limits (floor + 1) m xs a 0 cost) :
    Takes limits floor (spend (addTag limits depth) >>= fun _ => m) xs a 1 cost :=
  ((takes_addTag hdepth).spendBind h).congr rfl (Nat.zero_add _)

/-- A child that fits leaves fuel for its own level. -/
theorem decodesAt_child {fuel depth : Nat} {t : NbtTree} (hfuel : depth + fuel = limits.maxDepth.toNat)
    (hfits : t.Fits limits limits.maxCompoundEntries.toNat (depth + 1))
    (h : ∀ {fuel}, depth + 1 + fuel = limits.maxDepth.toNat →
      DecodesAt limits layout (decodePayloadUpTo limits layout (fuel + 1)) (depth + 1) t) :
    DecodesAt limits layout (decodePayloadUpTo limits layout fuel) (depth + 1) t := by
  have hdepth := hfits.depth_le
  cases fuel with
  | zero => omega
  | succ fuel => exact h (by omega)

/-- With fuel for the levels from `depth` to the limit, the decoder reads a tree that fits. -/
theorem takes_payload (t : NbtTree) : ∀ {fuel depth : Nat}, depth + fuel = limits.maxDepth.toNat →
    t.Fits limits limits.maxCompoundEntries.toNat depth → t.All (fun _ => NbtTree.Sorted) depth →
    DecodesAt limits layout (decodePayloadUpTo limits layout (fuel + 1)) depth t := by
  induction t using NbtTree.induct with
  | list id elements ih =>
    intro fuel depth hfuel hfits hsorted floor hdepth
    have helements : ∀ e ∈ elements,
        DecodesAt limits layout (decodePayloadUpTo limits layout fuel) (depth + 1) e := by
      intro e he
      have hfits' := NbtTree.allElements_iff.mp hfits.2 e he
      have hsorted' := NbtTree.allElements_iff.mp hsorted.2 e he
      exact decodesAt_child hfuel hfits' fun hfuel' => ih e he hfuel' hfits' hsorted'
    have hbody := takes_list (Nat.succ_le_succ hdepth) hfits.1.2.1 hfits.1.2.2 helements
    exact ((takes_addTag hfits.1.1).spendBind hbody).congr rfl (Nat.zero_add _)
  | compound entries ih =>
    intro fuel depth hfuel hfits hsorted floor hdepth
    have hentries : ∀ e ∈ entries,
        DecodesAt limits layout (decodePayloadUpTo limits layout fuel) (depth + 1) e.2 := by
      intro e he
      have hfits' := NbtTree.allEntries_iff.mp hfits.2 e he
      have hsorted' := NbtTree.allEntries_iff.mp hsorted.2 e he
      exact decodesAt_child hfuel hfits' fun hfuel' => ih e he hfuel' hfits' hsorted'
    have hbody := takes_compound (Nat.succ_le_succ hdepth) hfits.1.2.1 hsorted.1 hfits.1.2.2 hentries
    exact ((takes_addTag hfits.1.1).spendBind hbody.map).congr rfl (Nat.zero_add _)
  | byteArray vs =>
    intro fuel depth _ hfits _ floor _
    exact takes_leaf hfits.1 (takes_byteArray hfits.2)
  | intArray vs =>
    intro fuel depth _ hfits _ floor _
    exact takes_leaf hfits.1 (takes_intArray hfits.2)
  | longArray vs =>
    intro fuel depth _ hfits _ floor _
    exact takes_leaf hfits.1 (takes_longArray hfits.2)
  | string s =>
    intro fuel depth _ hfits _ floor _
    exact takes_leaf hfits.1 (takes_string hfits.2).map
  | byte v =>
    intro fuel depth _ hfits _ floor _
    exact takes_leaf hfits.1 (takes_read (reads_i8 v)).map
  | short v =>
    intro fuel depth _ hfits _ floor _
    exact takes_leaf hfits.1 (takes_read (reads_i16 v)).map
  | int v =>
    intro fuel depth _ hfits _ floor _
    exact takes_leaf hfits.1 (takes_read (reads_i32 v)).map
  | long v =>
    intro fuel depth _ hfits _ floor _
    exact takes_leaf hfits.1 (takes_read (reads_i64 v)).map
  | float v =>
    intro fuel depth _ hfits _ floor _
    exact takes_leaf hfits.1 (takes_read (reads_u32 v)).map
  | double v =>
    intro fuel depth _ hfits _ floor _
    exact takes_leaf hfits.1 (takes_read (reads_u64 v)).map

/-! ### Entry points -/

/-- From a fresh context. -/
theorem Takes.run (h : Takes limits 0 m xs a tags cost)
    (hbound : (⟨tags, cost⟩ : Budget).Bounded limits) (before rest : Bytes) :
    m (.new ⟨before, xs ++ rest⟩) = .ok a ⟨⟨before ++ xs, rest⟩, ⟨tags, cost⟩, false⟩ := by
  have hplus : (⟨0, 0⟩ : Budget).plus tags cost = ⟨tags, cost⟩ := by
    rw [Budget.plus, Nat.zero_add, Nat.zero_add]
  have hrun := h before rest ⟨0, 0⟩ false (Nat.zero_le _)
  rw [hplus] at hrun
  exact hrun hbound

theorem Takes.complete (h : Takes limits 0 m xs a tags cost)
    (hbound : (⟨tags, cost⟩ : Budget).Bounded limits) :
    (decodeComplete m xs).result? = some (.ok a) := by
  have hrun := h.run hbound [] []
  rw [List.append_nil] at hrun
  rw [decodeComplete, CodecReader.new, Mut.bind_of_ok hrun]
  rfl

theorem takes_certify {P : α → Prop} {h : ∀ s a s', m s = .ok a s' → P a} {a : {a // P a}}
    (hm : Takes limits floor m xs a.val tags cost) :
    Takes limits floor (Mut.certify P m h) xs a tags cost :=
  fun before rest b z hfloor hbound => Mut.certify_eq_ok.mpr (hm before rest b z hfloor hbound)

theorem takes_compoundRoot :
    Takes limits floor requireCompoundRoot (writeU8 NbtTagType.compound.id) () 0 0 :=
  (takes_typeId _ _).bindNil (takes_pure ())

theorem takes_rootCompound {compound : NbtCompound} (hfloor : 1 ≤ floor)
    (hfits : (NbtTree.compound compound.val).Fits limits limits.maxCompoundEntries.toNat 0) :
    Takes limits floor (decodeRootCompound limits layout) (NbtTree.compound compound.val).wire
      compound (NbtTree.totalEntries (fun _ => 1) compound.val)
      ((NbtTree.compound compound.val).cost layout) := by
  refine takes_certify (takes_compound hfloor hfits.1.2.1 compound.property.1 hfits.1.2.2 ?_)
  intro e he
  have hfits' := NbtTree.allEntries_iff.mp hfits.2 e he
  have hsorted' := NbtTree.allEntries_iff.mp compound.property.2 e he
  exact decodesAt_child (Nat.zero_add _) hfits' fun hfuel' => takes_payload e.2 hfuel' hfits' hsorted'

theorem takes_namedRoot {root : NamedNbtRoot}
    (hname : encodedLen root.name ≤ limits.maxStringEncodedBytes)
    (hfits : (NbtTree.compound root.compound.val).Fits limits limits.maxCompoundEntries.toNat 0) :
    Takes limits 0 (decodeNamedRoot limits layout)
      (writeU8 NbtTagType.compound.id ++
        (wireString root.name ++ (NbtTree.compound root.compound.val).wire))
      root (NbtTree.compound root.compound.val).tags
      (encodedLen root.name * 2 + (NbtTree.compound root.compound.val).cost layout) := by
  refine takes_compoundRoot.readBind (Takes.congr ((takes_addTag (Nat.zero_le _)).spendBind
    ((takes_string hname).bind (takes_rootCompound (Nat.le_refl 1) hfits).map)) ?_ (Nat.zero_add _))
  rw [Nat.zero_add]
  rfl

theorem takes_unnamedNetworkRoot {root : NbtCompound}
    (hfits : (NbtTree.compound root.val).Fits limits limits.maxCompoundEntries.toNat 0) :
    Takes limits 0 (decodeUnnamedNetworkRoot limits layout)
      (writeU8 NbtTagType.compound.id ++ (NbtTree.compound root.val).wire) root
      (NbtTree.compound root.val).tags ((NbtTree.compound root.val).cost layout) :=
  takes_compoundRoot.readBind (Takes.congr ((takes_addTag (Nat.zero_le _)).spendBind
    (takes_rootCompound (Nat.le_refl 1) hfits)) rfl (Nat.zero_add _))

theorem takes_unnamedNetworkTag {tag : NbtTag}
    (hfits : tag.val.Fits limits limits.maxCompoundEntries.toNat 0) :
    Takes limits 0 (decodeUnnamedNetworkTag limits layout)
      (writeU8 tag.val.tagType.id ++ tag.val.wire) tag tag.val.tags (tag.val.cost layout) := by
  have hid : tag.val.tagType.id ≠ NbtTagType.tagEnd.id := tag.val.tagType_id_ne_zero
  refine (takes_typeId _ _).readBind ?_
  rw [if_neg hid, NbtTagType.fromId_id]
  exact takes_certify (takes_payload tag.val (Nat.zero_add _) hfits tag.property 0 (Nat.le_refl 0))

end Limits

/-- What `encode` returns is decoded to the same value, alone or with more bytes after it;
the reader is left where those start. -/
def RoundTrips {α : Type} (encode : α → Outcome NbtError Budget Bytes) (decode : NbtM α)
    (decodeComplete : Bytes → Outcome NbtError DecodeContext α) : Prop :=
  ∀ v bytes b, encode v = .ok bytes b →
    (decodeComplete bytes).result? = some (.ok v) ∧
      ∀ before rest, ∃ c, decode (.new ⟨before, bytes ++ rest⟩) = .ok v c ∧
        c.reader = ⟨before ++ bytes, rest⟩

theorem roundTrips_of_takes {α : Type} {limits : NbtLimits} {m : NbtM α} {a : α} {bytes : Bytes}
    {tags cost : Nat} (h : Takes limits 0 m bytes a tags cost)
    (hbound : (⟨tags, cost⟩ : Budget).Bounded limits) :
    (decodeComplete m bytes).result? = some (.ok a) ∧
      ∀ before rest, ∃ c, m (.new ⟨before, bytes ++ rest⟩) = .ok a c ∧
        c.reader = ⟨before ++ bytes, rest⟩ :=
  ⟨h.complete hbound, fun before rest => ⟨_, h.run hbound before rest, rfl⟩⟩

/-- The encoders and the decoders of the three root forms are inverse. -/
theorem nbt_roundTrips (limits : NbtLimits) (layout : NbtLayout) :
    RoundTrips (encodeNamedRoot limits layout) (decodeNamedRoot limits layout)
        (decodeNamedRootComplete limits layout) ∧
      RoundTrips (encodeUnnamedNetworkRoot limits layout) (decodeUnnamedNetworkRoot limits layout)
        (decodeUnnamedNetworkRootComplete limits layout) ∧
      RoundTrips (encodeUnnamedNetworkTag limits layout) (decodeUnnamedNetworkTag limits layout)
        (decodeUnnamedNetworkTagComplete limits layout) := by
  have hentries : limits.encodableEntries ≤ limits.maxCompoundEntries.toNat := Nat.min_le_left _ _
  refine ⟨?_, ?_, ?_⟩
  · intro root bytes b h
    obtain ⟨⟨hname, hfits⟩, hbound, rfl, rfl⟩ := encodeNamedRoot_eq_ok.mp h
    exact roundTrips_of_takes (takes_namedRoot hname (hfits.mono hentries)) hbound
  · intro root bytes b h
    obtain ⟨hfits, hbound, rfl, rfl⟩ := encodeUnnamedNetworkRoot_eq_ok.mp h
    exact roundTrips_of_takes (takes_unnamedNetworkRoot (hfits.mono hentries)) hbound
  · intro tag bytes b h
    obtain ⟨hfits, hbound, rfl, rfl⟩ := encodeUnnamedNetworkTag_eq_ok.mp h
    exact roundTrips_of_takes (takes_unnamedNetworkTag (hfits.mono hentries)) hbound

/-- The name is NUL, and the empty list keeps an id that is no type's. -/
def sampleRoot : NamedNbtRoot where
  name := [0x00]
  compound := ⟨[([0x61], .list 3 [.int 5, .int (-1)]), ([0xd83d], .list 77 [])], by
    refine ⟨List.pairwise_pair.mpr (by decide), ?_⟩
    exact ⟨⟨trivial, trivial, trivial, trivial⟩, ⟨trivial, trivial⟩, trivial⟩⟩

theorem nbt_roundTrips_sample :
    (decodeNamedRootComplete .default ⟨24, 32⟩
      [10, 0, 2, 0xc0, 0x80, 9, 0, 1, 0x61, 3, 0, 0, 0, 2, 0, 0, 0, 5, 0xff, 0xff, 0xff, 0xff,
        9, 0, 3, 0xed, 0xa0, 0xbd, 77, 0, 0, 0, 0, 0]).result? = some (.ok sampleRoot) :=
  ((nbt_roundTrips .default ⟨24, 32⟩).1 sampleRoot _ ⟨5, 252⟩ (by decide +kernel)).1

end Cubic
