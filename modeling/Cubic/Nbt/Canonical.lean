import Cubic.Nbt.RoundTrip

/-!
# What is decoded is encoded again

A decoded tree fits, and what the decoder read and spent bounds what the encoder writes and
spends: a duplicate name, an overlong form or a negative length only costs more on the way in.
-/

namespace Cubic

set_option autoImplicit false

open NbtM

section Limits
variable (limits : NbtLimits)

/-! ### Bounds on what a parse reads and spends -/

/-- Between two contexts these tags, these charges and these bytes were spent, without a raw
zero in a string. -/
structure Spent (before after : DecodeContext) (tags cost size : Nat) : Prop where
  tags : before.budget.totalTags + tags ≤ after.budget.totalTags
  cost : before.budget.bytes + cost ≤ after.budget.bytes
  size : before.reader.position + size ≤ after.reader.position
  bounded : before.budget.Bounded limits → after.budget.Bounded limits
  rawZero : before.rawZero = false

/-- Whenever `m` succeeds without a raw zero, `Q` relates its value to what was spent. -/
def Yields {α : Type} (m : NbtM α) (Q : α → Nat → Nat → Nat → Prop) : Prop :=
  ∀ s a s', m s = .ok a s' → s'.rawZero = false →
    ∃ tags cost size, Spent limits s s' tags cost size ∧ Q a tags cost size

variable {limits} {layout : NbtLayout} {α β : Type} {m : NbtM α} {f : α → NbtM β}
  {Q : α → Nat → Nat → Nat → Prop} {R : β → Nat → Nat → Nat → Prop}

theorem Spent.refl {s : DecodeContext} (h : s.rawZero = false) : Spent limits s s 0 0 0 :=
  ⟨Nat.le_refl _, Nat.le_refl _, Nat.le_refl _, id, h⟩

theorem Spent.trans {s s' s'' : DecodeContext} {tags cost size tags' cost' size' : Nat}
    (h : Spent limits s s' tags cost size) (h' : Spent limits s' s'' tags' cost' size') :
    Spent limits s s'' (tags + tags') (cost + cost') (size + size') where
  tags := Nat.add_assoc .. ▸ (Nat.add_le_add_right h.tags tags').trans h'.tags
  cost := Nat.add_assoc .. ▸ (Nat.add_le_add_right h.cost cost').trans h'.cost
  size := Nat.add_assoc .. ▸ (Nat.add_le_add_right h.size size').trans h'.size
  bounded := fun hb => h'.bounded (h.bounded hb)
  rawZero := h.rawZero

theorem Yields.bind (hm : Yields limits m Q)
    (hf : ∀ a, Yields limits (f a) fun b tags' cost' size' => ∀ tags cost size,
      Q a tags cost size → R b (tags + tags') (cost + cost') (size + size')) :
    Yields limits (m >>= f) R := by
  intro s b s'' h hzero
  obtain ⟨a, s', ha, h⟩ := Mut.bind_eq_ok.mp h
  obtain ⟨tags', cost', size', hspent', hR⟩ := hf a s' b s'' h hzero
  obtain ⟨tags, cost, size, hspent, hQ⟩ := hm s a s' ha hspent'.rawZero
  exact ⟨_, _, _, hspent.trans hspent', hR tags cost size hQ⟩

theorem yields_pure {a : α} (h : Q a 0 0 0) : Yields limits (pure a : NbtM α) Q := by
  intro s a' s' hret hzero
  cases hret
  exact ⟨0, 0, 0, Spent.refl hzero, h⟩

theorem yields_fail {e : NbtError} : Yields limits (Mut.fail e : NbtM α) Q := by
  intro s a s' h
  cases h

theorem Yields.mono {Q' : α → Nat → Nat → Nat → Prop} (h : Yields limits m Q)
    (himp : ∀ a tags cost size, Q a tags cost size → Q' a tags cost size) :
    Yields limits m Q' := by
  intro s a s' hok hzero
  obtain ⟨tags, cost, size, hspent, hQ⟩ := h s a s' hok hzero
  exact ⟨tags, cost, size, hspent, himp a _ _ _ hQ⟩

/-! ### Readers -/

/-- `m` advances the reader by `n`, and `P` holds of its value. -/
def Consumes (m : ReaderM α) (n : Nat) (P : α → Prop) : Prop :=
  ∀ r a r', m r = .ok a r' → r'.position = r.position + n ∧ P a

theorem consumes_readBytes (n : Nat) (context : String) :
    Consumes (readBytes n context) n fun bytes => bytes.length = n := by
  intro r bytes r' h
  simp only [readBytes, Mut.get_bind] at h
  split at h
  · rename_i hle
    cases h
    have hlen : (r.rest.take n).length = n := List.length_take_of_le hle
    refine ⟨?_, hlen⟩
    simp only [CodecReader.position, CodecReader.advance, List.length_append, hlen]
  · split at h <;> cases h

theorem Consumes.map {m : ReaderM α} {n : Nat} {P : α → Prop} (h : Consumes m n P) (g : α → β) :
    Consumes (m >>= fun a => pure (g a)) n fun _ => True := by
  intro r b r' hok
  obtain ⟨a, s, ha, hret⟩ := Mut.bind_eq_ok.mp hok
  cases hret
  exact ⟨(h r a _ ha).1, trivial⟩

theorem yields_read {m : ReaderM α} {n : Nat} {P : α → Prop} (h : Consumes m n P) :
    Yields limits (read m) fun a tags cost size => tags = 0 ∧ cost = 0 ∧ size = n ∧ P a := by
  intro s a s' hok hzero
  obtain ⟨r, hread, rfl⟩ := Mut.zoom_eq_ok.mp hok
  obtain ⟨hposition, hP⟩ := h s.reader a r (Mut.mapErr_eq_ok.mp hread)
  exact ⟨0, 0, n, ⟨Nat.le_refl _, Nat.le_refl _, Nat.le_of_eq hposition.symm, id, hzero⟩, rfl, rfl,
    rfl, hP⟩

theorem yields_ofExcept {r : Except NbtError α} (h : ∀ a, r = .ok a → Q a 0 0 0) :
    Yields limits (Mut.ofExcept r) Q := by
  intro s a s' hok hzero
  obtain ⟨hr, rfl⟩ := Mut.ofExcept_eq_ok.mp hok
  exact ⟨0, 0, 0, Spent.refl hzero, h a hr⟩

/-- A check leaves the context as it is. -/
theorem Yields.check {r : Except NbtError α} (hf : ∀ a, r = .ok a → Yields limits (f a) R) :
    Yields limits (Mut.ofExcept r >>= f) R := by
  intro s b s' hok hzero
  obtain ⟨a, s₁, hcheck, hrest⟩ := Mut.bind_eq_ok.mp hok
  obtain ⟨hr, rfl⟩ := Mut.ofExcept_eq_ok.mp hcheck
  exact hf a hr s₁ b s' hrest hzero

theorem yields_addTag {depth : Nat} :
    Yields limits (spend (addTag limits depth)) fun _ tags cost size =>
      tags = 1 ∧ cost = 0 ∧ size = 0 ∧ depth ≤ limits.maxDepth.toNat := by
  intro s a s' hok hzero
  obtain ⟨b, hadd, rfl⟩ := Mut.zoom_eq_ok.mp hok
  obtain ⟨hdepth, htags, rfl⟩ := addTag_eq_ok.mp hadd
  exact ⟨1, 0, 0, ⟨Nat.le_refl _, Nat.le_refl _, Nat.le_refl _, fun hb => ⟨htags, hb.2⟩, hzero⟩, rfl,
    rfl, rfl, hdepth⟩

theorem yields_charge (amount : Nat) :
    Yields limits (spend (chargeBudget limits amount)) fun _ tags cost size =>
      tags = 0 ∧ cost = amount ∧ size = 0 := by
  intro s a s' hok hzero
  obtain ⟨b, hcharge, rfl⟩ := Mut.zoom_eq_ok.mp hok
  obtain ⟨hbytes, rfl⟩ := chargeBudget_eq_ok.mp hcharge
  exact ⟨0, amount, 0, ⟨Nat.le_refl _, Nat.le_refl _, Nat.le_refl _, fun hb => ⟨hb.1, hbytes⟩, hzero⟩,
    rfl, rfl, rfl⟩

theorem yields_typeId (context : String) :
    Yields limits (readTypeId context) fun _ tags cost size => tags = 0 ∧ cost = 0 ∧ size = 1 := by
  refine (yields_read (consumes_readBytes 1 context)).bind fun bytes => ?_
  cases bytes with
  | nil => exact yields_fail
  | cons byte rest =>
    refine yields_pure fun tags cost size h => ?_
    exact ⟨h.1, h.2.1, h.2.2.1⟩

theorem consumes_readNat (size : Nat) (context : String) :
    Consumes (readNat size context) size fun _ => True :=
  (consumes_readBytes size context).map ofBigEndian

theorem consumes_readByte (context : String) :
    Consumes (readByteWithContext context) 1 fun _ => True := by
  intro r b r' hok
  obtain ⟨bytes, s, hbytes, hret⟩ := Mut.bind_eq_ok.mp hok
  cases bytes with
  | nil => cases hret
  | cons byte rest =>
    cases hret
    exact ⟨(consumes_readBytes 1 context r _ _ hbytes).1, trivial⟩

/-! ### Strings and arrays -/

/-- The record of raw zeros stays clear only if there is none. -/
theorem yields_record (bytes : Bytes) :
    Yields limits (Mut.modify fun s => { s with rawZero := s.rawZero || bytes.contains 0 })
      fun _ tags cost size => tags = 0 ∧ cost = 0 ∧ size = 0 ∧ (0 : UInt8) ∉ bytes := by
  intro s a s' hok hzero
  cases hok
  obtain ⟨hbefore, hbytes⟩ := Bool.or_eq_false_iff.mp hzero
  refine ⟨0, 0, 0, ⟨Nat.le_refl _, Nat.le_refl _, Nat.le_refl _, id, hbefore⟩, rfl, rfl, rfl, ?_⟩
  rw [List.contains_eq_mem] at hbytes
  exact of_decide_eq_false hbytes

theorem yields_string :
    Yields limits (NbtString.decode limits) fun s _ cost size =>
      encodedLen s ≤ limits.maxStringEncodedBytes ∧ encodedLen s * 2 ≤ cost ∧
        2 + encodedLen s ≤ size := by
  refine (yields_read ((consumes_readNat 2 "u16").map UInt16.ofNat)).bind fun length => ?_
  refine Yields.check fun _ hvalid => ?_
  refine (yields_read (consumes_readBytes length.toNat _)).bind fun bytes => ?_
  refine (yields_record bytes).bind fun _ => ?_
  cases hmul : checkedMul length.toNat 2 with
  | none => exact yields_fail
  | some allocation =>
    obtain ⟨_, rfl⟩ := checkedMul_eq_some.mp hmul
    refine (yields_charge _).bind fun _ => ?_
    refine yields_ofExcept fun s hunits => ?_
    intro _ _ _ hcharge _ _ _ hrecord _ _ _ hbytes _ _ _ hlength
    have hmax := validateEncodedLength_eq_ok.mp hvalid
    have hlen := encodedLen_le_of_decodeUnits hunits hrecord.2.2.2
    refine ⟨?_, ?_, ?_⟩ <;> omega

theorem yields_collectionLength (kind : NbtCollectionKind) :
    Yields limits (readCollectionLength kind) fun length tags cost size =>
      tags = 0 ∧ cost = 0 ∧ size = 4 ∧ length ≤ i32Max := by
  refine (yields_read ((consumes_readNat 4 "i32").map fun n => Int32.ofBitVec (.ofNat 32 n))).bind
    fun value => ?_
  split
  · exact yields_fail
  · refine yields_pure fun tags cost size h => ?_
    have hmax := value.toInt_lt
    refine ⟨h.1, h.2.1, h.2.2.1, ?_⟩
    unfold i32Max
    omega

theorem yields_limit {kind : NbtCollectionKind} {length max : Nat} :
    Yields limits (checkCollectionLimit kind length max) fun _ tags cost size =>
      tags = 0 ∧ cost = 0 ∧ size = 0 ∧ length ≤ max := by
  unfold checkCollectionLimit
  split
  · exact yields_fail
  · rename_i h
    exact yields_pure ⟨rfl, rfl, rfl, Nat.not_lt.mp h⟩

theorem yields_arrayLength {kind : NbtCollectionKind} {length elementSize : Nat} :
    Yields limits (checkArrayLength limits length kind elementSize) fun bytes tags cost size =>
      tags = 0 ∧ cost = 0 ∧ size = 0 ∧ length ≤ limits.maxArrayElements.toNat ∧
        bytes = length * elementSize := by
  refine yields_limit.bind fun _ => ?_
  refine yields_ofExcept fun bytes hbytes => ?_
  intro tags cost size hlimit
  have hmul := (checkedCollectionBytes_eq_ok.mp hbytes).2
  refine ⟨?_, ?_, ?_, hlimit.2.2.2, hmul⟩ <;> omega

theorem yields_values {m : ReaderM α} {n : Nat} {bytes : Bytes} :
    Yields limits (readValues m n bytes) fun vs tags cost size =>
      tags = 0 ∧ cost = 0 ∧ size = 0 ∧ vs.length = n := by
  unfold readValues
  cases h : Mut.repeatCall m n (.new bytes) with
  | ok vs r => exact yields_pure ⟨rfl, rfl, rfl, Mut.repeatCall_length n h⟩
  | err e r => exact yields_fail
  | panic =>
    intro s a s' hok
    cases hok

/-! ### Trees -/

variable (limits layout) in
/-- The tree fits from a depth on, and the amounts cover its own. -/
def Within (depth : Nat) (t : NbtTree) (tags cost size : Nat) : Prop :=
  t.Fits limits limits.maxCompoundEntries.toNat depth ∧ t.tags ≤ tags ∧ t.cost layout ≤ cost ∧
    t.size ≤ size

theorem yields_byteArray :
    Yields limits (decodeByteArray limits) fun t tags cost size => ∀ depth,
      depth ≤ limits.maxDepth.toNat → Within limits layout depth t (1 + tags) cost size := by
  refine (yields_collectionLength .byteArray).bind fun length => ?_
  refine yields_arrayLength.bind fun _ => ?_
  refine (yields_read (consumes_readBytes length _)).bind fun bytes => ?_
  refine (yields_charge length).bind fun _ => ?_
  refine yields_pure ?_
  intro _ _ _ hcharge _ _ _ hbytes _ _ _ harray _ _ _ hlength depth hdepth
  have hlen : bytes.length = length := hbytes.2.2.2
  refine ⟨⟨hdepth, ?_⟩, ?_, ?_, ?_⟩
  · change bytes.length ≤ _
    omega
  · change 1 ≤ _
    omega
  · change bytes.length * 1 ≤ _
    omega
  · change 4 + bytes.length ≤ _
    omega

theorem yields_intArray :
    Yields limits (decodeIntArray limits) fun t tags cost size => ∀ depth,
      depth ≤ limits.maxDepth.toNat → Within limits layout depth t (1 + tags) cost size := by
  refine (yields_collectionLength .intArray).bind fun length => ?_
  refine yields_arrayLength.bind fun byteLength => ?_
  refine (yields_read (consumes_readBytes byteLength _)).bind fun bytes => ?_
  refine (yields_charge byteLength).bind fun _ => ?_
  refine yields_values.bind fun vs => ?_
  refine yields_pure ?_
  intro _ _ _ hvalues _ _ _ hcharge _ _ _ hbytes _ _ _ harray _ _ _ hlength depth hdepth
  have hlen : vs.length = length := hvalues.2.2.2
  refine ⟨⟨hdepth, ?_⟩, ?_, ?_, ?_⟩
  · change vs.length ≤ _
    omega
  · change 1 ≤ _
    omega
  · change vs.length * 4 ≤ _
    omega
  · change 4 + vs.length * 4 ≤ _
    omega

theorem yields_longArray :
    Yields limits (decodeLongArray limits) fun t tags cost size => ∀ depth,
      depth ≤ limits.maxDepth.toNat → Within limits layout depth t (1 + tags) cost size := by
  refine (yields_collectionLength .longArray).bind fun length => ?_
  refine yields_arrayLength.bind fun byteLength => ?_
  refine (yields_read (consumes_readBytes byteLength _)).bind fun bytes => ?_
  refine (yields_charge byteLength).bind fun _ => ?_
  refine yields_values.bind fun vs => ?_
  refine yields_pure ?_
  intro _ _ _ hvalues _ _ _ hcharge _ _ _ hbytes _ _ _ harray _ _ _ hlength depth hdepth
  have hlen : vs.length = length := hvalues.2.2.2
  refine ⟨⟨hdepth, ?_⟩, ?_, ?_, ?_⟩
  · change vs.length ≤ _
    omega
  · change 1 ≤ _
    omega
  · change vs.length * 8 ≤ _
    omega
  · change 4 + vs.length * 8 ≤ _
    omega

theorem yields_nextEntry (wireEntries : Nat) :
    Yields limits (nextEntry limits wireEntries) fun _ tags cost size =>
      tags = 0 ∧ cost = 0 ∧ size = 1 := by
  refine (yields_typeId _).bind fun id => ?_
  split
  · refine yields_pure fun tags cost size h => ?_
    exact h
  split
  · exact yields_fail
  refine yields_limit.bind fun _ => ?_
  split
  · exact yields_fail
  · refine yields_pure ?_
    intro _ _ _ hlimit _ _ _ hid
    refine ⟨?_, ?_, ?_⟩ <;> omega

/-- What an entry costs, with its value. -/
def childCost (layout : NbtLayout) (e : NbtString × NbtTree) : Nat :=
  NbtTree.entryCost layout e + e.2.cost layout

def childSize (e : NbtString × NbtTree) : Nat := NbtTree.entrySize e + e.2.size

section Children
variable {decodePayload : NbtTagType → Nat → NbtM NbtTree} {depth : Nat}
  (hchild : ∀ type, Yields limits (decodePayload type (depth + 1)) (Within limits layout (depth + 1)))
include hchild

theorem yields_elements (type : NbtTagType) (n : Nat) :
    Yields limits (Mut.repeatCall (decodePayload type (depth + 1)) n) fun elements tags cost size =>
      elements.length = n ∧
      NbtTree.AllElements (NbtTree.NodeFits limits limits.maxCompoundEntries.toNat) (depth + 1) elements ∧
      NbtTree.totalElements (fun _ => 1) elements ≤ tags ∧
      NbtTree.totalElements (NbtTree.nodeCost layout) elements ≤ cost ∧
      NbtTree.totalElements NbtTree.nodeSize elements ≤ size := by
  induction n with
  | zero => exact yields_pure ⟨rfl, trivial, Nat.le_refl 0, Nat.le_refl 0, Nat.le_refl 0⟩
  | succ n ih =>
    refine (hchild type).bind fun e => ?_
    refine ih.bind fun rest => ?_
    refine yields_pure ?_
    intro tags cost size hrest tags' cost' size' he
    obtain ⟨hlen, hfits, htags, hcost, hsize⟩ := hrest
    obtain ⟨hfits', htags', hcost', hsize'⟩ := he
    unfold NbtTree.tags at htags'
    unfold NbtTree.cost at hcost'
    unfold NbtTree.size at hsize'
    refine ⟨congrArg Nat.succ hlen, ⟨hfits', hfits⟩, ?_, ?_, ?_⟩
    · rw [NbtTree.totalElements]
      omega
    · rw [NbtTree.totalElements]
      omega
    · rw [NbtTree.totalElements]
      omega

theorem yields_list :
    Yields limits (decodeListWith limits layout decodePayload depth) fun t tags cost size =>
      depth ≤ limits.maxDepth.toNat → Within limits layout depth t (1 + tags) cost size := by
  refine (yields_typeId _).bind fun id => ?_
  refine (yields_read ((consumes_readNat 4 "i32").map fun n => Int32.ofBitVec (.ofNat 32 n))).bind
    fun signedLength => ?_
  split
  · refine yields_pure ?_
    intro _ _ _ hlength _ _ _ hid hdepth
    refine ⟨⟨⟨hdepth, rfl, Nat.zero_le _⟩, trivial⟩, ?_, ?_, ?_⟩
    · change 1 + 0 ≤ _
      omega
    · change 0 * layout.tagBytes + 0 ≤ _
      omega
    · change 5 + 0 ≤ _
      omega
  refine yields_limit.bind fun _ => ?_
  split
  · exact yields_fail
  split
  · exact yields_fail
  rename_i type htype hend
  refine Yields.check fun allocation hallocation => ?_
  obtain ⟨_, rfl⟩ := checkedCollectionBytes_eq_ok.mp hallocation
  refine (yields_charge _).bind fun _ => ?_
  refine Yields.check fun childDepth hnext => ?_
  obtain ⟨_, rfl⟩ := nextDepth_eq_ok.mp hnext
  refine (yields_elements hchild type _).bind fun elements => ?_
  refine Yields.check fun _ hvalid => ?_
  refine yields_pure ?_
  intro _ _ _ helements _ _ _ hcharge _ _ _ hlimit _ _ _ hlength _ _ _ hid hdepth
  obtain ⟨hlen, hfits, htags, hcost, hsize⟩ := helements
  have hmax := signedLength.toInt_lt
  have hi32 : elements.length ≤ i32Max := by
    unfold i32Max
    omega
  refine ⟨⟨⟨hdepth, hvalid, ?_⟩, hfits⟩, ?_, ?_, ?_⟩
  · exact Nat.le_min.mpr ⟨by omega, hi32⟩
  · change 1 + _ ≤ _
    omega
  · change elements.length * layout.tagBytes + _ ≤ _
    rw [hlen]
    omega
  · change 5 + _ ≤ _
    omega

theorem yields_entries (left : Nat) : ∀ {wireEntries : Nat} {compound : List (NbtString × NbtTree)},
    wireEntries + left = limits.maxCompoundEntries.toNat → compound.length ≤ wireEntries →
    Yields limits (decodeEntries limits layout decodePayload depth left wireEntries compound)
      fun entries tags cost size => entries.length ≤ limits.maxCompoundEntries.toNat ∧
        (∀ e ∈ entries, e ∈ compound ∨ encodedLen e.1 ≤ limits.maxStringEncodedBytes ∧
          e.2.Fits limits limits.maxCompoundEntries.toNat (depth + 1)) ∧
        (entries.map fun e => e.2.tags).sum ≤ (compound.map fun e => e.2.tags).sum + tags ∧
        (entries.map (childCost layout)).sum ≤ (compound.map (childCost layout)).sum + cost ∧
        (entries.map childSize).sum + 1 ≤ (compound.map childSize).sum + size := by
  induction left with
  | zero =>
    intro wireEntries compound hleft hlength
    refine (yields_nextEntry wireEntries).bind fun next => ?_
    cases next with
    | none =>
      refine yields_pure ?_
      intro _ _ _ hnext
      exact ⟨by omega, fun e he => Or.inl he, by omega, by omega, by omega⟩
    | some type =>
      intro s a s' hok
      cases hok
  | succ left ih =>
    intro wireEntries compound hleft hlength
    refine (yields_nextEntry wireEntries).bind fun next => ?_
    cases next with
    | none =>
      refine yields_pure ?_
      intro _ _ _ hnext
      exact ⟨by omega, fun e he => Or.inl he, by omega, by omega, by omega⟩
    | some type =>
      refine (yields_charge _).bind fun _ => ?_
      refine yields_string.bind fun name => ?_
      refine Yields.check fun childDepth hnext => ?_
      obtain ⟨_, rfl⟩ := nextDepth_eq_ok.mp hnext
      refine (hchild type).bind fun value => ?_
      have hinsert := Entries.length_insert_le name value compound
      have htags : ((Entries.insert name value compound).map fun e => e.2.tags).sum ≤
          (compound.map fun e => e.2.tags).sum + value.tags := Entries.sum_insert_le _ _ _ _
      have hcost : ((Entries.insert name value compound).map (childCost layout)).sum ≤
          (compound.map (childCost layout)).sum +
            (layout.compoundEntryBudget + encodedLen name * 2 + value.cost layout) :=
        Entries.sum_insert_le _ _ _ _
      have hsize : ((Entries.insert name value compound).map childSize).sum ≤
          (compound.map childSize).sum + (3 + encodedLen name + value.size) :=
        Entries.sum_insert_le _ _ _ _
      refine (ih (by omega) (by omega)).mono ?_
      intro entries _ _ _ hentries _ _ _ hvalue _ _ _ hname _ _ _ hcharge _ _ _ hid
      obtain ⟨hlen, hmem, htags', hcost', hsize'⟩ := hentries
      obtain ⟨hfits, htags'', hcost'', hsize''⟩ := hvalue
      refine ⟨hlen, ?_, ?_, ?_, ?_⟩
      · intro e he
        rcases hmem e he with h | h
        · rcases Entries.mem_insert h with rfl | h
          · exact Or.inr ⟨hname.1, hfits⟩
          · exact Or.inl h
        · exact Or.inr h
      · omega
      · omega
      · omega

theorem yields_compound :
    Yields limits (decodeCompoundWith limits layout decodePayload depth)
      fun entries tags cost size => depth ≤ limits.maxDepth.toNat →
        Within limits layout depth (.compound entries) (1 + tags) cost size := by
  refine (yields_entries hchild _ (Nat.zero_add _) (Nat.le_of_eq List.length_nil)).mono ?_
  intro entries tags cost size h hdepth
  obtain ⟨hlen, hmem, htags, hcost, hsize⟩ := h
  have hin : ∀ e ∈ entries, encodedLen e.1 ≤ limits.maxStringEncodedBytes ∧
      e.2.Fits limits limits.maxCompoundEntries.toNat (depth + 1) :=
    fun e he => (hmem e he).resolve_left List.not_mem_nil
  have hcostSum : (entries.map (childCost layout)).sum =
      (entries.map (NbtTree.entryCost layout)).sum +
        NbtTree.totalEntries (NbtTree.nodeCost layout) entries := by
    rw [NbtTree.totalEntries_eq]
    exact List.sum_map_add
  have hsizeSum : (entries.map childSize).sum =
      (entries.map NbtTree.entrySize).sum + NbtTree.totalEntries NbtTree.nodeSize entries := by
    rw [NbtTree.totalEntries_eq]
    exact List.sum_map_add
  refine ⟨⟨⟨hdepth, hlen, fun e he => (hin e he).1⟩,
    NbtTree.allEntries_iff.mpr fun e he => (hin e he).2⟩, ?_, ?_, ?_⟩
  · change 1 + NbtTree.totalEntries _ entries ≤ _
    rw [NbtTree.totalEntries_eq]
    rw [List.map_nil, List.sum_nil, Nat.zero_add] at htags
    exact Nat.add_le_add_left htags 1
  · change (entries.map (NbtTree.entryCost layout)).sum + NbtTree.totalEntries _ entries ≤ _
    rw [← hcostSum]
    exact (Nat.zero_add cost).subst hcost
  · change (entries.map NbtTree.entrySize).sum + 1 + NbtTree.totalEntries _ entries ≤ _
    rw [List.map_nil, List.sum_nil] at hsize
    omega

end Children

theorem yields_scalar {m : ReaderM α} {n depth : Nat} {g : α → NbtTree} (h : Consumes m n fun _ => True)
    (hg : depth ≤ limits.maxDepth.toNat → ∀ a, Within limits layout depth (g a) 1 0 n) :
    Yields limits (read m >>= fun a => pure (g a)) fun t tags cost size =>
      depth ≤ limits.maxDepth.toNat → Within limits layout depth t (1 + tags) cost size := by
  refine (yields_read h).bind fun a => ?_
  refine yields_pure ?_
  intro tags cost size hread hdepth
  obtain ⟨rfl, rfl, rfl, _⟩ := hread
  exact hg hdepth a

/-- What is decoded fits, within what was spent. -/
theorem yields_payload (fuel : Nat) : ∀ (type : NbtTagType) (depth : Nat),
    Yields limits (decodePayloadUpTo limits layout fuel type depth) (Within limits layout depth) := by
  induction fuel with
  | zero =>
    intro type depth
    refine yields_addTag.bind fun _ => ?_
    intro s a s' hok
    cases hok
  | succ fuel ih =>
    intro type depth
    refine yields_addTag.bind fun _ => ?_
    refine Yields.mono (Q := fun t tags cost size => depth ≤ limits.maxDepth.toNat →
      Within limits layout depth t (1 + tags) cost size) ?_ ?_
    · cases type with
      | tagEnd => exact yields_fail
      | byte =>
        exact yields_scalar ((consumes_readByte "i8").map UInt8.toInt8) fun hdepth v =>
          ⟨⟨hdepth, trivial⟩, Nat.le_refl 1, Nat.le_refl 0, Nat.le_refl 1⟩
      | short =>
        exact yields_scalar ((consumes_readNat 2 "i16").map _) fun hdepth v =>
          ⟨⟨hdepth, trivial⟩, Nat.le_refl 1, Nat.le_refl 0, Nat.le_refl 2⟩
      | int =>
        exact yields_scalar ((consumes_readNat 4 "i32").map _) fun hdepth v =>
          ⟨⟨hdepth, trivial⟩, Nat.le_refl 1, Nat.le_refl 0, Nat.le_refl 4⟩
      | long =>
        exact yields_scalar ((consumes_readNat 8 "i64").map _) fun hdepth v =>
          ⟨⟨hdepth, trivial⟩, Nat.le_refl 1, Nat.le_refl 0, Nat.le_refl 8⟩
      | float =>
        exact yields_scalar ((consumes_readNat 4 "u32").map _) fun hdepth v =>
          ⟨⟨hdepth, trivial⟩, Nat.le_refl 1, Nat.le_refl 0, Nat.le_refl 4⟩
      | double =>
        exact yields_scalar ((consumes_readNat 8 "u64").map _) fun hdepth v =>
          ⟨⟨hdepth, trivial⟩, Nat.le_refl 1, Nat.le_refl 0, Nat.le_refl 8⟩
      | byteArray => exact yields_byteArray.mono fun t _ _ _ h => h depth
      | string =>
        refine yields_string.bind fun s => ?_
        refine yields_pure ?_
        intro tags cost size h hdepth
        exact ⟨⟨hdepth, h.1⟩, Nat.le_add_right 1 _, h.2.1, h.2.2⟩
      | list => exact yields_list fun type => ih type (depth + 1)
      | compound =>
        refine (yields_compound fun type => ih type (depth + 1)).bind fun entries => ?_
        refine yields_pure ?_
        intro tags cost size h hdepth
        exact h hdepth
      | intArray => exact yields_intArray.mono fun t _ _ _ h => h depth
      | longArray => exact yields_longArray.mono fun t _ _ _ h => h depth
    · intro t tags cost size hwithin tags' cost' size' hadd
      obtain ⟨rfl, rfl, rfl, hdepth⟩ := hadd
      rw [Nat.zero_add, Nat.zero_add]
      exact hwithin hdepth

/-! ### Entry points -/

theorem yields_certify {P : α → Prop} {h : ∀ s a s', m s = .ok a s' → P a} (hm : Yields limits m Q) :
    Yields limits (Mut.certify P m h) fun a => Q a.val :=
  fun s a s' hok => hm s a.val s' (Mut.certify_eq_ok.mp hok)

theorem yields_compoundRoot :
    Yields limits requireCompoundRoot fun _ tags cost size => tags = 0 ∧ cost = 0 ∧ size = 1 := by
  refine (yields_typeId _).bind fun id => ?_
  split
  · exact yields_fail
  split
  · exact yields_fail
  · exact yields_pure fun _ _ _ h => h

theorem yields_rootCompound :
    Yields limits (decodeRootCompound limits layout) fun compound tags cost size =>
      Within limits layout 0 (.compound compound.val) (1 + tags) cost size :=
  (yields_certify (yields_compound fun type => yields_payload _ type 1)).mono
    fun _ _ _ _ h => h (Nat.zero_le _)

theorem yields_unnamedNetworkRoot :
    Yields limits (decodeUnnamedNetworkRoot limits layout) fun root tags cost size =>
      ∃ body, size = 1 + body ∧ Within limits layout 0 (.compound root.val) tags cost body := by
  refine yields_compoundRoot.bind fun _ => ?_
  refine yields_addTag.bind fun _ => ?_
  refine yields_rootCompound.mono ?_
  intro root tags cost size hroot _ _ _ hadd _ _ _ hid
  obtain ⟨rfl, rfl, rfl, _⟩ := hadd
  obtain ⟨rfl, rfl, rfl⟩ := hid
  refine ⟨size, by omega, ?_⟩
  rw [Nat.zero_add, Nat.zero_add, Nat.zero_add]
  exact hroot

theorem yields_namedRoot :
    Yields limits (decodeNamedRoot limits layout) fun root tags cost size =>
      encodedLen root.name ≤ limits.maxStringEncodedBytes ∧
      ∃ spent body, encodedLen root.name * 2 + spent ≤ cost ∧ 3 + encodedLen root.name + body ≤ size ∧
        Within limits layout 0 (.compound root.compound.val) tags spent body := by
  refine yields_compoundRoot.bind fun _ => ?_
  refine yields_addTag.bind fun _ => ?_
  refine yields_string.bind fun name => ?_
  refine yields_rootCompound.bind fun compound => ?_
  refine yields_pure ?_
  intro tags cost size hroot nameTags _ _ hname _ _ _ hadd _ _ _ hid
  have htags := hroot.2.1
  refine ⟨hname.1, cost, size, ?_, ?_, hroot.1, ?_, hroot.2.2⟩
  · change encodedLen name * 2 + cost ≤ _
    omega
  · change 3 + encodedLen name + size ≤ _
    omega
  · change (NbtTree.compound compound.val).tags ≤ _
    omega

theorem yields_unnamedNetworkTag :
    Yields limits (decodeUnnamedNetworkTag limits layout) fun tag tags cost size =>
      ∃ body, size = 1 + body ∧ Within limits layout 0 tag.val tags cost body := by
  refine (yields_typeId _).bind fun id => ?_
  split
  · exact yields_fail
  split
  · exact yields_fail
  rename_i type htype
  refine (yields_certify (yields_payload _ type 0)).mono ?_
  intro tag tags cost size h _ _ _ hid
  obtain ⟨rfl, rfl, rfl⟩ := hid
  refine ⟨size, rfl, ?_⟩
  rw [Nat.zero_add, Nat.zero_add]
  exact h

/-- A run from a fresh context. -/
theorem Yields.run (h : Yields limits m Q) {before input : Bytes} {a : α} {s : DecodeContext}
    (hok : m (.new ⟨before, input⟩) = .ok a s) (hzero : s.rawZero = false) :
    ∃ tags cost size, Q a tags cost size ∧ before.length + size ≤ s.reader.position ∧
      ∀ tags' cost', tags' ≤ tags → cost' ≤ cost → (⟨tags', cost'⟩ : Budget).Bounded limits := by
  obtain ⟨tags, cost, size, hspent, hQ⟩ := h _ a s hok hzero
  refine ⟨tags, cost, size, hQ, hspent.size, ?_⟩
  intro tags' cost' htags hcost
  have hbound := hspent.bounded ⟨Nat.zero_le _, Nat.zero_le _⟩
  have hspentTags : 0 + tags ≤ s.budget.totalTags := hspent.tags
  have hspentCost : 0 + cost ≤ s.budget.bytes := hspent.cost
  constructor
  · have hmax := hbound.1
    change tags' ≤ _
    omega
  · have hmax := hbound.2
    change cost' ≤ _
    omega

theorem NbtTree.Fits.encodable {t : NbtTree} (h : t.Fits limits limits.maxCompoundEntries.toNat 0)
    (hentries : t.EntriesAtMost i32Max) : t.Fits limits limits.encodableEntries 0 := by
  refine NbtTree.all_imp₂ (fun depth t hfits hmax => ?_) t h hentries
  refine ⟨hfits.1, ?_⟩
  cases t with
  | compound => exact ⟨Nat.le_min.mpr ⟨hfits.2.1, hmax⟩, hfits.2.2⟩
  | _ => exact hfits.2

/-- The condition on the compounds is met under every limit that the encoder can serve. -/
theorem NbtTree.Fits.entriesAtMost {n : Nat} {t : NbtTree} (h : t.Fits limits n 0) (hn : n ≤ i32Max) :
    t.EntriesAtMost i32Max := by
  refine NbtTree.all_imp₂ (fun depth t hfits _ => ?_) t h h
  cases t with
  | compound => exact Nat.le_trans hfits.2.1 hn
  | _ => exact trivial

end Limits

/-- What `decode` returns without reading a raw zero, with `small` compounds, is written by
`encode` in at most as many bytes, which decode to it again. -/
def Recodes {α : Type} (decode : NbtM α) (encode : α → Outcome NbtError Budget Bytes)
    (decodeComplete : Bytes → Outcome NbtError DecodeContext α) (small : α → Prop) : Prop :=
  ∀ before input v s, decode (.new ⟨before, input⟩) = .ok v s → s.rawZero = false → small v →
    ∃ bytes b, encode v = .ok bytes b ∧ before.length + bytes.length ≤ s.reader.position ∧
      (decodeComplete bytes).result? = some (.ok v)

theorem nbt_recodes (limits : NbtLimits) (layout : NbtLayout) :
    Recodes (decodeNamedRoot limits layout) (encodeNamedRoot limits layout)
        (decodeNamedRootComplete limits layout)
        (fun root => (NbtTree.compound root.compound.val).EntriesAtMost i32Max) ∧
      Recodes (decodeUnnamedNetworkRoot limits layout) (encodeUnnamedNetworkRoot limits layout)
        (decodeUnnamedNetworkRootComplete limits layout)
        (fun root => (NbtTree.compound root.val).EntriesAtMost i32Max) ∧
      Recodes (decodeUnnamedNetworkTag limits layout) (encodeUnnamedNetworkTag limits layout)
        (decodeUnnamedNetworkTagComplete limits layout)
        (fun tag => tag.val.EntriesAtMost i32Max) := by
  refine ⟨?_, ?_, ?_⟩
  · intro before input root s hok hzero hsmall
    obtain ⟨tags, cost, size, ⟨hname, spent, body, hspent, hbody, hfits, htags, hcost, hsize⟩, hread,
      hbound⟩ := yields_namedRoot.run hok hzero
    have hbudget := hbound _ (encodedLen root.name * 2 +
      (NbtTree.compound root.compound.val).cost layout) htags (by omega)
    refine ⟨_, _, encodeNamedRoot_eq_ok.mpr ⟨⟨hname, hfits.encodable hsmall⟩, hbudget, rfl, rfl⟩, ?_,
      (takes_namedRoot hname hfits).complete hbudget⟩
    rw [List.length_append, List.length_append, length_wireString, NbtTree.length_wire, writeU8,
      List.length_singleton]
    omega
  · intro before input root s hok hzero hsmall
    obtain ⟨tags, cost, size, ⟨body, hbody, hfits, htags, hcost, hsize⟩, hread, hbound⟩ :=
      yields_unnamedNetworkRoot.run hok hzero
    have hbudget := hbound _ _ htags hcost
    refine ⟨_, _, encodeUnnamedNetworkRoot_eq_ok.mpr ⟨hfits.encodable hsmall, hbudget, rfl, rfl⟩, ?_,
      (takes_unnamedNetworkRoot hfits).complete hbudget⟩
    rw [List.length_append, NbtTree.length_wire, writeU8, List.length_singleton]
    omega
  · intro before input tag s hok hzero hsmall
    obtain ⟨tags, cost, size, ⟨body, hbody, hfits, htags, hcost, hsize⟩, hread, hbound⟩ :=
      yields_unnamedNetworkTag.run hok hzero
    have hbudget := hbound _ _ htags hcost
    refine ⟨_, _, encodeUnnamedNetworkTag_eq_ok.mpr ⟨hfits.encodable hsmall, hbudget, rfl, rfl⟩, ?_,
      (takes_unnamedNetworkTag hfits).complete hbudget⟩
    rw [List.length_append, NbtTree.length_wire, writeU8, List.length_singleton]
    omega

/-- A negative length, an overlong form of a name and the name again. -/
def sloppyInput : Bytes :=
  [10, 9, 0, 1, 0x61, 77, 0xff, 0xff, 0xff, 0xff, 1, 0, 2, 0xc1, 0x81, 5, 1, 0, 1, 0x41, 6, 0]

theorem nbt_recodes_sloppy : ∃ v s bytes b,
    decodeUnnamedNetworkRoot .default ⟨24, 32⟩ (.new ⟨[], sloppyInput⟩) = .ok v s ∧
      encodeUnnamedNetworkRoot .default ⟨24, 32⟩ v = .ok bytes b ∧
      0 + bytes.length ≤ s.reader.position ∧
      (decodeUnnamedNetworkRootComplete .default ⟨24, 32⟩ bytes).result? = some (.ok v) := by
  have hrun : (decodeUnnamedNetworkRoot .default ⟨24, 32⟩ (.new ⟨[], sloppyInput⟩)).value?.isSome ∧
      (decodeUnnamedNetworkRoot .default ⟨24, 32⟩ (.new ⟨[], sloppyInput⟩)).state?.map
        DecodeContext.rawZero = some false := by decide +kernel
  cases hok : decodeUnnamedNetworkRoot .default ⟨24, 32⟩ (.new ⟨[], sloppyInput⟩) with
  | ok v s =>
    rw [hok] at hrun
    have hzero : s.rawZero = false := Option.some.inj hrun.2
    obtain ⟨_, _, _, ⟨_, _, hfits, _⟩, _⟩ := yields_unnamedNetworkRoot.run hok hzero
    obtain ⟨bytes, b, hencode, hlen, hdecode⟩ := (nbt_recodes .default ⟨24, 32⟩).2.1 [] sloppyInput v s
      hok hzero (hfits.entriesAtMost (by decide))
    exact ⟨v, s, bytes, b, rfl, hencode, hlen, hdecode⟩
  | err e s =>
    rw [hok] at hrun
    cases hrun.1
  | panic =>
    rw [hok] at hrun
    cases hrun.1

/-! ### Compounds that only the decoder serves -/

/-- Limits that ask nothing beyond what the machine does. -/
def NbtLimits.unlimited : NbtLimits := ⟨-1, -1, -1, -1, -1, -1, -1⟩

/-- The names of two units ascend with the number they stand for. -/
def nameOf (i : Nat) : NbtString := [.ofNat (i / 65536), .ofNat (i % 65536)]

def crowd (n : Nat) : List (NbtString × NbtTree) := (List.range n).map fun i => (nameOf i, .byte 0)

theorem nameOf_lt {i j : Nat} (hij : i < j) (hj : j < 2 ^ 32) : nameOf i < nameOf j := by
  have hnat (k : Nat) (hk : k < 65536) : (UInt16.ofNat k).toNat = k := UInt16.toNat_ofNat_of_lt' hk
  have hlow : i / 65536 = j / 65536 → UInt16.ofNat (i % 65536) < .ofNat (j % 65536) := by
    intro hhigh
    rw [UInt16.lt_iff_toNat_lt, hnat _ (by omega), hnat _ (by omega)]
    omega
  have hhigh : i / 65536 ≠ j / 65536 → UInt16.ofNat (i / 65536) < .ofNat (j / 65536) := by
    intro hne
    rw [UInt16.lt_iff_toNat_lt, hnat _ (by omega), hnat _ (by omega)]
    omega
  rw [nameOf, nameOf, List.cons_lt_cons_iff, List.cons_lt_cons_iff]
  by_cases heq : i / 65536 = j / 65536
  · exact Or.inr ⟨congrArg UInt16.ofNat heq, Or.inl (hlow heq)⟩
  · exact Or.inl (hhigh heq)

theorem crowd_ascending {n : Nat} (hn : n ≤ 2 ^ 32) : Entries.Ascending (crowd n) := by
  refine List.pairwise_map.mpr (List.pairwise_lt_range.imp_of_mem fun _ hj hij => ?_)
  exact nameOf_lt hij (Nat.lt_of_lt_of_le (List.mem_range.mp hj) hn)

theorem encodedLen_nameOf (i : Nat) : encodedLen (nameOf i) ≤ 6 := by
  have hhigh := unitWidth_le (.ofNat (i / 65536))
  have hlow := unitWidth_le (.ofNat (i % 65536))
  rw [nameOf, encodedLen_cons, encodedLen_cons]
  change _ + (_ + 0) ≤ 6
  omega

theorem mem_crowd {n : Nat} {e : NbtString × NbtTree} (h : e ∈ crowd n) :
    encodedLen e.1 ≤ 6 ∧ e.2 = .byte 0 := by
  obtain ⟨i, _, rfl⟩ := List.mem_map.mp h
  exact ⟨encodedLen_nameOf i, rfl⟩

theorem sum_crowd_le {n k : Nat} {f : NbtString × NbtTree → Nat} (h : ∀ e ∈ crowd n, f e ≤ k) :
    ((crowd n).map f).sum ≤ n * k := by
  have hsum := List.sum_le_card_nsmul ((crowd n).map f) k (List.forall_mem_map.mpr h)
  rwa [List.length_map, crowd, List.length_map, List.length_range, nsmul_eq_mul] at hsum

theorem crowd_canonical {n : Nat} (hn : n ≤ 2 ^ 32) : (NbtTree.compound (crowd n)).Canonical := by
  refine ⟨crowd_ascending hn, NbtTree.allEntries_iff.mpr fun e he => ?_⟩
  rw [(mem_crowd he).2]
  trivial

theorem crowd_fits {n : Nat} (hn : n ≤ 2 ^ 32) : (NbtTree.compound (crowd n)).Fits .unlimited
    NbtLimits.unlimited.maxCompoundEntries.toNat 0 := by
  have hmax : NbtLimits.unlimited.maxCompoundEntries.toNat = 2 ^ 64 - 1 := by decide
  have hlen : (crowd n).length = n := by rw [crowd, List.length_map, List.length_range]
  refine ⟨⟨Nat.zero_le _, ?_, fun e he => ?_⟩, NbtTree.allEntries_iff.mpr fun e he => ?_⟩
  · rw [hlen, hmax]
    omega
  · exact Nat.le_trans (mem_crowd he).1 (by decide)
  · rw [(mem_crowd he).2]
    exact ⟨by decide, trivial⟩

theorem crowd_bounded {n : Nat} (hn : n ≤ 2 ^ 32) :
    (⟨(NbtTree.compound (crowd n)).tags, (NbtTree.compound (crowd n)).cost ⟨24, 32⟩⟩ : Budget).Bounded
      .unlimited := by
  have htagsMax : NbtLimits.unlimited.maxTotalTags.toNat = 2 ^ 64 - 1 := by decide
  have hcostMax : NbtLimits.unlimited.maxTotalAllocatedBytes.toNat = 2 ^ 64 - 1 := by decide
  have htags : NbtTree.totalEntries (fun _ => 1) (crowd n) ≤ n * 1 := by
    rw [NbtTree.totalEntries_eq]
    refine sum_crowd_le fun e he => ?_
    rw [(mem_crowd he).2]
    exact Nat.le_refl 1
  have hcost : NbtTree.totalEntries (NbtTree.nodeCost ⟨24, 32⟩) (crowd n) ≤ n * 0 := by
    rw [NbtTree.totalEntries_eq]
    refine sum_crowd_le fun e he => ?_
    rw [(mem_crowd he).2]
    exact Nat.le_refl 0
  have hnames : ((crowd n).map (NbtTree.entryCost ⟨24, 32⟩)).sum ≤ n * 100 := by
    refine sum_crowd_le fun e he => ?_
    have hlen := (mem_crowd he).1
    change 24 + 32 + 4 * 8 + encodedLen e.1 * 2 ≤ 100
    omega
  constructor
  · change 1 + NbtTree.totalEntries _ (crowd n) ≤ _
    omega
  · change ((crowd n).map (NbtTree.entryCost ⟨24, 32⟩)).sum + NbtTree.totalEntries _ (crowd n) ≤ _
    omega

def crowdRoot (n : Nat) (hn : n ≤ 2 ^ 32) : NbtCompound := ⟨crowd n, crowd_canonical hn⟩

theorem crowd_not_recoded {n : Nat} (hn : n ≤ 2 ^ 32) (hmax : i32Max < n) :
    ¬ Recodes (decodeUnnamedNetworkRoot .unlimited ⟨24, 32⟩)
      (encodeUnnamedNetworkRoot .unlimited ⟨24, 32⟩)
      (decodeUnnamedNetworkRootComplete .unlimited ⟨24, 32⟩) (fun _ => True) := by
  intro hrecodes
  have htakes : Takes .unlimited 0 (decodeUnnamedNetworkRoot .unlimited ⟨24, 32⟩) _ (crowdRoot n hn) _
      _ := takes_unnamedNetworkRoot (crowd_fits hn)
  have hdecode := htakes.run (crowd_bounded hn) [] []
  obtain ⟨bytes, b, hencode, _⟩ := hrecodes [] _ (crowdRoot n hn) _ hdecode rfl trivial
  have hfits := (encodeUnnamedNetworkRoot_eq_ok.mp hencode).1
  have hlen : (crowd n).length ≤ i32Max := Nat.le_trans hfits.1.2.1 (Nat.min_le_right _ _)
  rw [crowd, List.length_map, List.length_range] at hlen
  omega

/-- A compound of `2 ^ 31` entries is decoded and cannot be encoded, since the encoder caps
the entries of a compound as it caps the lengths that are written. -/
theorem nbt_recodes_crowd : ¬ Recodes (decodeUnnamedNetworkRoot .unlimited ⟨24, 32⟩)
    (encodeUnnamedNetworkRoot .unlimited ⟨24, 32⟩)
    (decodeUnnamedNetworkRootComplete .unlimited ⟨24, 32⟩) (fun _ => True) :=
  crowd_not_recoded (n := 2 ^ 31) (by decide) (by decide)

end Cubic
