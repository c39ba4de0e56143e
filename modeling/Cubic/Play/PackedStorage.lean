import Cubic.Play.ChunkTotal

/-!
# Packed storage is unpacked to what was packed

`pack` is the reference of the tests of `chunk.rs`: the low entry of a word first, no entry
across words, zeros where entries are missing.
-/

namespace Cubic

set_option autoImplicit false

/-- The loop of `pack`, from the entry `index` on; the words are those written so far. -/
def packFrom (bits : Nat) : Nat → List UInt16 → List UInt64 → List UInt64
  | _, [], words => words
  | index, value :: rest, words =>
    let shift := index % (64 / bits) * bits
    packFrom bits (index + 1) rest
      (words.modify (index / (64 / bits)) fun word => word ||| value.toUInt64 <<< .ofNat shift)

def pack (values : List UInt16) (bits : UInt8) : List UInt64 :=
  let perWord := 64 / bits.toNat
  packFrom bits.toNat 0 values (List.replicate ((values.length + perWord - 1) / perWord) 0)

/-- The bit of word `j` is one of the bits of an entry from `index` on. -/
def EntryBit (bits index : Nat) (values : List UInt16) (j bit : Nat) : Prop :=
  ∃ i value, values[i]? = some value ∧ (index + i) / (64 / bits) = j ∧
    (index + i) % (64 / bits) * bits ≤ bit ∧
    value.toNat.testBit (bit - (index + i) % (64 / bits) * bits) = true

theorem entryBit_nil {bits index j bit : Nat} : ¬ EntryBit bits index [] j bit := by
  rintro ⟨i, value, hvalue, _⟩
  cases hvalue

theorem entryBit_cons {bits index j bit : Nat} {value : UInt16} {rest : List UInt16} :
    EntryBit bits index (value :: rest) j bit ↔
      (index / (64 / bits) = j ∧ index % (64 / bits) * bits ≤ bit ∧
        value.toNat.testBit (bit - index % (64 / bits) * bits) = true) ∨
      EntryBit bits (index + 1) rest j bit := by
  constructor
  · rintro ⟨i, value', hvalue, hrest⟩
    cases i with
    | zero =>
      cases hvalue
      exact .inl hrest
    | succ i =>
      rw [← Nat.add_assoc, Nat.add_right_comm] at hrest
      exact .inr ⟨i, value', hvalue, hrest⟩
  · rintro (hfirst | ⟨i, value', hvalue, hrest⟩)
    · exact ⟨0, value, rfl, hfirst⟩
    · rw [Nat.add_right_comm, Nat.add_assoc] at hrest
      exact ⟨i + 1, value', hvalue, hrest⟩

theorem length_packFrom {bits : Nat} {values : List UInt16} :
    ∀ {index : Nat} {words : List UInt64},
      (packFrom bits index values words).length = words.length := by
  induction values with
  | nil => exact rfl
  | cons value rest ih =>
    intro index words
    rw [packFrom, ih, List.length_modify]

/-- A shifted entry has its bits from the shift on, as far as the word goes. -/
theorem testBit_shifted {value : UInt16} {shift bit : Nat} (hshift : shift < 64) (hbit : bit < 64) :
    (value.toUInt64 <<< UInt64.ofNat shift).toNat.testBit bit = true ↔
      shift ≤ bit ∧ value.toNat.testBit (bit - shift) = true := by
  rw [UInt64.toNat_shiftLeft, UInt64.toNat_ofNat', Nat.mod_eq_of_lt (by omega : shift < 2 ^ 64),
    Nat.mod_eq_of_lt hshift, Nat.testBit_mod_two_pow, Nat.testBit_shiftLeft, UInt16.toNat_toUInt64]
  simp [hbit]

theorem testBit_packFrom {bits : Nat} (hpos : 0 < bits) (hbits : bits ≤ 64)
    {values : List UInt16} : ∀ {index j bit : Nat} {words : List UInt64} {word : UInt64},
      bit < 64 → (packFrom bits index values words)[j]? = some word →
      ∃ before, words[j]? = some before ∧ (word.toNat.testBit bit = true ↔
        before.toNat.testBit bit = true ∨ EntryBit bits index values j bit) := by
  induction values with
  | nil =>
    intro index j bit words word _ h
    exact ⟨word, h, (or_iff_left entryBit_nil).symm⟩
  | cons value rest ih =>
    intro index j bit words word hbit h
    obtain ⟨before, hbefore, hword⟩ := ih hbit h
    rw [List.getElem?_modify] at hbefore
    obtain ⟨first, hfirst, rfl⟩ := Option.map_eq_some_iff.mp hbefore
    refine ⟨first, hfirst, ?_⟩
    rw [hword, entryBit_cons, ← or_assoc]
    refine or_congr_left ?_
    by_cases hj : index / (64 / bits) = j
    · rw [if_pos hj, UInt64.toNat_or, Nat.testBit_or, Bool.or_eq_true,
        testBit_shifted (shift_lt hpos hbits index) hbit, and_iff_right hj]
    · rw [if_neg hj, or_iff_left fun h => hj h.1]

/-- No other entry of the word reaches the bits of entry `i`. -/
theorem entryBit_iff {bits i b : Nat} {values : List UInt16} {value : UInt16}
    (hvalues : ∀ v ∈ values, v.toNat < 2 ^ bits) (hvalue : values[i]? = some value) (hb : b < bits) :
    EntryBit bits 0 values (i / (64 / bits)) (i % (64 / bits) * bits + b) ↔
      value.toNat.testBit b = true := by
  constructor
  · rintro ⟨i', value', hvalue', hj, hle, htest⟩
    rw [Nat.zero_add] at hj hle htest
    have hlt := hvalues value' (List.mem_of_getElem? hvalue')
    have hrange : i % (64 / bits) * bits + b - i' % (64 / bits) * bits < bits := by
      by_contra hge
      have hpow := Nat.pow_le_pow_right (n := 2) (by decide) (Nat.not_lt.mp hge)
      rw [Nat.testBit_lt_two_pow (lt_of_lt_of_le hlt hpow)] at htest
      cases htest
    have hmod : i' % (64 / bits) = i % (64 / bits) := by
      apply le_antisymm
      · refine Nat.le_of_lt_succ (Nat.lt_of_mul_lt_mul_right (a := bits) ?_)
        rw [Nat.succ_mul]
        omega
      · refine Nat.le_of_lt_succ (Nat.lt_of_mul_lt_mul_right (a := bits) ?_)
        rw [Nat.succ_mul]
        omega
    have hindex : i' = i := by
      rw [← Nat.div_add_mod i' (64 / bits), ← Nat.div_add_mod i (64 / bits), hj, hmod]
    subst hindex
    cases hvalue.symm.trans hvalue'
    rwa [Nat.add_sub_cancel_left] at htest
  · intro htest
    refine ⟨i, value, hvalue, ?_, ?_, ?_⟩
    · rw [Nat.zero_add]
    · rw [Nat.zero_add]
      exact Nat.le_add_right _ _
    · rwa [Nat.zero_add, Nat.add_sub_cancel_left]

theorem packedEntry_pack {values : List UInt16} {bits : UInt8} {i : Nat} {value : UInt16}
    (hpos : 0 < bits.toNat) (hbits : bits.toNat ≤ 15)
    (hvalues : ∀ v ∈ values, v.toNat < 2 ^ bits.toNat) (hvalue : values[i]? = some value) :
    packedEntry bits (pack values bits) i = some value.toNat := by
  obtain ⟨hi, _⟩ := List.getElem?_eq_some_iff.mp hvalue
  have hperWord : 0 < 64 / bits.toNat := Nat.div_pos (by omega) hpos
  have hlength : (pack values bits).length =
      (values.length + 64 / bits.toNat - 1) / (64 / bits.toNat) := by
    rw [pack, length_packFrom, List.length_replicate]
  have hword : i / (64 / bits.toNat) < (pack values bits).length := by
    rw [hlength, show values.length + 64 / bits.toNat - 1 = values.length - 1 + 64 / bits.toNat by omega,
      Nat.add_div_right _ hperWord]
    exact Nat.lt_succ_of_le (Nat.div_le_div_right (by omega))
  have hget := List.getElem?_eq_getElem hword
  have hshift := shift_lt hpos (by omega) i
  unfold packedEntry
  rw [hget, Option.map_some]
  refine congrArg some (Nat.eq_of_testBit_eq fun b => Bool.eq_iff_iff.mpr ?_)
  rw [Nat.testBit_mod_two_pow, Nat.testBit_div_two_pow, Bool.and_eq_true, decide_eq_true_iff]
  by_cases hb : b < bits.toNat
  · have hfits : i % (64 / bits.toNat) * bits.toNat + bits.toNat ≤ 64 := by
      have hlt := Nat.mod_lt i hperWord
      calc i % (64 / bits.toNat) * bits.toNat + bits.toNat
          = (i % (64 / bits.toNat) + 1) * bits.toNat := (Nat.succ_mul _ _).symm
        _ ≤ 64 / bits.toNat * bits.toNat := Nat.mul_le_mul_right _ hlt
        _ ≤ 64 := Nat.div_mul_le_self 64 _
    obtain ⟨before, hbefore, htest⟩ := testBit_packFrom hpos (by omega)
      (by omega : b + i % (64 / bits.toNat) * bits.toNat < 64) hget
    have hzero := List.eq_of_mem_replicate (List.mem_of_getElem? hbefore)
    rw [hzero, Nat.add_comm b, or_iff_right (by simp), entryBit_iff hvalues hvalue hb] at htest
    rw [and_iff_right hb, Nat.add_comm b]
    exact htest
  · have hlt := hvalues value (List.mem_of_getElem? hvalue)
    have hpow := Nat.pow_le_pow_right (n := 2) (by decide) (Nat.not_lt.mp hb)
    rw [Nat.testBit_lt_two_pow (lt_of_lt_of_le hlt hpow)]
    exact iff_of_false (fun h => hb h.1) Bool.false_ne_true

namespace Chunk

theorem packedWordCount_of_pos {bits : UInt8} (hpos : 0 < bits.toNat) (hbits : bits.toNat ≤ 15)
    (entries : Nat) : packedWordCount bits entries =
      some ((entries + 64 / bits.toNat - 1) / (64 / bits.toNat)) := by
  have hzero : bits ≠ 0 := by
    rintro rfl
    exact absurd hpos (by decide)
  have hperWord : 0 < 64 / bits.toNat := Nat.div_pos (by omega) hpos
  unfold packedWordCount
  dsimp only
  rw [if_neg hzero, if_pos hperWord.ne']

theorem unpackEntry_pack {values : List UInt16} {bits : UInt8} {i : Nat} {value : UInt16}
    (hpos : 0 < bits.toNat) (hbits : bits.toNat ≤ 15)
    (hvalues : ∀ v ∈ values, v.toNat < 2 ^ bits.toNat) (hvalue : values[i]? = some value) :
    unpackEntry (pack values bits) bits i = some value := by
  have hpacked := packedEntry_pack hpos hbits hvalues hvalue
  cases hentry : unpackEntry (pack values bits) bits i with
  | none =>
    obtain ⟨word, hword, _⟩ := Option.map_eq_some_iff.mp hpacked
    simp only [unpackEntry, hword] at hentry
    cases hentry
  | some entry =>
    have hsame := (unpackEntry_eq_some hpos hbits hentry).symm.trans hpacked
    exact congrArg some (UInt16.toNat_inj.mp (Option.some.inj hsame))

/-- Unpacking inverts packing, and refuses any other number of words. -/
theorem unpackPacked_pack {bits : UInt8} (hpos : 1 ≤ bits.toNat) (hbits : bits.toNat ≤ 15)
    (context : String) (r : CodecReader) :
    (∀ values : List UInt16, (∀ v ∈ values, v.toNat < 2 ^ bits.toNat) →
      unpackPacked (pack values bits) bits values.length context r = .ok values r) ∧
      ∀ (words : List UInt64) (entries : Nat),
        words.length ≠ (entries + 64 / bits.toNat - 1) / (64 / bits.toNat) →
        unpackPacked words bits entries context r = .err (.packedWordCount context
          ((entries + 64 / bits.toNat - 1) / (64 / bits.toNat)) words.length) r := by
  constructor
  · intro values hvalues
    have hlength : (pack values bits).length =
        (values.length + 64 / bits.toNat - 1) / (64 / bits.toNat) := by
      rw [pack, length_packFrom, List.length_replicate]
    have hall : (List.range values.length).mapM (unpackEntry (pack values bits) bits) = some values := by
      refine Mut.mapM_eq_some.mpr (List.forall₂_iff_get.mpr ⟨List.length_range, fun i hi hi' => ?_⟩)
      rw [List.get_eq_getElem, List.getElem_range]
      exact unpackEntry_pack hpos hbits hvalues (List.getElem?_eq_getElem hi')
    unfold unpackPacked
    rw [packedWordCount_of_pos hpos hbits]
    simp only [hlength, ne_eq, not_true_eq_false, if_false, hall]
    rfl
  · intro words entries hlength
    unfold unpackPacked
    rw [packedWordCount_of_pos hpos hbits]
    simp only [if_pos hlength]
    rfl

theorem unpackPacked_pack_five :
    unpackPacked (pack [1, 31, 0, 7, 8, 9, 10, 11, 12, 13, 14, 15, 16] 5) 5 13 "test" (.new []) =
      .ok [1, 31, 0, 7, 8, 9, 10, 11, 12, 13, 14, 15, 16] (.new []) :=
  (unpackPacked_pack (by decide) (by decide) "test" (.new [])).1
    [1, 31, 0, 7, 8, 9, 10, 11, 12, 13, 14, 15, 16] (by simp)

end Chunk

end Cubic
