import Cubic.Codec.BitSet
import Cubic.Codec.VarIntAgreement
import Mathlib.Data.List.TakeWhile

/-!
# Reading, writing and querying bit sets
-/

namespace Cubic

set_option autoImplicit false

open VarLength

/-- `is_set` on a list of words; absent words are zero. -/
def wordsIsSet (words : List UInt64) (bit : Nat) : Bool :=
  (words[bit / 64]?).any fun word => word &&& ((1 : UInt64) <<< .ofNat (bit % 64)) ≠ 0

namespace BitSet

def isSet (s : BitSet) (bit : Nat) : Bool := wordsIsSet s.words bit

def encode (s : BitSet) (limits : BitSetLimits) : Except CodecError Bytes := do
  validateWords s.words limits
  let header ← writeLength s.words.length "BitSet word count"
  pure (header ++ s.words.flatMap writeU64)

end BitSet

/-! ### The zero words at the end -/

theorem popZeros_append (words : List UInt64) :
    ∃ n, words = popZeros words ++ List.replicate n 0 := by
  have hsplit : words = popZeros words ++ (words.reverse.takeWhile (· = 0)).reverse := by
    unfold popZeros
    rw [← List.reverse_append, List.takeWhile_append_dropWhile, List.reverse_reverse]
  refine ⟨(words.reverse.takeWhile (· = 0)).length, ?_⟩
  have hzero : words.reverse.takeWhile (· = 0) =
      List.replicate (words.reverse.takeWhile (· = 0)).length 0 := by
    refine List.eq_replicate_of_mem fun word hword => ?_
    have himp := List.mem_takeWhile_imp (p := fun word : UInt64 => decide (word = 0)) hword
    exact of_decide_eq_true himp
  have hreverse := congrArg List.reverse hzero
  rw [List.reverse_replicate] at hreverse
  rwa [hreverse] at hsplit

theorem wordsIsSet_append_zeros (words : List UInt64) (n bit : Nat) :
    wordsIsSet (words ++ List.replicate n 0) bit = wordsIsSet words bit := by
  unfold wordsIsSet
  by_cases hbit : bit / 64 < words.length
  · rw [List.getElem?_append_left hbit]
  · have hle := Nat.not_lt.mp hbit
    rw [List.getElem?_append_right hle, List.getElem?_eq_none hle, List.getElem?_replicate]
    split
    · rw [Option.any_some, Option.any_none, UInt64.zero_and]
      rfl
    · rfl

theorem wordsIsSet_popZeros (words : List UInt64) (bit : Nat) :
    wordsIsSet (popZeros words) bit = wordsIsSet words bit := by
  obtain ⟨n, hwords⟩ := popZeros_append words
  conv_rhs => rw [hwords]
  exact (wordsIsSet_append_zeros _ n bit).symm

theorem highestSetBit_append_zeros (words : List UInt64) (n : Nat) :
    highestSetBit (words ++ List.replicate n 0) = highestSetBit words := by
  unfold highestSetBit
  rw [List.zipIdx_append, List.reverse_append, List.findSome?_append]
  have hzeros : (((List.replicate n (0 : UInt64)).zipIdx (0 + words.length)).reverse.findSome?
      fun entry => if entry.1 = 0 then none
        else (checkedMul entry.2 64).bind fun base => checkedAdd base (Nat.log2 entry.1.toNat)) =
      none := by
    refine List.findSome?_eq_none_iff.mpr fun entry hentry => ?_
    have hmem := List.fst_mem_of_mem_zipIdx (List.mem_reverse.mp hentry)
    rw [if_pos (List.eq_of_mem_replicate hmem)]
  rw [hzeros, Option.none_or]

theorem length_popZeros_le (words : List UInt64) : (popZeros words).length ≤ words.length := by
  obtain ⟨n, hwords⟩ := popZeros_append words
  conv_rhs => rw [hwords, List.length_append]
  exact Nat.le_add_right _ _

theorem popZeros_eq_self {words : List UInt64} (h : words.getLast? ≠ some 0) :
    popZeros words = words := by
  obtain ⟨n, hwords⟩ := popZeros_append words
  cases n with
  | zero => exact (hwords.trans (List.append_nil _)).symm
  | succ n =>
    refine absurd ?_ h
    rw [hwords, List.replicate_succ', ← List.append_assoc, List.getLast?_concat]

theorem validateWords_eq_ok {words : List UInt64} {limits : BitSetLimits} :
    validateWords words limits = .ok () ↔ words.length ≤ limits.maximumEncodedWords ∧
      ∀ bit ∈ highestSetBit words, bit < limits.maxBits := by
  unfold validateWords
  split
  · rename_i hlength
    exact iff_of_false (by intro h; cases h) fun h => absurd h.1 (Nat.not_le.mpr hlength)
  · rename_i hlength
    rw [and_iff_right (Nat.not_lt.mp hlength)]
    cases highestSetBit words with
    | none => simp
    | some bit =>
      dsimp only
      split
      · rename_i hbit
        exact iff_of_false (by intro h; cases h) fun h => absurd (h bit rfl) (Nat.not_lt.mpr hbit)
      · rename_i hbit
        exact iff_of_true rfl fun b hb => Option.some.inj hb ▸ Nat.not_le.mp hbit

/-- A word list that is accepted is accepted without its zeros at the end. -/
theorem validateWords_popZeros {words : List UInt64} {limits : BitSetLimits}
    (h : validateWords words limits = .ok ()) : validateWords (popZeros words) limits = .ok () := by
  obtain ⟨hlength, hbits⟩ := validateWords_eq_ok.mp h
  obtain ⟨n, hwords⟩ := popZeros_append words
  rw [hwords, highestSetBit_append_zeros] at hbits
  exact validateWords_eq_ok.mpr ⟨(length_popZeros_le words).trans hlength, hbits⟩

theorem fromWords_eq_ok {words : List UInt64} {limits : BitSetLimits} {s : BitSet} :
    BitSet.fromWords words limits = .ok s ↔
      validateWords words limits = .ok () ∧ s.words = popZeros words := by
  unfold BitSet.fromWords
  rw [Mut.except_bind_eq_ok]
  constructor
  · rintro ⟨_, hvalid, h⟩
    cases h
    exact ⟨hvalid, rfl⟩
  · rintro ⟨hvalid, hwords⟩
    refine ⟨(), hvalid, ?_⟩
    cases s
    cases hwords
    rfl

/-! ### Reading and writing -/

theorem reads_bitSet {s : BitSet} {limits : BitSetLimits} {bytes : Bytes}
    (h : s.encode limits = .ok bytes) : Reads (readBitSet limits) bytes s := by
  obtain ⟨_, hvalid, h⟩ := Mut.except_bind_eq_ok.mp h
  obtain ⟨header, hheader, h⟩ := Mut.except_bind_eq_ok.mp h
  cases h
  have hlength := (validateWords_eq_ok.mp hvalid).1
  refine (reads_length .bitSet hheader).bind ?_
  rw [if_neg (Nat.not_lt.mpr hlength)]
  refine (reads_repeat s.words fun word _ => reads_u64 word).bindNil (reads_ofExcept ?_)
  exact fromWords_eq_ok.mpr ⟨hvalid, (popZeros_eq_self s.canonical).symm⟩

/-- Whatever `m` takes from its input is the encoding of its value. -/
def Spells {α : Type} (m : ReaderM α) (enc : α → Bytes) : Prop :=
  ∀ r a r', m r = .ok a r' → r.rest = enc a ++ r'.rest ∧ r'.before = r.before ++ enc a

theorem readBytes_eq_ok {n : Nat} {context : String} {r r' : CodecReader} {bytes : Bytes}
    (h : readBytes n context r = .ok bytes r') :
    bytes.length = n ∧ r.rest = bytes ++ r'.rest ∧ r'.before = r.before ++ bytes := by
  rw [readBytes, Mut.get_bind] at h
  split at h
  · rename_i hle
    cases h
    exact ⟨List.length_take_of_le hle, (List.take_append_drop n r.rest).symm, rfl⟩
  · split at h <;> cases h

theorem spells_u64 : Spells readU64 writeU64 := by
  intro r word r' h
  obtain ⟨n, t, hn, h⟩ := Mut.bind_eq_ok.mp h
  cases h
  obtain ⟨bytes, t, hbytes, h⟩ := Mut.bind_eq_ok.mp hn
  cases h
  obtain ⟨hlength, hrest, hbefore⟩ := readBytes_eq_ok hbytes
  have hlt : ofBigEndian bytes < 2 ^ 64 := by
    have h := ofBigEndian_lt bytes
    rw [hlength] at h
    exact h
  have hwrite : writeU64 (.ofNat (ofBigEndian bytes)) = bytes := by
    have hback := toBigEndian_ofBigEndian bytes
    rw [hlength] at hback
    rwa [writeU64, UInt64.toNat_ofNat', Nat.mod_eq_of_lt hlt]
  rw [hwrite]
  exact ⟨hrest, hbefore⟩

theorem Spells.repeatCall {α : Type} {m : ReaderM α} {enc : α → Bytes} (hm : Spells m enc) (n : Nat) :
    Spells (Mut.repeatCall m n) (List.flatMap enc) := by
  induction n with
  | zero =>
    intro r values r' h
    cases h
    exact ⟨rfl, (List.append_nil _).symm⟩
  | succ n ih =>
    intro r values r' h
    obtain ⟨value, t, hvalue, h⟩ := Mut.bind_eq_ok.mp h
    obtain ⟨rest, t', hrest, h⟩ := Mut.bind_eq_ok.mp h
    cases h
    obtain ⟨htake, hbefore⟩ := hm _ _ _ hvalue
    obtain ⟨htake', hbefore'⟩ := ih _ _ _ hrest
    rw [List.flatMap_cons, List.append_assoc]
    refine ⟨htake.trans (congrArg _ htake'), hbefore'.trans ?_⟩
    rw [hbefore, List.append_assoc]

/-- A length that was read is written in at most as many bytes, and so is any shorter one. -/
theorem readLength_eq_ok {kind : LengthKind} {r r' : CodecReader} {length : Nat}
    (h : readLength kind r = .ok length r') : ∃ header, r.rest = header ++ r'.rest ∧
      r'.before = r.before ++ header ∧ ∀ n ≤ length, ∀ context, ∃ bytes,
        writeLength n context = .ok bytes ∧ bytes.length ≤ header.length := by
  obtain ⟨value, t, hvalue, h⟩ := Mut.bind_eq_ok.mp h
  split at h
  · cases h
  rename_i hsign
  cases h
  obtain ⟨bits, t, hbits, h⟩ := Mut.bind_eq_ok.mp (Mut.mapErr_eq_ok.mp hvalue)
  cases h
  have hscan : endsAs "VarInt" .malformedVarInt 0 r.before r.rest
      (scan maxVarIntBytes 0 (0 : BitVec 32) r.rest)
      (readVarLoop "VarInt" .malformedVarInt maxVarIntBytes 0 0 r) := readVarLoop_scan
  rw [hbits] at hscan
  cases hbytes : scan maxVarIntBytes 0 (0 : BitVec 32) r.rest with
  | needMore =>
    rw [hbytes] at hscan
    obtain ⟨_, _, herr, _⟩ := hscan
    cases herr
  | malformed =>
    rw [hbytes] at hscan
    obtain ⟨_, herr⟩ := hscan
    cases herr
  | complete v k =>
    rw [hbytes] at hscan
    have hk := scan_bytes hbytes
    have hvlt := scan_lt (by decide) (Nat.two_pow_pos _) hbytes
    cases hscan
    refine ⟨r.rest.take k, (List.take_append_drop k r.rest).symm, rfl, fun n hn context => ?_⟩
    have hnat : (Int32.ofBitVec bits).toInt.toNat ≤ bits.toNat := by
      have hint : (Int32.ofBitVec bits).toInt = bits.toInt := rfl
      rw [hint, BitVec.toInt_eq_toNat_cond]
      split <;> omega
    have hmax : n ≤ i32Max := by
      have hlt := (Int32.ofBitVec bits).toInt_lt
      unfold i32Max
      omega
    refine ⟨_, if_pos hmax, ?_⟩
    rw [List.length_take_of_le (by omega)]
    obtain ⟨j, rfl⟩ : ∃ j, k = j + 1 := ⟨k - 1, by omega⟩
    refine length_encode_le ?_
    have hofNat : (Int32.ofNat n).toBitVec.toNat ≤ n := Nat.mod_le n _
    rw [Nat.mul_comm]
    omega

/-- What is known of a bit set that was read: its wire words, and its own encoding. -/
structure ReadFrom (limits : BitSetLimits) (r r' : CodecReader) (s : BitSet) : Prop where
  canonical : s.words.getLast? ≠ some 0
  wire : ∃ header words,
    readLength .bitSet r = .ok words.length ⟨r.before ++ header, words.flatMap writeU64 ++ r'.rest⟩ ∧
    r'.before = r.before ++ header ++ words.flatMap writeU64 ∧
    ∀ bit, s.isSet bit = wordsIsSet words bit
  recodes : ∃ bytes, s.encode limits = .ok bytes ∧ r.position + bytes.length ≤ r'.position

theorem length_flatMap_writeU64 (words : List UInt64) :
    (words.flatMap writeU64).length = words.length * 8 := by
  induction words with
  | nil => rfl
  | cons word rest ih =>
    rw [List.flatMap_cons, List.length_append, ih, writeU64, length_toBigEndian, List.length_cons,
      Nat.succ_mul, Nat.add_comm]

theorem readFrom_of_readBitSet {limits : BitSetLimits} {r r' : CodecReader} {s : BitSet}
    (h : readBitSet limits r = .ok s r') : ReadFrom limits r r' s := by
  obtain ⟨count, t, hcount, h⟩ := Mut.bind_eq_ok.mp h
  split at h
  · cases h
  obtain ⟨words, t', hwords, h⟩ := Mut.bind_eq_ok.mp h
  obtain ⟨hs, rfl⟩ := Mut.ofExcept_eq_ok.mp h
  obtain ⟨hvalid, hpop⟩ := fromWords_eq_ok.mp hs
  obtain ⟨header, _, hbefore, hshorter⟩ := readLength_eq_ok hcount
  obtain ⟨hrest, hbefore'⟩ := spells_u64.repeatCall count _ _ _ hwords
  have hlength := Mut.repeatCall_length count hwords
  have hpopLength := length_popZeros_le words
  refine ⟨s.canonical, ⟨header, words, ?_, ?_, fun bit => ?_⟩, ?_⟩
  · rw [hcount, hlength, ← hrest, ← hbefore]
  · rw [hbefore', hbefore]
  · rw [BitSet.isSet, hpop, wordsIsSet_popZeros]
  · obtain ⟨bytes, hbytes, hle⟩ := hshorter s.words.length (by rw [hpop]; omega) "BitSet word count"
    refine ⟨bytes ++ s.words.flatMap writeU64, ?_, ?_⟩
    · rw [BitSet.encode, hpop, validateWords_popZeros hvalid, ← hpop, hbytes]
      rfl
    · have hposition := congrArg List.length hbefore'
      rw [hbefore, List.length_append, List.length_append, length_flatMap_writeU64] at hposition
      rw [List.length_append, length_flatMap_writeU64]
      unfold CodecReader.position
      rw [hpop]
      omega

theorem fromWords_eq_error {words : List UInt64} {limits : BitSetLimits} {e : CodecError} :
    BitSet.fromWords words limits = .error e ↔ validateWords words limits = .error e := by
  unfold BitSet.fromWords
  cases validateWords words limits with
  | error e' =>
    change Except.error e' = Except.error e ↔ Except.error e' = Except.error e
    rw [Except.error.injEq, Except.error.injEq]
  | ok u =>
    refine iff_of_false ?_ ?_
    · intro h
      cases h
    · intro h
      cases h

/-- Construction keeps every bit; what is written is read back; what is read stands for the
words on the wire and is written again in no more bytes. -/
theorem bitSet_codec (limits : BitSetLimits) :
    (∀ words, (∀ e, BitSet.fromWords words limits = .error e ↔ validateWords words limits = .error e) ∧
      ∀ s, BitSet.fromWords words limits = .ok s →
        s.words.getLast? ≠ some 0 ∧ ∀ bit, s.isSet bit = wordsIsSet words bit) ∧
      (∀ s bytes, s.encode limits = .ok bytes → Reads (readBitSet limits) bytes s) ∧
      ∀ r s r', readBitSet limits r = .ok s r' → ReadFrom limits r r' s := by
  refine ⟨fun words => ⟨fun e => fromWords_eq_error, fun s h => ?_⟩, fun s bytes h => reads_bitSet h,
    fun r s r' h => readFrom_of_readBitSet h⟩
  refine ⟨s.canonical, fun bit => ?_⟩
  rw [BitSet.isSet, (fromWords_eq_ok.mp h).2, wordsIsSet_popZeros]

end Cubic
