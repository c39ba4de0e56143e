import Cubic.Codec.Writer

/-!
# The two readers of a variable-length integer

`decode_partial_var_int` classifies a prefix of the stream, `read_var_int` consumes one; both
follow the same scan of the bytes.
-/

namespace Cubic

set_option autoImplicit false

open VarLength

/-- At the end of the input no byte is read. -/
theorem readByteWithContext_nil (context : String) (before : Bytes) :
    ∃ e r, readByteWithContext context ⟨before, []⟩ = .err e r ∧
      (before.length < usizeMax → e = .unexpectedEnd context 1 0) := by
  have hslice : ¬ 1 ≤ CodecReader.remaining ⟨before, []⟩ := Nat.not_succ_le_zero 0
  by_cases hend : CodecReader.position ⟨before, []⟩ + 1 > usizeMax
  · have hread : readBytes 1 context ⟨before, []⟩ =
        .err (.valueOutOfRange "reader byte length" 1 0 usizeMax) ⟨before, []⟩ := by
      rw [readBytes, Mut.get_bind, if_neg hslice, if_pos hend]
      rfl
    exact ⟨_, _, Mut.bind_of_err hread, fun h => absurd hend (Nat.not_lt.mpr h)⟩
  · have hread : readBytes 1 context ⟨before, []⟩ =
        .err (.unexpectedEnd context 1 0) ⟨before, []⟩ := by
      rw [readBytes, Mut.get_bind, if_neg hslice, if_neg hend]
      rfl
    exact ⟨_, _, Mut.bind_of_err hread, fun _ => rfl⟩

/-- How the reading loop ends on bytes of which a scan says this. -/
def endsAs {w : Nat} (context : String) (malformed : CodecError) (index : Nat) (before rest : Bytes) :
    Scan w → Outcome CodecError CodecReader (BitVec w) → Prop
  | .complete v k, outcome =>
    outcome = .ok v ⟨before ++ rest.take (k - index), rest.drop (k - index)⟩
  | .needMore, outcome => ∃ e r, outcome = .err e r ∧
    (before.length + rest.length < usizeMax → e = .unexpectedEnd context 1 0)
  | .malformed, outcome => ∃ r, outcome = .err malformed r

theorem readVarLoop_scan {w : Nat} {context : String} {malformed : CodecError} {left : Nat} :
    ∀ {index : Nat} {acc : BitVec w} {before rest : Bytes},
      endsAs context malformed index before rest (scan left index acc rest)
        (readVarLoop context malformed left index acc ⟨before, rest⟩) := by
  induction left with
  | zero => exact ⟨_, rfl⟩
  | succ left ih =>
    intro index acc before rest
    cases rest with
    | nil =>
      obtain ⟨e, r, hbyte, he⟩ := readByteWithContext_nil context before
      exact ⟨e, r, Mut.bind_of_err hbyte, he⟩
    | cons byte rest =>
      have hbyte : readByteWithContext context ⟨before, byte :: rest⟩ =
          .ok byte ⟨before ++ [byte], rest⟩ := reads_byte byte context before rest
      rw [readVarLoop, Mut.bind_of_ok hbyte]
      rw [scan_cons]
      split
      · have hnext := @ih (index + 1) (acc ||| payload w byte <<< (index * 7)) (before ++ [byte]) rest
        cases hscan : scan left (index + 1) (acc ||| payload w byte <<< (index * 7)) rest with
        | complete v k =>
          rw [hscan] at hnext
          have hk := (scan_bytes hscan).1
          obtain ⟨j, rfl⟩ : ∃ j, k = index + 1 + j := ⟨k - (index + 1), by omega⟩
          change _ = _
          rw [show index + 1 + j - index = j + 1 by omega]
          refine hnext.trans ?_
          rw [show index + 1 + j - (index + 1) = j by omega]
          simp
        | needMore =>
          rw [hscan] at hnext
          obtain ⟨e, r, herr, he⟩ := hnext
          refine ⟨e, r, herr, fun hlt => he ?_⟩
          rw [List.length_append, List.length_singleton]
          rw [List.length_cons] at hlt
          omega
        | malformed =>
          rw [hscan] at hnext
          exact hnext
      · change _ = _
        rw [Mut.ret_apply, show index + 1 - index = 1 by omega]
        rfl

/-- How `read_var_int` ends on an input of which the partial decoder says this. -/
def readerEndsAs (b : Bytes) : Scan 32 → Prop
  | .complete v k => k ≤ b.length ∧ readVarInt (.new b) = .ok (.ofBitVec v) ⟨b.take k, b.drop k⟩
  | .needMore => ∃ r, readVarInt (.new b) = .err (.unexpectedEnd "VarInt" 1 0) r
  | .malformed => ∃ r, readVarInt (.new b) = .err .malformedVarInt r

theorem readVarInt_scan (b : Bytes) : readerEndsAs b (decodePartialVarInt b) := by
  have hloop : endsAs "VarInt" .malformedVarInt 0 [] b (scan maxVarIntBytes 0 (0 : BitVec 32) b)
      (readVarLoop "VarInt" .malformedVarInt maxVarIntBytes 0 0 ⟨[], b⟩) := readVarLoop_scan
  unfold decodePartialVarInt
  cases hscan : scan maxVarIntBytes 0 (0 : BitVec 32) b with
  | complete v k =>
    rw [hscan] at hloop
    have hk := scan_bytes hscan
    exact ⟨by omega, Mut.bind_of_ok hloop⟩
  | needMore =>
    rw [hscan] at hloop
    obtain ⟨e, r, herr, he⟩ := hloop
    have hlength : b.length < maxVarIntBytes := length_lt_of_needMore hscan
    cases he (by
      rw [List.length_nil, Nat.zero_add]
      exact hlength.trans (by decide))
    exact ⟨r, Mut.bind_of_err herr⟩
  | malformed =>
    rw [hscan] at hloop
    obtain ⟨r, hr⟩ := hloop
    exact ⟨r, Mut.bind_of_err hr⟩

theorem writeVarInt_eq_loop (v : Int32) : writeVarInt v = encodeLoop v.toBitVec :=
  (encodeLoop_eq (lt_of_lt_of_le v.toBitVec.isLt (by decide))).symm

theorem writeVarLong_eq_loop (v : Int64) : writeVarLong v = encodeLoop v.toBitVec :=
  (encodeLoop_eq (lt_of_lt_of_le v.toBitVec.isLt (by decide))).symm

theorem length_writeVarInt_le (v : Int32) : (writeVarInt v).length ≤ 5 :=
  length_encode_le (lt_of_lt_of_le v.toBitVec.isLt (by decide))

theorem length_writeVarLong_le (v : Int64) : (writeVarLong v).length ≤ 10 :=
  length_encode_le (lt_of_lt_of_le v.toBitVec.isLt (by decide))

/-- `m` reads `v` back from what the writing loop wrote for it, and takes nothing else. -/
def ReadsBack {w : Nat} {α : Type} (m : ReaderM α) (v : α) (bits : BitVec w) (most : Nat) : Prop :=
  (encodeLoop bits).length ≤ most ∧ ∀ suffix, ∃ r,
    m (.new (encodeLoop bits ++ suffix)) = .ok v r ∧ r.position = (encodeLoop bits).length ∧
      r.rest = suffix

theorem Reads.readsBack {w : Nat} {α : Type} {m : ReaderM α} {v : α} {bits : BitVec w} {most : Nat}
    {bytes : Bytes} (h : Reads m bytes v) (hbytes : bytes = encodeLoop bits)
    (hlength : bytes.length ≤ most) : ReadsBack m v bits most := by
  subst hbytes
  exact ⟨hlength, fun suffix => ⟨_, h [] suffix, rfl, rfl⟩⟩

/-- The partial decoder and the reader agree on every input, and written integers are read back. -/
theorem varInt_readers_agree :
    (∀ b : Bytes,
      (∀ v k, decodePartialVarInt b = .complete v k ↔
        ∃ r, readVarInt (.new b) = .ok (.ofBitVec v) r ∧ r.position = k) ∧
      (decodePartialVarInt b = .needMore ↔ ∃ context needed remaining r,
        readVarInt (.new b) = .err (.unexpectedEnd context needed remaining) r) ∧
      (decodePartialVarInt b = .malformed ↔
        ∃ r, readVarInt (.new b) = .err .malformedVarInt r)) ∧
      (∀ v : Int32, ReadsBack readVarInt v v.toBitVec 5) ∧
      ∀ v : Int64, ReadsBack readVarLong v v.toBitVec 10 := by
  refine ⟨fun b => ?_, fun v => ?_, fun v => ?_⟩
  · have hscan := readVarInt_scan b
    cases hpart : decodePartialVarInt b with
    | complete v k =>
      rw [hpart] at hscan
      obtain ⟨hk, hread⟩ := hscan
      have hposition : (b.take k).length = k := List.length_take_of_le hk
      refine ⟨fun v' k' => ?_, ?_, ?_⟩
      · constructor
        · intro h
          cases h
          exact ⟨_, hread, hposition⟩
        · rintro ⟨r, hr, rfl⟩
          cases hread.symm.trans hr
          rw [CodecReader.position, hposition]
      · refine iff_of_false (by intro h; cases h) ?_
        rintro ⟨context, needed, remaining, r, hr⟩
        cases hread.symm.trans hr
      · refine iff_of_false (by intro h; cases h) ?_
        rintro ⟨r, hr⟩
        cases hread.symm.trans hr
    | needMore =>
      rw [hpart] at hscan
      obtain ⟨r, hread⟩ := hscan
      refine ⟨fun v k => ?_, iff_of_true rfl ⟨_, _, _, r, hread⟩, ?_⟩
      · refine iff_of_false (by intro h; cases h) ?_
        rintro ⟨r', hr, _⟩
        cases hread.symm.trans hr
      · refine iff_of_false (by intro h; cases h) ?_
        rintro ⟨r', hr⟩
        cases hread.symm.trans hr
    | malformed =>
      rw [hpart] at hscan
      obtain ⟨r, hread⟩ := hscan
      refine ⟨fun v k => ?_, ?_, iff_of_true rfl ⟨r, hread⟩⟩
      · refine iff_of_false (by intro h; cases h) ?_
        rintro ⟨r', hr, _⟩
        cases hread.symm.trans hr
      · refine iff_of_false (by intro h; cases h) ?_
        rintro ⟨context, needed, remaining, r', hr⟩
        cases hread.symm.trans hr
  · exact (reads_varInt v).readsBack (writeVarInt_eq_loop v) (length_writeVarInt_le v)
  · exact (reads_varLong v).readsBack (writeVarLong_eq_loop v) (length_writeVarLong_le v)

end Cubic
