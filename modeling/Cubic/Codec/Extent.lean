import Cubic.Codec.Writer

/-!
# Readers that find their own end

A reader is local if the bytes it has taken are all that its success rests on: neither what
follows them nor what stood before them matters. Such a reader needs no length in front of
what it reads. The state may hold more than the reader.
-/

namespace Cubic

set_option autoImplicit false

/-- A state with a reader in it. -/
class Cursor (σ : Type) where
  reader : σ → CodecReader
  put : CodecReader → σ → σ
  reader_put : ∀ r s, reader (put r s) = r
  put_put : ∀ r r' s, put r (put r' s) = put r s
  put_reader : ∀ s, put (reader s) s = s

instance : Cursor CodecReader where
  reader r := r
  put r _ := r
  reader_put _ _ := rfl
  put_put _ _ _ := rfl
  put_reader _ := rfl

section
variable {σ ε ε' α β : Type} [Cursor σ]

open Cursor

/-- From `s`, the bytes `xs` are taken, whatever is around them, and the state is `t` then. -/
structure Extent (m : Mut σ ε α) (s : σ) (xs : Bytes) (a : α) (t : σ) : Prop where
  rest : (reader s).rest = xs ++ (reader t).rest
  before : (reader t).before = (reader s).before ++ xs
  anywhere : ∀ before rest, m (put ⟨before, xs ++ rest⟩ s) = .ok a (put ⟨before ++ xs, rest⟩ t)

def Local (m : Mut σ ε α) : Prop := ∀ s a t, m s = .ok a t → ∃ xs, Extent m s xs a t

theorem Extent.reads {m : Mut CodecReader ε α} {s t : CodecReader} {xs : Bytes} {a : α}
    (h : Extent m s xs a t) : Reads m xs a := h.anywhere

theorem Extent.bind {m : Mut σ ε α} {f : α → Mut σ ε β} {s t u : σ} {xs ys : Bytes} {a : α} {b : β}
    (hm : Extent m s xs a t) (hf : Extent (f a) t ys b u) : Extent (m >>= f) s (xs ++ ys) b u where
  rest := by rw [hm.rest, hf.rest, List.append_assoc]
  before := by rw [hf.before, hm.before, List.append_assoc]
  anywhere before rest := by
    rw [List.append_assoc, Mut.bind_of_ok (hm.anywhere before (ys ++ rest)), hf.anywhere,
      List.append_assoc]

variable {m : Mut σ ε α} {f : α → Mut σ ε β}

theorem Local.bind (hm : Local m) (hf : ∀ a, Local (f a)) : Local (m >>= f) := by
  intro s b u h
  obtain ⟨a, t, hfirst, hsecond⟩ := Mut.bind_eq_ok.mp h
  obtain ⟨xs, hxs⟩ := hm s a t hfirst
  obtain ⟨ys, hys⟩ := hf a t b u hsecond
  exact ⟨xs ++ ys, hxs.bind hys⟩

/-- What leaves the reader alone takes nothing. -/
theorem local_of_frame (h : ∀ s a t, m s = .ok a t →
    reader t = reader s ∧ ∀ r, m (put r s) = .ok a (put r t)) : Local m := by
  intro s a t hm
  obtain ⟨hreader, hframe⟩ := h s a t hm
  refine ⟨[], ?_, ?_, ?_⟩
  · rw [hreader, List.nil_append]
  · rw [hreader, List.append_nil]
  · intro before rest
    rw [List.append_nil]
    exact hframe ⟨before, rest⟩

theorem local_pure (a : α) : Local (pure a : Mut σ ε α) := by
  apply local_of_frame
  intro s b t h
  cases h
  exact ⟨rfl, fun r => rfl⟩

theorem local_fail (e : ε) : Local (Mut.fail e : Mut σ ε α) := fun _ _ _ h => nomatch h

theorem local_fault : Local (Mut.fault : Mut σ ε α) := fun _ _ _ h => nomatch h

theorem local_ofExcept (r : Except ε α) : Local (Mut.ofExcept r : Mut σ ε α) := by
  cases r with
  | ok a => exact local_pure a
  | error e => exact local_fail e

theorem local_ite {c : Prop} [Decidable c] {n : Mut σ ε α} (hm : c → Local m) (hn : ¬ c → Local n) :
    Local (if c then m else n) := by
  split
  · rename_i h
    exact hm h
  · rename_i h
    exact hn h

theorem Local.mapErr (hm : Local m) (g : ε → ε') : Local (Mut.mapErr g m) := by
  intro s a t h
  obtain ⟨xs, hxs⟩ := hm s a t (Mut.mapErr_eq_ok.mp h)
  exact ⟨xs, hxs.rest, hxs.before, fun before rest => Mut.mapErr_eq_ok.mpr (hxs.anywhere before rest)⟩

theorem Local.certify {P : α → Prop} {hP : ∀ s a t, m s = .ok a t → P a} (hm : Local m) :
    Local (Mut.certify P m hP) := by
  intro s a t h
  obtain ⟨xs, hxs⟩ := hm s a.val t (Mut.certify_eq_ok.mp h)
  exact ⟨xs, hxs.rest, hxs.before, fun before rest => Mut.certify_eq_ok.mpr (hxs.anywhere before rest)⟩

theorem Local.repeatCall (hm : Local m) (n : Nat) : Local (Mut.repeatCall m n) := by
  induction n with
  | zero => exact local_pure []
  | succ n ih => exact hm.bind fun a => ih.bind fun rest => local_pure (a :: rest)

/-- A reader that is part of a larger state. -/
theorem Local.zoom {m : Mut CodecReader ε α} (hm : Local m) :
    Local (Mut.zoom (reader (σ := σ)) put m) := by
  intro s a t h
  obtain ⟨r, hr, rfl⟩ := Mut.zoom_eq_ok.mp h
  obtain ⟨xs, hxs⟩ := hm (reader s) a r hr
  refine ⟨xs, ?_, ?_, ?_⟩
  · rw [reader_put]
    exact hxs.rest
  · rw [reader_put]
    exact hxs.before
  · intro before rest
    rw [Mut.zoom_eq_ok]
    refine ⟨⟨before ++ xs, rest⟩, ?_, ?_⟩
    · rw [reader_put]
      exact hxs.anywhere before rest
    · rw [put_put, put_put]

/-- The value and the bytes it took: `position` before, `consumed_since` after. -/
def withConsumed (g : CodecError → ε) (m : Mut CodecReader ε α) : Mut CodecReader ε (α × Bytes) := do
  let start ← Mut.get
  let a ← m
  let bytes ← Mut.mapErr g (consumedSince start.position)
  pure (a, bytes)

theorem Reads.withConsumed {g : CodecError → ε} {m : Mut CodecReader ε α} {xs : Bytes} {a : α}
    (h : Reads m xs a) : Reads (withConsumed g m) xs (a, xs) := by
  intro before rest
  have hsince : consumedSince before.length ⟨before ++ xs, rest⟩ = .ok xs ⟨before ++ xs, rest⟩ := by
    rw [consumedSince, Mut.get_bind]
    have hle : before.length ≤ (⟨before ++ xs, rest⟩ : CodecReader).position := by
      simp [CodecReader.position]
    rw [if_pos hle]
    simp [Mut.ret_apply]
  rw [Cubic.withConsumed, Mut.get_bind, Mut.bind_of_ok (h before rest)]
  exact Mut.bind_of_ok (Mut.mapErr_eq_ok.mpr hsince)

theorem Extent.withConsumed {g : CodecError → ε} {m : Mut CodecReader ε α} {s t : CodecReader}
    {xs : Bytes} {a : α} (h : Extent m s xs a t) : Extent (withConsumed g m) s xs (a, xs) t where
  rest := h.rest
  before := h.before
  anywhere := h.reads.withConsumed

/-- The bytes are those that were taken. -/
theorem Local.of_withConsumed {g : CodecError → ε} {m : Mut CodecReader ε α} (hm : Local m)
    {s t : CodecReader} {a : α} {bytes : Bytes} (h : withConsumed g m s = .ok (a, bytes) t) :
    Extent m s bytes a t := by
  have hcall := h
  rw [Cubic.withConsumed, Mut.get_bind] at h
  obtain ⟨a', t', hread, h⟩ := Mut.bind_eq_ok.mp h
  obtain ⟨xs, hxs⟩ := hm s a' t' hread
  have hboth := hxs.withConsumed (g := g) |>.anywhere s.before (Cursor.reader t').rest
  rw [← hxs.rest] at hboth
  change Cubic.withConsumed g m s = _ at hboth
  rw [hcall] at hboth
  obtain ⟨hpair, ht⟩ := Outcome.ok.inj hboth
  obtain ⟨rfl, rfl⟩ := Prod.mk.inj hpair
  have hbefore : t'.before = s.before ++ bytes := hxs.before
  rw [← hbefore] at ht
  rw [ht]
  exact hxs

theorem Local.withConsumed {g : CodecError → ε} {m : Mut CodecReader ε α} (hm : Local m) :
    Local (withConsumed g m) := by
  intro s a t h
  have htakes : Extent m s a.2 a.1 t := hm.of_withConsumed h
  exact ⟨a.2, htakes.withConsumed⟩

end

/-! ### The reader's own calls -/

theorem local_readBytes (n : Nat) (context : String) : Local (readBytes n context) := by
  intro s bytes t h
  rw [readBytes, Mut.get_bind] at h
  by_cases hn : n ≤ s.remaining
  · rw [if_pos hn, Mut.set_bind, Mut.ret_apply] at h
    obtain ⟨rfl, rfl⟩ := Outcome.ok.inj h
    have hlen : (s.rest.take n).length = n := by
      rw [List.length_take]
      exact Nat.min_eq_left hn
    refine ⟨s.rest.take n, (List.take_append_drop n s.rest).symm, rfl, ?_⟩
    have hreads := reads_readBytes (s.rest.take n) context
    rw [hlen] at hreads
    exact hreads
  · rw [if_neg hn] at h
    split at h
    · cases h
    · cases h

theorem local_readByte (context : String) : Local (readByteWithContext context) := by
  refine (local_readBytes 1 context).bind fun bytes => ?_
  cases bytes with
  | nil => exact local_fail _
  | cons byte rest => exact local_pure byte

theorem local_readNat (size : Nat) (context : String) : Local (readNat size context) :=
  (local_readBytes size context).bind fun bytes => local_pure (ofBigEndian bytes)

theorem local_readU8 : Local readU8 := local_readByte "u8"

theorem local_readI8 : Local readI8 := (local_readByte "i8").bind fun byte => local_pure byte.toInt8

theorem local_readI16 : Local readI16 := (local_readNat 2 "i16").bind fun _ => local_pure _

theorem local_readU16 : Local readU16 := (local_readNat 2 "u16").bind fun _ => local_pure _

theorem local_readI32 : Local readI32 := (local_readNat 4 "i32").bind fun _ => local_pure _

theorem local_readU32 : Local readU32 := (local_readNat 4 "u32").bind fun _ => local_pure _

theorem local_readI64 : Local readI64 := (local_readNat 8 "i64").bind fun _ => local_pure _

theorem local_readU64 : Local readU64 := (local_readNat 8 "u64").bind fun _ => local_pure _

theorem local_readF32 : Local readF32 := local_readU32

theorem local_readF64 : Local readF64 := local_readU64

theorem local_readBool : Local readBool := local_readU8.bind fun _ => local_pure _

theorem local_readVarLoop {w : Nat} (context : String) (malformed : CodecError) (left : Nat) :
    ∀ (index : Nat) (acc : BitVec w), Local (readVarLoop context malformed left index acc) := by
  induction left with
  | zero => exact fun _ _ => local_fail malformed
  | succ left ih =>
    intro index acc
    refine (local_readByte context).bind fun byte => ?_
    exact local_ite (fun _ => ih _ _) fun _ => local_pure _

theorem local_readVarInt : Local readVarInt :=
  (local_readVarLoop "VarInt" .malformedVarInt maxVarIntBytes 0 0).bind fun _ => local_pure _

theorem local_readLength (kind : LengthKind) : Local (readLength kind) := by
  refine (local_readVarInt.mapErr _).bind fun value => ?_
  exact local_ite (fun _ => local_fail _) fun _ => local_pure _

theorem local_readString (limits : StringLimits) : Local (readString limits) := by
  refine (local_readLength .string).bind fun length => ?_
  refine local_ite (fun _ => local_fail _) fun _ => ?_
  refine (local_readBytes length "string bytes").bind fun bytes => ?_
  cases fromUtf8 bytes with
  | none => exact local_fail _
  | some value => exact local_ite (fun _ => local_fail _) fun _ => local_pure value

end Cubic
