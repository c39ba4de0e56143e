import Cubic.Codec.Writer

/-!
# Reading back what may go on to the end of the input

A reader that takes all that is left finds its own bytes only where nothing was written after
them. A portion of what was written says whether it is read so, and whether it has no bytes.
-/

namespace Cubic

set_option autoImplicit false

structure Portion where
  toEnd : Bool
  empty : Bool
  deriving DecidableEq

namespace Portion

/-- A portion that is not empty and says itself where it ends. -/
def delimited : Portion := ⟨false, false⟩

/-- After a portion that is read to the end there is nothing. -/
def Ends : List Portion → Bytes → Prop
  | [], _ => True
  | portion :: portions, after =>
    (portion.toEnd → (∀ other ∈ portions, other.empty) ∧ after = []) ∧ Ends portions after

instance Ends.decide : ∀ (portions : List Portion) (after : Bytes), Decidable (Ends portions after)
  | [], _ => isTrue trivial
  | portion :: portions, after =>
    have := Ends.decide portions after
    inferInstanceAs (Decidable ((portion.toEnd → (∀ other ∈ portions, other.empty) ∧ after = []) ∧
      Ends portions after))

theorem ends_append {portions portions' : List Portion} {bytes after : Bytes}
    (hbytes : bytes = [] ↔ ∀ portion ∈ portions', portion.empty) :
    Ends (portions ++ portions') after ↔ Ends portions (bytes ++ after) ∧ Ends portions' after := by
  induction portions with
  | nil => exact (and_iff_right trivial).symm
  | cons portion portions ih =>
    have hafter : ((∀ other ∈ portions ++ portions', other.empty) ∧ after = []) ↔
        (∀ other ∈ portions, other.empty) ∧ bytes ++ after = [] := by
      rw [List.forall_mem_append, List.append_eq_nil_iff, hbytes, and_assoc]
    constructor
    · intro ⟨hpart, hrest⟩
      obtain ⟨hrest, hlast⟩ := ih.mp hrest
      exact ⟨⟨fun htoEnd => hafter.mp (hpart htoEnd), hrest⟩, hlast⟩
    · intro ⟨⟨hpart, hrest⟩, hlast⟩
      exact ⟨fun htoEnd => hafter.mpr (hpart htoEnd), ih.mpr ⟨hrest, hlast⟩⟩

end Portion

/-- The value is read back from its bytes just where its portions end. -/
structure Recovers {ε α : Type} (m : Mut CodecReader ε α) (bytes : Bytes) (a : α)
    (portions : List Portion) : Prop where
  empty : bytes = [] ↔ ∀ portion ∈ portions, portion.empty
  reads : ∀ before after r, m ⟨before, bytes ++ after⟩ = .ok a r ↔
    Portion.Ends portions after ∧ r = ⟨before ++ bytes, after⟩

section
variable {ε α β : Type} {m : Mut CodecReader ε α} {f : α → Mut CodecReader ε β} {xs ys : Bytes}
  {a : α} {b : β} {portions portions' : List Portion}

/-- A reader that finds nothing in nothing has taken a byte. -/
theorem Reads.ne_nil (h : Reads m xs a) (hempty : (m ⟨[], []⟩).value? = none) : xs ≠ [] := by
  rintro rfl
  have hread := h [] []
  rw [List.append_nil] at hread
  rw [hread] at hempty
  cases hempty

theorem Reads.recovers {empty : Bool} (h : Reads m xs a) (hempty : xs = [] ↔ empty) :
    Recovers m xs a [⟨false, empty⟩] where
  empty := by
    rw [List.forall_mem_singleton]
    exact hempty
  reads before after r := by
    rw [h before after]
    constructor
    · intro heq
      cases heq
      exact ⟨⟨nofun, trivial⟩, rfl⟩
    · intro ⟨_, heq⟩
      rw [heq]

theorem Reads.delimited (h : Reads m xs a) (hempty : (m ⟨[], []⟩).value? = none) :
    Recovers m xs a [.delimited] :=
  h.recovers (iff_of_false (h.ne_nil hempty) Bool.false_ne_true)

theorem Reads.nothing (h : Reads m [] a) : Recovers m [] a [] where
  empty := iff_of_true rfl fun _ hmem => absurd hmem List.not_mem_nil
  reads before after r := by
    have hread := h before after
    rw [List.append_nil] at hread ⊢
    rw [hread]
    constructor
    · intro heq
      cases heq
      exact ⟨trivial, rfl⟩
    · intro ⟨_, heq⟩
      rw [heq]

/-- One call after another, where the second tells what the first has returned. -/
theorem Recovers.bind (hm : Recovers m xs a portions) (hf : Recovers (f a) ys b portions')
    (hinj : ∀ a' s r, f a' s = .ok b r → a' = a) : Recovers (m >>= f) (xs ++ ys) b (portions ++ portions') where
  empty := by
    rw [List.append_eq_nil_iff, hm.empty, hf.empty, List.forall_mem_append]
  reads before after r := by
    rw [Portion.ends_append hf.empty, Mut.bind_eq_ok, List.append_assoc]
    constructor
    · intro ⟨a', s, hfirst, hsecond⟩
      obtain rfl := hinj a' s r hsecond
      obtain ⟨hends, rfl⟩ := (hm.reads before (ys ++ after) s).mp hfirst
      obtain ⟨hends', rfl⟩ := (hf.reads (before ++ xs) after r).mp hsecond
      exact ⟨⟨hends, hends'⟩, by rw [List.append_assoc]⟩
    · intro ⟨⟨hends, hends'⟩, hr⟩
      refine ⟨a, ⟨before ++ xs, ys ++ after⟩, (hm.reads _ _ _).mpr ⟨hends, rfl⟩, ?_⟩
      refine (hf.reads _ _ _).mpr ⟨hends', ?_⟩
      rw [hr, List.append_assoc]

theorem Recovers.map {g : α → β} (hm : Recovers m xs a portions) (hg : ∀ a', g a' = g a → a' = a) :
    Recovers (m >>= fun a => pure (g a)) xs (g a) portions := by
  have hinj : ∀ a' (s r : CodecReader), (pure (g a') : Mut CodecReader ε β) s = .ok (g a) r → a' = a := by
    intro a' s r heq
    rw [Mut.ret_apply] at heq
    exact hg a' (Outcome.ok.inj heq).1
  have hback := hm.bind (reads_pure (g a)).nothing hinj
  rwa [List.append_nil, List.append_nil] at hback

theorem recovers_repeat {portionsOf : β → List Portion} {m : Mut CodecReader ε β} {vs : List β}
    {encodings : List Bytes}
    (h : List.Forall₂ (fun v bytes => Recovers m bytes v (portionsOf v)) vs encodings) :
    Recovers (Mut.repeatCall m vs.length) encodings.flatten vs (vs.flatMap portionsOf) := by
  induction h with
  | nil => exact (reads_pure []).nothing
  | cons hv _ ih =>
    rw [List.flatMap_cons, List.flatten_cons]
    refine hv.bind (ih.map fun rest heq => (List.cons.inj heq).2) ?_
    intro v' s r heq
    obtain ⟨rest, t, _, hpure⟩ := Mut.bind_eq_ok.mp heq
    exact (List.cons.inj (Outcome.ok.inj hpure).1).1

end

end Cubic
