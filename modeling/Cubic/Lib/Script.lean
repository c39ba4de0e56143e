import Cubic.Lib.Rounds
import Mathlib.Data.List.Basic

/-!
# Computations that read a script

A computation that takes letters off a script succeeds on the words of a grammar, each with the
value that it gives there.
-/

namespace Cubic

set_option autoImplicit false

/-- Words with values. -/
abbrev Grammar (ι α : Type) := List ι → α → Prop

namespace Grammar
variable {ι α β δ : Type}

/-- No letter is read. -/
def unread (P : α → Prop) : Grammar ι α := fun word a => word = [] ∧ P a

/-- A word of the first grammar, and then one of the second. -/
def seq (L : Grammar ι α) (K : α → Grammar ι β) : Grammar ι β :=
  fun word b => ∃ u v a, word = u ++ v ∧ L u a ∧ K a v b

/-- At most so many words, of which the last gives the value. -/
inductive Rounds (L : β → Grammar ι (β ⊕ α)) : Nat → β → Grammar ι α where
  | last {n : Nat} {b : β} {word : List ι} {a : α} :
    L b word (.inr a) → Rounds L (n + 1) b word a
  | next {n : Nat} {b b' : β} {u v : List ι} {a : α} :
    L b u (.inl b') → Rounds L n b' v a → Rounds L (n + 1) b (u ++ v) a

variable {L : β → Grammar ι (β ⊕ α)}

/-- Rounds of one letter each. -/
theorem rounds_letters {f : β → ι → Option β} {Q : β → ι → α → Prop}
    (hnext : ∀ b word b', L b word (.inl b') ↔ ∃ x, word = [x] ∧ f b x = some b')
    (hlast : ∀ b word a, L b word (.inr a) ↔ ∃ x, word = [x] ∧ Q b x a) {n : Nat} {b : β}
    {word : List ι} {a : α} : Rounds L n b word a ↔
      ∃ before x b', word = before ++ [x] ∧ before.length < n ∧
        before.foldlM f b = some b' ∧ Q b' x a := by
  constructor
  · intro h
    induction h with
    | last h =>
      obtain ⟨x, rfl, hx⟩ := (hlast _ _ _).mp h
      exact ⟨[], x, _, rfl, Nat.succ_pos _, rfl, hx⟩
    | next h _ ih =>
      obtain ⟨y, rfl, hy⟩ := (hnext _ _ _).mp h
      obtain ⟨before, x, b', rfl, hlength, hbefore, hx⟩ := ih
      refine ⟨y :: before, x, b', rfl, Nat.succ_lt_succ hlength, ?_, hx⟩
      rw [List.foldlM_cons, hy]
      exact hbefore
  · rintro ⟨before, x, b', rfl, hlength, hbefore, hx⟩
    induction before generalizing n b with
    | nil =>
      cases hbefore
      cases n with
      | zero => cases hlength
      | succ n => exact .last ((hlast _ _ _).mpr ⟨x, rfl, hx⟩)
    | cons y before ih =>
      rw [List.foldlM_cons] at hbefore
      obtain ⟨c, hy, hbefore⟩ := Option.bind_eq_some_iff.mp hbefore
      cases n with
      | zero => cases hlength
      | succ n =>
        exact .next (u := [y]) ((hnext _ _ _).mpr ⟨y, rfl, hy⟩)
          (ih (Nat.lt_of_succ_lt_succ hlength) hbefore)

/-- Rounds of one letter each that can be any of some letters. -/
theorem rounds_passed {P : ι → Prop} {Q : ι → α → Prop}
    (hnext : ∀ b word, (∃ b', L b word (.inl b')) ↔ ∃ x, word = [x] ∧ P x)
    (hlast : ∀ b word a, L b word (.inr a) ↔ ∃ x, word = [x] ∧ Q x a) {n : Nat} {b : β}
    {word : List ι} {a : α} : Rounds L n b word a ↔
      ∃ before x, word = before ++ [x] ∧ before.length < n ∧ (∀ y ∈ before, P y) ∧
        Q x a := by
  constructor
  · intro h
    induction h with
    | last h =>
      obtain ⟨x, rfl, hx⟩ := (hlast _ _ _).mp h
      exact ⟨[], x, rfl, Nat.succ_pos _, nofun, hx⟩
    | next h _ ih =>
      obtain ⟨y, rfl, hy⟩ := (hnext _ _).mp ⟨_, h⟩
      obtain ⟨before, x, rfl, hlength, hbefore, hx⟩ := ih
      exact ⟨y :: before, x, rfl, Nat.succ_lt_succ hlength,
        List.forall_mem_cons.mpr ⟨hy, hbefore⟩, hx⟩
  · rintro ⟨before, x, rfl, hlength, hbefore, hx⟩
    induction before generalizing n b with
    | nil =>
      cases n with
      | zero => cases hlength
      | succ n => exact .last ((hlast _ _ _).mpr ⟨x, rfl, hx⟩)
    | cons y before ih =>
      obtain ⟨hy, hbefore⟩ := List.forall_mem_cons.mp hbefore
      obtain ⟨b', hb'⟩ := (hnext b [y]).mpr ⟨y, rfl, hy⟩
      cases n with
      | zero => cases hlength
      | succ n => exact .next (u := [y]) hb' (ih (Nat.lt_of_succ_lt_succ hlength) hbefore)

/-- Rounds of words that do not depend on the rounds before, and what is gathered from them. -/
theorem rounds_parts {P : Grammar ι δ} {gather : β → δ → β} {Q : β → Grammar ι α}
    (hnext : ∀ b word b', L b word (.inl b') ↔ ∃ d, P word d ∧ b' = gather b d)
    (hlast : ∀ b word a, L b word (.inr a) ↔ Q b word a) {n : Nat} {b : β} {word : List ι} {a : α} :
    Rounds L n b word a ↔ ∃ (parts : List (List ι × δ)) (last : List ι),
      word = parts.flatMap Prod.fst ++ last ∧ parts.length < n ∧
        (∀ part ∈ parts, P part.1 part.2) ∧ Q ((parts.map Prod.snd).foldl gather b) last a := by
  constructor
  · intro h
    induction h with
    | last h => exact ⟨[], _, rfl, Nat.succ_pos _, nofun, (hlast _ _ _).mp h⟩
    | @next _ _ _ u _ _ h _ ih =>
      obtain ⟨d, hd, rfl⟩ := (hnext _ _ _).mp h
      obtain ⟨parts, last, rfl, hlength, hparts, hq⟩ := ih
      refine ⟨(u, d) :: parts, last, ?_, Nat.succ_lt_succ hlength, ?_, hq⟩
      · rw [List.flatMap_cons, List.append_assoc]
      · exact List.forall_mem_cons.mpr ⟨hd, hparts⟩
  · rintro ⟨parts, last, rfl, hlength, hparts, hq⟩
    induction parts generalizing n b with
    | nil =>
      cases n with
      | zero => cases hlength
      | succ n => exact .last ((hlast _ _ _).mpr hq)
    | cons part parts ih =>
      obtain ⟨hpart, hparts⟩ := List.forall_mem_cons.mp hparts
      cases n with
      | zero => cases hlength
      | succ n =>
        rw [List.flatMap_cons, List.append_assoc]
        exact .next ((hnext _ _ _).mpr ⟨part.2, hpart, rfl⟩)
          (ih (Nat.lt_of_succ_lt_succ hlength) hparts hq)

end Grammar

open Grammar

/-- The script in a state, and the mode that the state is in. -/
structure Tape (σ ι κ : Type) where
  script : σ → List ι
  mode : σ → κ

section
variable {σ ε ι κ α β : Type} {tape : Tape σ ι κ}

/-- From mode `k` on, the words of `L` are taken, and no others. -/
structure Recognizes (tape : Tape σ ι κ) (m : Mut σ ε α) (k : κ) (after : α → κ)
    (L : Grammar ι α) : Prop where
  sound : ∀ s a t, tape.mode s = k → m s = .ok a t →
    tape.mode t = after a ∧ ∃ word, tape.script s = word ++ tape.script t ∧ L word a
  complete : ∀ s word rest a, tape.mode s = k → tape.script s = word ++ rest → L word a →
    ∃ t, m s = .ok a t ∧ tape.script t = rest

variable {m : Mut σ ε α} {f : α → Mut σ ε β} {k : κ} {after : α → κ} {after' : β → κ}
  {L L' : Grammar ι α} {K : α → Grammar ι β}

theorem Recognizes.congr (h : Recognizes tape m k after L)
    (hL : ∀ word a, L word a ↔ L' word a) : Recognizes tape m k after L' where
  sound s a t hk hs := by
    obtain ⟨hmode, word, hword, ha⟩ := h.sound s a t hk hs
    exact ⟨hmode, word, hword, (hL word a).mp ha⟩
  complete s word rest a hk hs ha := h.complete s word rest a hk hs ((hL word a).mpr ha)

theorem recognizes_pure (a : α) (h : after a = k) :
    Recognizes tape (pure a : Mut σ ε α) k after (unread (· = a)) where
  sound s b t hk hs := by
    cases hs
    exact ⟨hk.trans h.symm, [], rfl, rfl, rfl⟩
  complete s word rest b hk hs hb := by
    obtain ⟨rfl, rfl⟩ := hb
    exact ⟨s, rfl, hs⟩

/-- A call that reads nothing and always goes through. -/
theorem recognizes_silent {m : Mut σ ε Unit} {k' : κ} (h : ∀ s, tape.mode s = k → ∃ t,
    m s = .ok () t ∧ tape.script t = tape.script s ∧ tape.mode t = k') :
    Recognizes tape m k (fun _ => k') (unread fun _ => True) where
  sound s a t hk hs := by
    obtain ⟨u, hu, hscript, hmode⟩ := h s hk
    cases hs.symm.trans hu
    exact ⟨hmode, [], hscript.symm, rfl, trivial⟩
  complete s word rest a hk hs hword := by
    obtain ⟨u, hu, hscript, hmode⟩ := h s hk
    obtain ⟨rfl, -⟩ := hword
    exact ⟨u, hu, hscript.trans hs⟩

theorem recognizes_never (h : ∀ s a t, m s ≠ .ok a t) :
    Recognizes tape m k after fun _ _ => False where
  sound s a t _ hs := absurd hs (h s a t)
  complete _ _ _ _ _ _ hnone := hnone.elim

theorem Recognizes.bind (hm : Recognizes tape m k after L)
    (hf : ∀ word a, L word a → Recognizes tape (f a) (after a) after' (K a)) :
    Recognizes tape (m >>= f) k after' (L.seq K) where
  sound s b t hk hs := by
    obtain ⟨a, u, hfirst, hsecond⟩ := Mut.bind_eq_ok.mp hs
    obtain ⟨hmode, x, hx, ha⟩ := hm.sound s a u hk hfirst
    obtain ⟨hmode', y, hy, hb⟩ := (hf x a ha).sound u b t hmode hsecond
    refine ⟨hmode', x ++ y, ?_, x, y, a, rfl, ha, hb⟩
    rw [hx, hy, List.append_assoc]
  complete s word rest b hk hs hword := by
    obtain ⟨x, y, a, rfl, ha, hb⟩ := hword
    rw [List.append_assoc] at hs
    obtain ⟨u, hu, hscript⟩ := hm.complete s x (y ++ rest) a hk hs ha
    obtain ⟨t, ht, hrest⟩ := (hf x a ha).complete u y rest b (hm.sound s a u hk hu).1 hscript hb
    exact ⟨t, (Mut.bind_of_ok hu).trans ht, hrest⟩

/-- The first call reads nothing. -/
theorem Recognizes.bind_unread {P : α → Prop} (hm : Recognizes tape m k after (unread P))
    (hf : ∀ a, P a → Recognizes tape (f a) (after a) after' (K a)) :
    Recognizes tape (m >>= f) k after' fun word b => ∃ a, P a ∧ K a word b := by
  refine (hm.bind fun _ a ha => hf a ha.2).congr fun word b => ?_
  constructor
  · rintro ⟨u, v, a, rfl, ⟨rfl, ha⟩, hb⟩
    exact ⟨a, ha, hb⟩
  · rintro ⟨a, ha, hb⟩
    exact ⟨[], word, a, rfl, ⟨rfl, ha⟩, hb⟩

theorem Recognizes.silent {m : Mut σ ε Unit} {f : Unit → Mut σ ε α} {k' : κ}
    (hm : Recognizes tape m k (fun _ => k') (unread fun _ => True))
    (hf : Recognizes tape (f ()) k' after L) : Recognizes tape (m >>= f) k after L :=
  (hm.bind_unread (K := fun _ => L) fun _ _ => hf).congr fun _ _ =>
    ⟨fun h => h.elim fun _ h => h.2, fun h => ⟨(), trivial, h⟩⟩

/-- The mode of the loop is that of its start. -/
theorem recognizes_rounds {turn : β → Mut σ ε (β ⊕ α)} {exhausted : Mut σ ε α}
    {L : β → Grammar ι (β ⊕ α)}
    (hturn : ∀ b, Recognizes tape (turn b) k (Sum.elim (fun _ => k) after) (L b))
    (hexhausted : ∀ s a t, exhausted s ≠ .ok a t) (n : Nat) (b : β) :
    Recognizes tape (rounds turn exhausted n b) k after (Rounds L n b) := by
  induction n generalizing b with
  | zero => exact (recognizes_never hexhausted).congr fun word a => ⟨False.elim, nofun⟩
  | succ n ih =>
    refine ((hturn b).bind
      (K := Sum.elim (Rounds L n) fun c word a => word = [] ∧ a = c) ?_).congr ?_
    · intro _ r _
      cases r with
      | inl b' => exact ih b'
      | inr c => exact recognizes_pure c rfl
    · intro word a
      constructor
      · rintro ⟨u, v, r, rfl, hu, hv⟩
        cases r with
        | inl b' => exact .next hu hv
        | inr c =>
          obtain ⟨rfl, rfl⟩ := hv
          rw [List.append_nil]
          exact .last hu
      · intro h
        cases h with
        | last h => exact ⟨word, [], .inr a, (List.append_nil word).symm, h, rfl, rfl⟩
        | next h hrest => exact ⟨_, _, _, rfl, h, hrest⟩

end

end Cubic
