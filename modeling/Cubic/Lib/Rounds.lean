import Cubic.Lib.Mut

/-!
# Loops with a bound on their rounds

The body of `for _ in 0..n` goes on with other values of the loop's variables, or returns.
-/

namespace Cubic

set_option autoImplicit false

section
variable {σ ε α β : Type}

def rounds (turn : β → Mut σ ε (β ⊕ α)) (exhausted : Mut σ ε α) : Nat → β → Mut σ ε α
  | 0, _ => exhausted
  | left + 1, b => do
    match ← turn b with
    | .inl b => rounds turn exhausted left b
    | .inr a => pure a

/-- So many turns in a row that go on. -/
inductive Turns (turn : β → Mut σ ε (β ⊕ α)) : Nat → β → σ → β → σ → Prop where
  | nil (b : β) (s : σ) : Turns turn 0 b s b s
  | cons {n : Nat} {b b' b'' : β} {s s' s'' : σ} :
    turn b s = .ok (.inl b') s' → Turns turn n b' s' b'' s'' → Turns turn (n + 1) b s b'' s''

variable {turn : β → Mut σ ε (β ⊕ α)} {exhausted : Mut σ ε α}

/-- What each turn keeps, and what is known of the turn that returns. -/
theorem wp_rounds {I : β → σ → Prop} {Q : Post ε σ α}
    (hturn : ∀ b s, I b s → Mut.wp (turn b) ⟨fun r t => match r with
      | .inl b => I b t
      | .inr a => Q.ok a t, Q.err, Q.panic⟩ s)
    (hexhausted : ∀ b s, I b s → Mut.wp exhausted Q s) (n : Nat) {b : β} {s : σ} (h : I b s) :
    Mut.wp (rounds turn exhausted n b) Q s := by
  induction n generalizing b s with
  | zero => exact hexhausted b s h
  | succ n ih =>
    refine Mut.wp_seq (hturn b s h) ?_ (fun _ _ => id) id
    intro r t hr
    cases r with
    | inl b => exact ih hr
    | inr a => exact hr

theorem rounds_eq_ok (hexhausted : ∀ s a t, exhausted s ≠ .ok a t) {n : Nat} {b : β} {s t : σ}
    {a : α} : rounds turn exhausted n b s = .ok a t ↔
      ∃ k < n, ∃ b' s', Turns turn k b s b' s' ∧ turn b' s' = .ok (.inr a) t := by
  induction n generalizing b s with
  | zero =>
    refine iff_of_false (hexhausted s a t) ?_
    rintro ⟨k, hk, -⟩
    exact Nat.not_lt_zero k hk
  | succ n ih =>
    rw [rounds, Mut.bind_eq_ok]
    constructor
    · rintro ⟨r, u, hr, h⟩
      cases r with
      | inl b' =>
        obtain ⟨k, hk, c, s', hturns, hlast⟩ := ih.mp h
        exact ⟨k + 1, Nat.succ_lt_succ hk, c, s', .cons hr hturns, hlast⟩
      | inr a' =>
        cases h
        exact ⟨0, Nat.succ_pos n, b, s, .nil b s, hr⟩
    · rintro ⟨k, hk, c, s', hturns, hlast⟩
      cases hturns with
      | nil => exact ⟨.inr a, t, hlast, rfl⟩
      | cons hr hturns =>
        exact ⟨_, _, hr, ih.mpr ⟨_, Nat.lt_of_succ_lt_succ hk, c, s', hturns, hlast⟩⟩

end

end Cubic
