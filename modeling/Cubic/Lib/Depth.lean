import Cubic.Lib.Mut

/-!
# Calls nested to a bounded depth

A recursion that may nest so many calls and panics beyond that. With room for more calls it does
what it did with less, unless it ran out of room.
-/

namespace Cubic

set_option autoImplicit false

namespace Mut
variable {σ ε ε' α β : Type}

/-- Unless `m` panics, `m'` ends as `m` does. -/
def Below (m m' : Mut σ ε α) : Prop := ∀ s, m s = .panic ∨ m' s = m s

variable {m m' m'' : Mut σ ε α}

theorem Below.refl (m : Mut σ ε α) : Below m m := fun _ => Or.inr rfl

theorem Below.trans (h : Below m m') (h' : Below m' m'') : Below m m'' := by
  intro s
  rcases h s with hpanic | heq
  · exact Or.inl hpanic
  · rcases h' s with hpanic | heq'
    · exact Or.inl (heq ▸ hpanic)
    · exact Or.inr (heq'.trans heq)

theorem below_fault : Below (fault : Mut σ ε α) m := fun _ => Or.inl rfl

theorem Below.bind {f f' : α → Mut σ ε β} (h : Below m m') (hf : ∀ a, Below (f a) (f' a)) :
    Below (m >>= f) (m' >>= f') := by
  intro s
  change andThen m f s = .panic ∨ andThen m' f' s = andThen m f s
  unfold andThen
  rcases h s with hpanic | heq
  · rw [hpanic]
    exact Or.inl rfl
  · rw [heq]
    cases m s with
    | ok a t => exact hf a t
    | err e t => exact Or.inr rfl
    | panic => exact Or.inl rfl

/-- What comes first in both calls need not be looked at. -/
theorem below_bind {f f' : α → Mut σ ε β} (hf : ∀ a, Below (f a) (f' a)) :
    Below (m >>= f) (m >>= f') :=
  (Below.refl m).bind hf

theorem Below.attempt (h : Below m m') :
    Below (attempt m : Mut σ ε' (Except ε α)) (attempt m') := by
  intro s
  unfold Mut.attempt
  rcases h s with hpanic | heq
  · rw [hpanic]
    exact Or.inl rfl
  · rw [heq]
    exact Or.inr rfl

section
variable {call : Nat → Mut σ ε α}

theorem below_of_le (hcall : ∀ depth, Below (call depth) (call (depth + 1))) {depth more : Nat}
    (h : depth ≤ more) : Below (call depth) (call more) := by
  induction more, h using Nat.le_induction with
  | base => exact Below.refl _
  | succ more _ ih => exact ih.trans (hcall more)

/-- A call that has room for all its calls ends in the same way with any more room. -/
theorem settled (hcall : ∀ depth, Below (call depth) (call (depth + 1))) {depth : Nat} {s : σ}
    (h : call depth s ≠ .panic) : ∀ more, depth ≤ more → call more s = call depth s :=
  fun _ hmore => (below_of_le hcall hmore s).resolve_left h

end

end Mut

end Cubic
