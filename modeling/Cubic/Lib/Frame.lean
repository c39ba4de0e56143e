import Cubic.Lib.Mut

/-!
# What a call leaves alone

`Steady view R m`: when `m` succeeds the view of the state is as before, and when it
fails `R` relates the states. A call that cannot fail, one that fails only before it has
written, and one that may fail at any point differ in `R` alone.
-/

namespace Cubic.Mut

set_option autoImplicit false

variable {σ ε α β ω : Type}

def Steady (view : σ → ω) (R : σ → σ → Prop) (m : Mut σ ε α) : Prop :=
  ∀ s, wp m ⟨fun _ s' => view s' = view s, fun _ s' => R s s', True⟩ s

/-- The call never fails. -/
abbrev Quiet (view : σ → ω) (m : Mut σ ε α) : Prop := Steady view (fun _ _ => False) m

/-- The call leaves everything alone when it fails. -/
abbrev Guarded (view : σ → ω) (m : Mut σ ε α) : Prop := Steady view (fun s s' => s' = s) m

variable {view : σ → ω} {R R₁ R₂ : σ → σ → Prop} {m n : Mut σ ε α} {f : α → Mut σ ε β}

theorem Steady.weaken (h : Steady view R₁ m) (hR : ∀ s s', R₁ s s' → R s s') : Steady view R m :=
  fun s => wp_mono (h s) (fun _ _ => id) (fun _ s' => hR s s') id

theorem Quiet.steady (h : Quiet view m) : Steady view R m := h.weaken fun _ _ => False.elim

theorem steady_bind (hm : Steady view R₁ m) (hf : ∀ a, Steady view R₂ (f a))
    (h₁ : ∀ s s', R₁ s s' → R s s') (h₂ : ∀ s t s', view t = view s → R₂ t s' → R s s') :
    Steady view R (m >>= f) := by
  intro s
  refine wp_seq (hm s) ?_ (fun _ s' => h₁ s s') id
  intro a t ht
  exact wp_mono (hf a t) (fun _ s' hs' => hs'.trans ht) (fun _ s' => h₂ s t s' ht) id

theorem Quiet.bind (hm : Quiet view m) (hf : ∀ a, Quiet view (f a)) : Quiet view (m >>= f) :=
  steady_bind hm hf (fun _ _ => id) fun _ _ _ _ => id

/-- Nothing fails after the first part. -/
theorem Guarded.bind_quiet (hm : Guarded view m) (hf : ∀ a, Quiet view (f a)) :
    Guarded view (m >>= f) :=
  steady_bind hm hf (fun _ _ => id) fun _ _ _ _ => False.elim

/-- A check comes first: it leaves everything alone even when it succeeds. -/
theorem guarded_check {view : σ → ω} (hm : Guarded id m) (hf : ∀ a, Guarded view (f a)) :
    Guarded view (m >>= f) := by
  intro s
  refine wp_seq (hm s) ?_ (fun _ _ => id) id
  intro a t ht
  obtain rfl : t = s := ht
  exact hf a t

theorem steady_ite (c : Prop) [Decidable c] (hm : Steady view R m) (hn : Steady view R n) :
    Steady view R (if c then m else n) := by
  split
  · exact hm
  · exact hn

theorem guarded_fail (e : ε) : Guarded view (fail e : Mut σ ε α) := fun _ => rfl

@[simp] theorem steady_pure (a : α) : Steady view R (pure a : Mut σ ε α) := fun _ => rfl

@[simp] theorem steady_get : Steady view R (get : Mut σ ε σ) := fun _ => rfl

@[simp] theorem steady_fault : Steady view R (fault : Mut σ ε α) := fun _ => trivial

theorem steady_modify {g : σ → σ} (h : ∀ s, view (g s) = view s) :
    Steady view R (modify g : Mut σ ε Unit) := h

@[simp] theorem steady_addU32 (a b : Nat) : Steady view R (addU32 a b : Mut σ ε Nat) :=
  steady_ite _ (steady_pure _) steady_fault

@[simp] theorem steady_subU32 (a b : Nat) : Steady view R (subU32 a b : Mut σ ε Nat) :=
  steady_ite _ (steady_pure _) steady_fault

@[simp] theorem steady_divU32 (a b : Nat) : Steady view R (divU32 a b : Mut σ ε Nat) :=
  steady_ite _ (steady_pure _) steady_fault

@[simp] theorem steady_index (xs : List α) (i : Nat) : Steady view R (index xs i : Mut σ ε α) := by
  unfold index
  split
  · exact steady_pure _
  · exact steady_fault

/-! ### Invariants of a call -/

/-- What holds before a call holds after it, whether or not it succeeds. -/
def Keeps (I : σ → Prop) (m : Mut σ ε α) : Prop :=
  ∀ s, I s → wp m ⟨fun _ s' => I s', fun _ s' => I s', True⟩ s

variable {I : σ → Prop}

theorem Keeps.bind (hm : Keeps I m) (hf : ∀ a, Keeps I (f a)) : Keeps I (m >>= f) :=
  fun s hs => wp_seq (hm s hs) (fun a t ht => hf a t ht) (fun _ _ => id) id

/-- A check leaves the state alone. -/
theorem Guarded.keeps (hm : Guarded id m) : Keeps I m := by
  intro s hs
  refine wp_mono (hm s) ?_ ?_ id
  · intro a s' hs'
    obtain rfl : s' = s := hs'
    exact hs
  · intro e s' hs'
    obtain rfl : s' = s := hs'
    exact hs

theorem keeps_check (hm : Guarded id m) (hf : ∀ a, Keeps I (f a)) : Keeps I (m >>= f) :=
  hm.keeps.bind hf

theorem keeps_pure (a : α) : Keeps I (pure a : Mut σ ε α) := fun _ hs => hs

theorem keeps_modify {g : σ → σ} (h : ∀ s, I s → I (g s)) : Keeps I (modify g : Mut σ ε Unit) := h

theorem Keeps.state? (hm : Keeps I m) {s t : σ} (hs : I s) (ht : (m s).state? = some t) : I t := by
  have hkeeps := hm s hs
  unfold wp at hkeeps
  cases hrun : m s with
  | ok a s' =>
    rw [hrun] at hkeeps ht
    cases ht
    exact hkeeps
  | err e s' =>
    rw [hrun] at hkeeps ht
    cases ht
    exact hkeeps
  | panic =>
    rw [hrun] at ht
    cases ht

end Cubic.Mut
