import Cubic.Lib.Meter
import Cubic.Lib.Rounds

/-!
# How a call can end

Whether a call ends without a panic does not depend on where it is made: a computation ends if the
calls it is put together from do. So this is a class, and its instances follow the way a
computation is written down. What is known of the values it gives goes by its last calls.
-/

namespace Cubic.Mut

set_option autoImplicit false

variable {σ ε ε' α β : Type}

class Ends (m : Mut σ ε α) : Prop where
  ne_panic : ∀ s, m s ≠ .panic

variable {m n : Mut σ ε α} {f : α → Mut σ ε β}

/-- What holds of a call unless it panics. -/
theorem Ends.wp (h : Ends m) {R : α → σ → Prop} {E : ε → σ → Prop} {s : σ}
    (hwp : Mut.wp m ⟨R, E, True⟩ s) : Mut.wp m ⟨R, E, False⟩ s := by
  unfold Mut.wp at hwp ⊢
  cases hs : m s with
  | ok a t =>
    rw [hs] at hwp
    exact hwp
  | err e t =>
    rw [hs] at hwp
    exact hwp
  | panic => exact h.ne_panic s hs

instance ends_pure (a : α) : Ends (pure a : Mut σ ε α) := ⟨fun _ => nofun⟩

instance ends_fail (e : ε) : Ends (fail e : Mut σ ε α) := ⟨fun _ => nofun⟩

instance ends_get : Ends (get : Mut σ ε σ) := ⟨fun _ => nofun⟩

instance ends_set (s : σ) : Ends (set s : Mut σ ε Unit) := ⟨fun _ => nofun⟩

instance ends_modify (g : σ → σ) : Ends (modify g : Mut σ ε Unit) := ⟨fun _ => nofun⟩

instance ends_ofExcept (r : Except ε α) : Ends (ofExcept r : Mut σ ε α) := by
  cases r with
  | ok a => exact ends_pure a
  | error e => exact ends_fail e

theorem Ends.bind (hm : Ends m) (hf : ∀ a, Ends (f a)) : Ends (m >>= f) := by
  refine ⟨fun s h => ?_⟩
  cases hs : m s with
  | ok a t =>
    rw [Mut.bind_of_ok hs] at h
    exact (hf a).ne_panic t h
  | err e t =>
    rw [Mut.bind_of_err hs] at h
    cases h
  | panic => exact hm.ne_panic s hs

instance ends_bind [hm : Ends m] [hf : ∀ a, Ends (f a)] : Ends (m >>= f) := hm.bind hf

instance ends_ite {c : Prop} [Decidable c] [Ends m] [Ends n] : Ends (if c then m else n) := by
  split
  · infer_instance
  · infer_instance

instance ends_mapErr (g : ε → ε') [Ends m] : Ends (Mut.mapErr g m) := by
  refine ⟨fun s hs => ?_⟩
  unfold Mut.mapErr at hs
  cases hm : m s with
  | ok a t =>
    rw [hm] at hs
    cases hs
  | err e t =>
    rw [hm] at hs
    cases hs
  | panic => exact Ends.ne_panic s hm

instance ends_repeatCall [Ends m] (n : Nat) : Ends (Mut.repeatCall m n) := by
  induction n with
  | zero => exact ends_pure []
  | succ n ih =>
    unfold Mut.repeatCall
    infer_instance

instance ends_mapM {f : β → Mut σ ε α} [∀ b, Ends (f b)] (bs : List β) : Ends (bs.mapM f) := by
  induction bs with
  | nil =>
    rw [List.mapM_nil]
    exact ends_pure []
  | cons b bs ih =>
    rw [List.mapM_cons]
    infer_instance

instance ends_rounds {turn : β → Mut σ ε (β ⊕ α)} [hturn : ∀ b, Ends (turn b)] [hm : Ends m]
    (n : Nat) (b : β) : Ends (rounds turn m n b) := by
  induction n generalizing b with
  | zero => exact hm
  | succ n ih =>
    unfold rounds
    refine (hturn b).bind fun r => ?_
    cases r with
    | inl b => exact ih b
    | inr a => exact ends_pure a

theorem ends_ofOption {o : Option α} (h : ∃ a, o = some a) : Ends (ofOption o : Mut σ ε α) := by
  obtain ⟨a, rfl⟩ := h
  exact ends_pure a

theorem Pays.ends {meter : σ → Nat} {credit : Nat} {u : α → Nat} (h : Pays meter credit m u) :
    Ends m := ⟨h.not_panic⟩

/-! ### Values -/

def Gives (P : α → Prop) (m : Mut σ ε α) : Prop := ∀ s a t, m s = .ok a t → P a

variable {P : α → Prop} {Q : β → Prop}

theorem gives_pure {a : α} (h : P a) : Gives P (pure a : Mut σ ε α) := by
  intro s b t hs
  cases hs
  exact h

theorem gives_fail (e : ε) : Gives P (fail e : Mut σ ε α) := fun _ _ _ => nofun

theorem gives_fault : Gives P (fault : Mut σ ε α) := fun _ _ _ => nofun

theorem Gives.bind (hm : Gives P m) (hf : ∀ a, P a → Gives Q (f a)) : Gives Q (m >>= f) := by
  intro s b t hs
  obtain ⟨a, u, ha, hb⟩ := Mut.bind_eq_ok.mp hs
  exact hf a (hm s a u ha) u b t hb

theorem gives_bind (hf : ∀ a, Gives Q (f a)) : Gives Q (m >>= f) :=
  Gives.bind (P := fun _ => True) (fun _ _ _ _ => trivial) fun a _ => hf a

theorem gives_ite {c : Prop} [Decidable c] (hm : Gives P m) (hn : Gives P n) :
    Gives P (if c then m else n) := by
  split
  · exact hm
  · exact hn

theorem Gives.mapErr (g : ε → ε') (h : Gives P m) : Gives P (Mut.mapErr g m) :=
  fun s a t hs => h s a t (mapErr_eq_ok.mp hs)

end Cubic.Mut
