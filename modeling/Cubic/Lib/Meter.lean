import Cubic.Lib.Mut
import Mathlib.Algebra.BigOperators.Group.List.Basic

/-!
# Computations that pay for what they return

A meter counts some use of the state, such as the bytes read. A value is paid for when the meter
has moved by at least its weight; what was paid before the call is a credit.
-/

namespace Cubic.Mut

set_option autoImplicit false

variable {σ τ ε ε' α β : Type}

/-- `m` does not panic, and what it returns is paid for. -/
def Pays (meter : σ → Nat) (credit : Nat) (m : Mut σ ε α) (weight : α → Nat) : Prop :=
  ∀ s, wp m ⟨fun a t => meter s + weight a ≤ meter t + credit, fun _ _ => True, False⟩ s

variable {meter : σ → Nat} {credit : Nat} {m : Mut σ ε α} {f : α → Mut σ ε β} {u : α → Nat}
  {w : β → Nat}

theorem pays_pure {a : α} (h : u a ≤ credit) : Pays meter credit (pure a : Mut σ ε α) u :=
  fun s => Nat.add_le_add_left h (meter s)

theorem pays_fail {e : ε} : Pays meter credit (fail e : Mut σ ε α) u := fun _ => trivial

theorem pays_get {u : σ → Nat} (h : ∀ s, u s ≤ credit) : Pays meter credit (get : Mut σ ε σ) u :=
  fun s => Nat.add_le_add_left (h s) (meter s)

theorem pays_modify {g : σ → σ} (h : ∀ s, meter s ≤ meter (g s)) :
    Pays meter 0 (modify g : Mut σ ε Unit) fun _ => 0 := h

theorem pays_ofExcept {r : Except ε α} (h : ∀ a, r = .ok a → u a ≤ credit) :
    Pays meter credit (ofExcept r : Mut σ ε α) u := by
  cases r with
  | ok a => exact pays_pure (h a rfl)
  | error e => exact pays_fail

theorem Pays.mono {u' : α → Nat} (h : Pays meter credit m u) (hle : ∀ a, u' a ≤ u a) :
    Pays meter credit m u' := by
  intro s
  refine wp_mono (h s) ?_ (fun _ _ => id) id
  intro a t hpaid
  exact Nat.le_trans (Nat.add_le_add_left (hle a) _) hpaid

theorem Pays.mono_credit {credit' : Nat} (h : Pays meter credit m u) (hle : credit ≤ credit') :
    Pays meter credit' m u := by
  intro s
  refine wp_mono (h s) ?_ (fun _ _ => id) id
  intro a t hpaid
  exact Nat.le_trans hpaid (Nat.add_le_add_left hle _)

/-- What the first call paid is credit for the second. -/
theorem Pays.bind_of_ok (hm : Pays meter 0 m u)
    (hf : ∀ a s t, m s = .ok a t → Pays meter (credit + u a) (f a) w) :
    Pays meter credit (m >>= f) w := by
  intro s
  have hpaid := hm s
  rw [wp_bind]
  unfold wp at hpaid
  cases hok : m s with
  | ok a t =>
    rw [hok] at hpaid
    have hpaid : meter s + u a ≤ meter t + 0 := hpaid
    have hrest := hf a s t hok t
    unfold wp
    rw [hok]
    change wp (f a) ⟨fun b t' => meter s + w b ≤ meter t' + credit, fun _ _ => True, False⟩ t
    refine wp_mono hrest ?_ (fun _ _ => id) id
    intro b t' hpaid'
    change meter t + w b ≤ meter t' + (credit + u a) at hpaid'
    omega
  | err e t =>
    unfold wp
    rw [hok]
    exact trivial
  | panic =>
    rw [hok] at hpaid
    exact hpaid.elim

theorem Pays.bind (hm : Pays meter 0 m u) (hf : ∀ a, Pays meter (credit + u a) (f a) w) :
    Pays meter credit (m >>= f) w :=
  hm.bind_of_ok fun a _ _ _ => hf a

theorem Pays.map (h : Pays meter credit m u) (g : α → β) :
    Pays meter credit (m >>= fun a => pure (g a)) fun _ => 0 := by
  intro s
  refine (wp_bind _ _).mpr (wp_mono (h s) ?_ (fun _ _ => id) id)
  intro a t hpaid
  change meter s + u a ≤ meter t + credit at hpaid
  change meter s + 0 ≤ meter t + credit
  omega

/-- A check leaves the state as it is. -/
theorem Pays.check {r : Except ε α} (hf : ∀ a, r = .ok a → Pays meter credit (f a) w) :
    Pays meter credit (ofExcept r >>= f) w := by
  cases r with
  | ok a => exact fun s => hf a rfl s
  | error e => exact fun _ => trivial

theorem Pays.mapErr (g : ε → ε') (h : Pays meter credit m u) :
    Pays meter credit (Mut.mapErr g m) u :=
  fun s => (wp_mapErr g m).mpr (h s)

/-- A call on a part of the state moves the meter of that part. -/
theorem Pays.zoom {view : τ → σ} {put : σ → τ → τ} (hput : ∀ t s, view (put s t) = s)
    (h : Pays meter credit m u) : Pays (fun t => meter (view t)) credit (Mut.zoom view put m) u := by
  intro t
  refine (wp_zoom view put m).mpr (wp_mono (h (view t)) ?_ (fun _ _ => id) id)
  intro a s hpaid
  change _ ≤ meter (view (put s t)) + credit
  rw [hput]
  exact hpaid

/-- A call on a part of the state that the meter does not look at. -/
theorem Pays.zoom_frame {view : τ → σ} {put : σ → τ → τ} {meter' : τ → Nat} {m : Mut σ ε α}
    (hput : ∀ t s, meter' (put s t) = meter' t) (h : Pays (fun _ => 0) credit m u) :
    Pays meter' credit (Mut.zoom view put m) u := by
  intro t
  refine (wp_zoom view put m).mpr (wp_mono (h (view t)) ?_ (fun _ _ => id) id)
  intro a s hpaid
  change meter' t + u a ≤ meter' (put s t) + credit
  rw [hput]
  have hpaid : 0 + u a ≤ 0 + credit := hpaid
  omega

theorem Pays.certify {P : α → Prop} {hP : ∀ s a t, m s = .ok a t → P a}
    (h : Pays meter credit m u) : Pays meter credit (Mut.certify P m hP) fun a => u a.val := by
  intro s
  have hpaid := h s
  unfold wp at hpaid ⊢
  cases hok : Mut.certify P m hP s with
  | ok a t =>
    rw [certify_eq_ok.mp hok] at hpaid
    exact hpaid
  | err e t => exact trivial
  | panic =>
    unfold Mut.certify at hok
    split at hok
    · cases hok
    · cases hok
    · rename_i hpanic
      rw [hpanic] at hpaid
      exact hpaid

theorem Pays.repeatCall (h : Pays meter 0 m u) (n : Nat) :
    Pays meter 0 (Mut.repeatCall m n) fun as => (as.map u).sum := by
  induction n with
  | zero => exact pays_pure (Nat.le_refl 0)
  | succ n ih =>
    refine h.bind fun a => ih.bind fun rest => pays_pure ?_
    rw [List.map_cons, List.sum_cons, Nat.zero_add]

theorem Pays.not_panic (h : Pays meter credit m u) (s : σ) : m s ≠ .panic := by
  intro hpanic
  have hs := h s
  unfold wp at hs
  rw [hpanic] at hs
  exact hs

theorem Pays.le {s t : σ} {a : α} (h : Pays meter credit m u) (hok : m s = .ok a t) :
    meter s + u a ≤ meter t + credit :=
  ok_of_wp (h s) hok

end Cubic.Mut
