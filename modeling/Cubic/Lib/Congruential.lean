import Mathlib.Data.Nat.ModEq
import Mathlib.Logic.Function.Iterate
import Mathlib.Tactic.Ring

/-!
# Linear congruential generators

With a multiplier that is one modulo four and an odd increment, `2 ^ k` steps flip the bit `k`
whatever the bits below it are. So the highest bit of the state is clear time and again.
-/

namespace Cubic.Congruential

set_option autoImplicit false

/-- One step of the generator with `w` bits. -/
def step (a c w x : Nat) : Nat := (a * x + c) % 2 ^ w

def affine (a c x : Nat) : Nat := a * x + c

variable {a c : Nat}

/-- Twice as many steps are those steps twice. -/
theorem iterate_affine_two_pow (ha : a % 4 = 1) (hc : c % 2 = 1) (k : Nat) :
    ∃ t s, ∀ x, (affine a c)^[2 ^ k] x = x + 2 ^ k + 2 ^ (k + 1) * (2 * t * x + s) := by
  induction k with
  | zero =>
    refine ⟨a / 4, c / 2, fun x => ?_⟩
    have hmul : a * x = 4 * (a / 4) * x + x := by
      calc
        a * x = (4 * (a / 4) + 1) * x := by
          rw [← ha, Nat.div_add_mod]
        _ = _ := by
          ring
    have hinc : c = 2 * (c / 2) + 1 := by
      omega
    calc
      a * x + c = 4 * (a / 4) * x + x + (2 * (c / 2) + 1) := by
        rw [hmul, ← hinc]
      _ = _ := by
        ring
  | succ k ih =>
    obtain ⟨t, s, h⟩ := ih
    refine ⟨t + 2 ^ (k + 1) * t * t, s + 2 ^ k * t * (1 + 2 * s), fun x => ?_⟩
    rw [pow_succ, mul_two, Function.iterate_add_apply, h, h]
    ring

theorem iterate_step_modEq (w n x : Nat) :
    (step a c w)^[n] x ≡ (affine a c)^[n] x [MOD 2 ^ w] := by
  induction n generalizing x with
  | zero => rfl
  | succ n ih =>
    rw [Function.iterate_succ_apply', Function.iterate_succ_apply']
    calc
      step a c w ((step a c w)^[n] x)
        ≡ affine a c ((step a c w)^[n] x) [MOD 2 ^ w] := Nat.mod_modEq _ _
      _ ≡ affine a c ((affine a c)^[n] x) [MOD 2 ^ w] := ((ih x).mul_left a).add_right c

theorem step_lt (w x : Nat) : step a c w x < 2 ^ w := Nat.mod_lt _ (Nat.two_pow_pos w)

theorem iterate_step_lt (w n x : Nat) (hx : x < 2 ^ w) : (step a c w)^[n] x < 2 ^ w := by
  cases n with
  | zero => exact hx
  | succ n =>
    rw [Function.iterate_succ_apply']
    exact step_lt w _

/-- Half of the states later the highest bit is the other one. -/
theorem iterate_step_half (ha : a % 4 = 1) (hc : c % 2 = 1) (k x : Nat) (hx : x < 2 ^ (k + 1)) :
    (step a c (k + 1))^[2 ^ k] x = (x + 2 ^ k) % 2 ^ (k + 1) := by
  obtain ⟨t, s, h⟩ := iterate_affine_two_pow ha hc k
  have hmod : (step a c (k + 1))^[2 ^ k] x ≡ x + 2 ^ k [MOD 2 ^ (k + 1)] := by
    calc
      (step a c (k + 1))^[2 ^ k] x
        ≡ (affine a c)^[2 ^ k] x [MOD 2 ^ (k + 1)] := iterate_step_modEq _ _ _
      _ = x + 2 ^ k + 2 ^ (k + 1) * (2 * t * x + s) := h x
      _ ≡ x + 2 ^ k [MOD 2 ^ (k + 1)] := by
        rw [Nat.ModEq, Nat.add_mul_mod_self_left]
  rw [← hmod, Nat.mod_eq_of_lt (iterate_step_lt (k + 1) _ x hx)]

/-- From any state the highest bit is clear after at most `2 ^ k + 1` steps. -/
theorem exists_iterate_step_lt (ha : a % 4 = 1) (hc : c % 2 = 1) (k x : Nat) :
    ∃ n ≤ 2 ^ k, (step a c (k + 1))^[n + 1] x < 2 ^ k := by
  have hfirst : step a c (k + 1) x < 2 ^ (k + 1) := step_lt (k + 1) x
  rcases lt_or_ge (step a c (k + 1) x) (2 ^ k) with hlow | hhigh
  · exact ⟨0, Nat.zero_le _, hlow⟩
  · refine ⟨2 ^ k, Nat.le_refl _, ?_⟩
    rw [Function.iterate_succ_apply, iterate_step_half ha hc k _ hfirst]
    have hpow : 2 ^ (k + 1) = 2 ^ k + 2 ^ k := by
      rw [pow_succ, mul_two]
    rw [hpow] at hfirst ⊢
    rw [Nat.mod_eq_sub_mod (Nat.add_le_add_right hhigh _)]
    rw [Nat.mod_eq_of_lt (by omega)]
    omega

end Cubic.Congruential
