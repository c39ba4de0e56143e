import Mathlib.Data.List.Basic
import Mathlib.Logic.Equiv.Defs

/-!
# Letter by letter

A transducer turns each letter into one letter and goes on in another state. How the letters are
cut into pieces makes no difference to it.
-/

namespace Cubic

set_option autoImplicit false

/-- What becomes of a letter, and the next state. -/
structure Transducer (κ α : Type) where
  step : κ → α → α × κ

namespace Transducer
variable {κ α : Type}

def run (machine : Transducer κ α) (state : κ) : List α → List α × κ
  | [] => ([], state)
  | a :: rest =>
    let out := machine.step state a
    let later := machine.run out.2 rest
    (out.1 :: later.1, later.2)

variable (machine : Transducer κ α)

theorem run_append (xs ys : List α) (state : κ) : machine.run state (xs ++ ys) =
    ((machine.run state xs).1 ++ (machine.run (machine.run state xs).2 ys).1,
      (machine.run (machine.run state xs).2 ys).2) := by
  induction xs generalizing state with
  | nil => rfl
  | cons a rest ih =>
    rw [List.cons_append, run, ih]
    rfl

theorem length_run (xs : List α) (state : κ) : (machine.run state xs).1.length = xs.length := by
  induction xs generalizing state with
  | nil => rfl
  | cons a rest ih => exact congrArg (· + 1) (ih _)

theorem run_eq_nil {xs : List α} {state : κ} (h : (machine.run state xs).1 = []) : xs = [] := by
  rw [← List.length_eq_zero_iff, ← machine.length_run xs state, h]
  rfl

/-! ### Cipher feedback -/

section
variable {ρ : Type} (mask : ρ → Equiv.Perm α) (shift : ρ → α → ρ)

/-- The register says how a letter is masked, and takes up the masked letter. -/
def feedbackEncryptor : Transducer ρ α where
  step register a := (mask register a, shift register (mask register a))

def feedbackDecryptor : Transducer ρ α where
  step register a := ((mask register).symm a, shift register a)

/-- The two registers stay the same. -/
theorem feedbackDecryptor_run (xs : List α) (register : ρ) :
    (feedbackDecryptor mask shift).run register
        ((feedbackEncryptor mask shift).run register xs).1 =
      (xs, ((feedbackEncryptor mask shift).run register xs).2) := by
  induction xs generalizing register with
  | nil => rfl
  | cons a rest ih =>
    have hrest := ih (shift register (mask register a))
    have hletter := (mask register).symm_apply_apply a
    have hlater := congrArg Prod.fst hrest
    have hstate := congrArg Prod.snd hrest
    apply Prod.ext
    · exact congrArg₂ List.cons hletter hlater
    · exact hstate

end

end Transducer

end Cubic
