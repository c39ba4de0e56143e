import Cubic.Control.Mailbox
import Cubic.World.Float

/-!
# The double-tap flight gesture (`FlightToggleTracker`)
-/

namespace Cubic.Control

set_option autoImplicit false

open Render World

/-- The part of the simulated player the gesture reads and writes. -/
structure PlayerMovementState where
  mayFly : Bool
  flying : Bool
  deriving DecidableEq

structure PlayerAbilities where
  flying : Bool
  mayFly : Bool
  flyingSpeed : F32

namespace PlayerMovementState

/-- What `from_authoritative` starts with. -/
def fromAuthoritative : PlayerMovementState := ⟨false, false⟩

/-- `apply_flight_abilities`; the error is a speed that is not finite, or negative. -/
def applyFlightAbilities (abilities : PlayerAbilities) : Option PlayerMovementState :=
  if !abilities.flyingSpeed.isFinite || abilities.flyingSpeed.lt F32.zero then none
  else some ⟨abilities.mayFly, abilities.mayFly && abilities.flying⟩

/-- Whether the state changed. -/
def setFlying (state : PlayerMovementState) (flying : Bool) : Bool × PlayerMovementState :=
  let resolved := state.mayFly && flying
  if state.flying = resolved then (false, state) else (true, { state with flying := resolved })

end PlayerMovementState

/-- `FLIGHT_TOGGLE_WINDOW`, in nanoseconds. -/
def flightToggleWindow : Nat := 350000000

structure FlightToggleTracker where
  firstPressAt : Option Instant
  jumpHeld : Bool
  deriving DecidableEq

namespace FlightToggleTracker

def new : FlightToggleTracker := ⟨none, false⟩

def reset (_ : FlightToggleTracker) : FlightToggleTracker := ⟨none, false⟩

def retainOnlyIfCapable (tracker : FlightToggleTracker) (mayFly : Bool) : FlightToggleTracker :=
  if mayFly then tracker else tracker.reset

/-- Within the window of the first press; `saturating_duration_since`. -/
def completesToggle (tracker : FlightToggleTracker) (recordedAt : Instant) : Bool :=
  tracker.firstPressAt.any fun first => decide (recordedAt - first ≤ flightToggleWindow)

/-- The transition is a press of Jump as far as the tracker knows. -/
def sees (tracker : FlightToggleTracker) (state : PlayerMovementState)
    (transition : InputTransition) : Bool :=
  transition.input.jump && !tracker.jumpHeld && state.mayFly

/-- One transition, and the change of flight it asks for. -/
def consumeOne (tracker : FlightToggleTracker) (state : PlayerMovementState)
    (transition : InputTransition) :
    FlightToggleTracker × PlayerMovementState × List Bool :=
  if transition.reset then (tracker.reset, state, [])
  else if tracker.sees state transition then
    if tracker.completesToggle transition.recordedAt then
      let (changed, state) := state.setFlying !state.flying
      (⟨none, transition.input.jump⟩, state, if changed then [state.flying] else [])
    else (⟨some transition.recordedAt, transition.input.jump⟩, state, [])
  else ({ tracker with jumpHeld := transition.input.jump }, state, [])

def consumeAll (tracker : FlightToggleTracker) (state : PlayerMovementState) :
    List InputTransition → FlightToggleTracker × PlayerMovementState × List Bool
  | [] => (tracker, state, [])
  | transition :: rest =>
    let (tracker, state, changes) := tracker.consumeOne state transition
    let (tracker, state, more) := tracker.consumeAll state rest
    (tracker, state, changes ++ more)

/-- A first press too long ago is forgotten. -/
def expire (tracker : FlightToggleTracker) (now : Instant) : FlightToggleTracker :=
  if tracker.firstPressAt.any fun first => decide (flightToggleWindow < now - first) then
    { tracker with firstPressAt := none }
  else tracker

def consume (tracker : FlightToggleTracker) (transitions : List InputTransition)
    (coalesced : Nat) (finalJump : Bool) (now : Instant) (state : PlayerMovementState) :
    FlightToggleTracker × PlayerMovementState × List Bool :=
  if coalesced ≠ 0 then (⟨none, finalJump⟩, state, [])
  else
    let (tracker, state, changes) := tracker.consumeAll state transitions
    ({ tracker.expire now with jumpHeld := finalJump }, state, changes)

/-- The transitions at which `consumeAll` changes flight. -/
def toggling (tracker : FlightToggleTracker) (state : PlayerMovementState) :
    List InputTransition → List InputTransition
  | [] => []
  | transition :: rest =>
    let (tracker, state, changes) := tracker.consumeOne state transition
    changes.map (fun _ => transition) ++ tracker.toggling state rest

theorem expire_firstPressAt {tracker : FlightToggleTracker} {now : Instant}
    (h : ((tracker.expire now).firstPressAt).isSome = true) :
    tracker.firstPressAt.isSome = true := by
  unfold expire at h
  split at h
  · cases h
  · exact h

/-- Each change that `consumeAll` reports is one transition's. -/
theorem length_toggling (transitions : List InputTransition) (tracker : FlightToggleTracker)
    (state : PlayerMovementState) :
    (tracker.toggling state transitions).length =
      (tracker.consumeAll state transitions).2.2.length := by
  induction transitions generalizing tracker state with
  | nil => rfl
  | cons transition rest ih =>
    simp only [toggling, consumeAll, List.length_append, List.length_map, ih]

/-- What one transition does to the tracker: a focus loss forgets, a press completes the
gesture or begins one, and anything else is only looked at for the held key. -/
theorem consumeOne_cases (tracker : FlightToggleTracker) (state : PlayerMovementState)
    (t : InputTransition) :
    (t.reset = true ∧ tracker.consumeOne state t = (⟨none, false⟩, state, [])) ∨
    (t.reset = false ∧ t.input.jump = true ∧ tracker.jumpHeld = false ∧
      tracker.firstPressAt.isSome = true ∧ (tracker.consumeOne state t).1 = ⟨none, true⟩) ∨
    (t.reset = false ∧ t.input.jump = true ∧
      (tracker.consumeOne state t).1 = ⟨some t.recordedAt, true⟩ ∧
      (tracker.consumeOne state t).2.2 = []) ∨
    (t.reset = false ∧
      (tracker.consumeOne state t).1 = { tracker with jumpHeld := t.input.jump } ∧
      (tracker.consumeOne state t).2.2 = []) := by
  unfold consumeOne
  by_cases hreset : t.reset = true
  · exact .inl ⟨hreset, by rw [if_pos hreset]; rfl⟩
  · have hreset' : t.reset = false := Bool.not_eq_true _ ▸ hreset
    rw [if_neg hreset]
    right
    by_cases hsees : tracker.sees state t = true
    · obtain ⟨⟨hjump, hheld⟩, -⟩ :=
        (Bool.and_eq_true_iff.trans (and_congr_left' Bool.and_eq_true_iff)).mp hsees
      rw [if_pos hsees, hjump]
      by_cases hdone : tracker.completesToggle t.recordedAt = true
      · left
        rw [if_pos hdone]
        refine ⟨hreset', rfl, Bool.not_eq_true' _ ▸ hheld, ?_, rfl⟩
        cases hfirst : tracker.firstPressAt with
        | none =>
          rw [completesToggle, hfirst] at hdone
          cases hdone
        | some first => rfl
      · right; left
        rw [if_neg hdone]
        exact ⟨hreset', rfl, rfl, rfl⟩
    · right; right
      rw [if_neg hsees]
      exact ⟨hreset', rfl, rfl⟩

end FlightToggleTracker

end Cubic.Control
