import Cubic.Control.FlightToggle
import Cubic.Lib.Run

/-!
# The movement controller in its session

`WorldMovementController` and the parts of the session that call it, over runs of calls
from the UI thread and of what the session does in between. An error of a call ends the
session.
-/

namespace Cubic.Control

set_option autoImplicit false

open Inventory Render World

/-- The rest of a movement tick: rotation, collision, packets and block interaction. It
may fail, and it may end flight. -/
abbrev Physics := PlayerMovementState → Option PlayerMovementState

structure WorldMovementController where
  simulation : Option PlayerMovementState
  flightToggle : FlightToggleTracker
  abilities : Option PlayerAbilities

structure MovementTick where
  flightChanges : List Bool
  inventoryCommands : List InventoryCommand

namespace WorldMovementController

def new : WorldMovementController := ⟨none, .new, none⟩

def reset (controller : WorldMovementController) : WorldMovementController where
  simulation := none
  flightToggle := controller.flightToggle.reset
  abilities := controller.abilities.map fun abilities => { abilities with flying := false }

/-- The mailbox is drained first; without a simulated player that is all. -/
def tick (controller : WorldMovementController) (mailbox : ControlState) (now : Instant)
    (physics : Physics) : Option (Option MovementTick × WorldMovementController × ControlState) :=
  let (controls, mailbox) := mailbox.take
  match controller.simulation with
  | none => some (none, controller, mailbox)
  | some simulation =>
    let (flightToggle, simulation, flightChanges) :=
      controller.flightToggle.consume controls.transitions controls.coalescedTransitions
        controls.input.jump now simulation
    (physics simulation).map fun simulation =>
      (some ⟨flightChanges, controls.inventoryCommands⟩,
        { controller with simulation := some simulation, flightToggle }, mailbox)

/-- A position correction; one that is not finite is an error. -/
def reconcile (controller : WorldMovementController) (finite : Bool) :
    Option WorldMovementController :=
  if !finite then none
  else match controller.simulation with
    | some _ => some controller
    | none =>
      match controller.abilities with
      | none => some { controller with simulation := some .fromAuthoritative }
      | some abilities =>
        (PlayerMovementState.applyFlightAbilities abilities).map fun simulation =>
          { controller with simulation := some simulation }

def applyAbilities (controller : WorldMovementController) (abilities : PlayerAbilities) :
    Option WorldMovementController :=
  let controller :=
    { controller with
      abilities := some abilities
      flightToggle := controller.flightToggle.retainOnlyIfCapable abilities.mayFly }
  match controller.simulation with
  | none => some controller
  | some _ =>
    (PlayerMovementState.applyFlightAbilities abilities).map fun simulation =>
      { controller with simulation := some simulation }

end WorldMovementController

/-- What the UI asked of the held input, in order: a change of it, or the loss of focus. -/
inductive Call where
  | held (transition : InputTransition)
  | lost
  deriving DecidableEq

structure Session where
  mailbox : ControlState
  controller : WorldMovementController
  /-- The session has an `inventory_profile`. -/
  profile : Bool
  /-- The commands for which `inventory_command` returned true. -/
  accepted : List InventoryCommand
  /-- The commands handed to `service_inventory_command`. -/
  handed : List InventoryCommand
  history : List Call
  /-- The transitions at which `consume` toggled flight. -/
  toggled : List InputTransition

inductive ControlEvent where
  | setInput (sequence : UInt64) (input : MovementInput) (now : Instant)
  | resetInput (sequence : UInt64) (now : Instant)
  | clear (now : Instant)
  | setAttack (pressed : Bool)
  | pressUse
  | inventoryCommand (command : InventoryCommand)
  | tick (now : Instant) (physics : Physics)
  | reconcile (finite : Bool)
  | reset
  | applyAbilities (abilities : PlayerAbilities)

namespace Session

def start (profile : Bool) : Session :=
  ⟨.default, .new, profile, [], [], [], []⟩

/-- `service_movement_tick`, when none of its writes fails. -/
def serviceTick (s : Session) (now : Instant) (physics : Physics) : Option Session :=
  (s.controller.tick s.mailbox now physics).map fun (tick, controller, mailbox) =>
    match tick with
    | none => { s with controller, mailbox }
    | some tick =>
      { s with
        controller
        mailbox
        handed := if s.profile then s.handed ++ tick.inventoryCommands else s.handed }

/-- The transitions at which a tick toggles flight. -/
def toggling (s : Session) : List InputTransition :=
  match s.controller.simulation with
  | none => []
  | some simulation =>
    if s.mailbox.coalescedTransitions ≠ 0 then []
    else s.controller.flightToggle.toggling simulation s.mailbox.transitions

def next (s : Session) : ControlEvent → Option Session
  | .setInput sequence input now =>
    let mailbox := s.mailbox.setInput sequence input now
    some
      { s with
        mailbox
        history :=
          if mailbox.input = s.mailbox.input then s.history
          else s.history ++ [.held ⟨sequence, input, now, false⟩] }
  | .resetInput sequence now =>
    some { s with mailbox := s.mailbox.resetInput sequence now, history := s.history ++ [.lost] }
  | .clear now =>
    some { s with mailbox := s.mailbox.clear now, history := s.history ++ [.lost] }
  | .setAttack pressed => some { s with mailbox := s.mailbox.setAttack pressed }
  | .pressUse => some { s with mailbox := s.mailbox.pressUse }
  | .inventoryCommand command =>
    let (accepted, mailbox) := s.mailbox.inventoryCommand command
    some { s with mailbox, accepted := if accepted then s.accepted ++ [command] else s.accepted }
  | .tick now physics =>
    (s.serviceTick now physics).map fun t => { t with toggled := s.toggled ++ s.toggling }
  | .reconcile finite => (s.controller.reconcile finite).map fun controller => { s with controller }
  | .reset => some { s with controller := s.controller.reset }
  | .applyAbilities abilities =>
    (s.controller.applyAbilities abilities).map fun controller => { s with controller }

def Step (s : Session) (event : ControlEvent) (t : Session) : Prop := s.next event = some t

/-- Each change of flight that a tick reports has its transition. -/
theorem length_toggling {s : Session} {now : Instant} {physics : Physics} {tick : MovementTick}
    {controller : WorldMovementController} {mailbox : ControlState}
    (h : s.controller.tick s.mailbox now physics = some (some tick, controller, mailbox)) :
    s.toggling.length = tick.flightChanges.length := by
  unfold WorldMovementController.tick at h
  unfold toggling
  cases hplayer : s.controller.simulation with
  | none =>
    rw [hplayer] at h
    cases h
  | some simulation =>
    rw [hplayer] at h
    obtain ⟨after, -, heq⟩ := Option.map_eq_some_iff.mp h
    cases heq
    change _ = (s.controller.flightToggle.consume s.mailbox.transitions
      s.mailbox.coalescedTransitions s.mailbox.input.jump now simulation).2.2.length
    unfold FlightToggleTracker.consume
    by_cases hlost : s.mailbox.coalescedTransitions = 0
    · simp only [hlost, ne_eq, not_true_eq_false, if_false]
      exact FlightToggleTracker.length_toggling ..
    · simp only [ne_eq, hlost, not_false_eq_true, if_true]
      rfl

end Session

end Cubic.Control
