import Cubic.Inventory.Container
import Cubic.Render.Mailbox

/-!
# The control mailbox (`ControlState`)

The UI thread and the movement tick share it under a lock, so a call on either side is
one step. The camera's look deltas live beside these fields and never touch them.
-/

namespace Cubic.Control

set_option autoImplicit false

open Inventory Render

structure MovementInput where
  forward : Bool
  backward : Bool
  left : Bool
  right : Bool
  jump : Bool
  sneak : Bool
  sprint : Bool
  deriving DecidableEq

def MovementInput.default : MovementInput := ⟨false, false, false, false, false, false, false⟩

structure InputTransition where
  sequence : UInt64
  input : MovementInput
  recordedAt : Instant
  reset : Bool
  deriving DecidableEq

inductive InventoryCommand where
  | selectHotbar (slot : UInt8)
  | click (click : ContainerClick)
  | close (container : ContainerId)
  | creativeSlot (slot : SlotIndex) (stack : Option ItemStack)
  | creativeCarried (stack : Option ItemStack)
  | button (container : ContainerId) (button : UInt32)
  deriving DecidableEq

structure ControlState where
  input : MovementInput
  inputSequence : UInt64
  transitions : List InputTransition
  coalescedTransitions : Nat
  jumpChangedAt : Option Instant
  attack : Bool
  attackChanged : Bool
  usePresses : Nat
  inventoryCommands : List InventoryCommand

structure ControlSample where
  input : MovementInput
  transitions : List InputTransition
  coalescedTransitions : Nat
  jumpChangedAt : Option Instant
  attack : Bool
  attackChanged : Bool
  usePresses : Nat
  inventoryCommands : List InventoryCommand

def maxInputTransitions : Nat := 64

def maxInventoryCommands : Nat := 64

namespace ControlState

def default : ControlState where
  input := .default
  inputSequence := 0
  transitions := []
  coalescedTransitions := 0
  jumpChangedAt := none
  attack := false
  attackChanged := false
  usePresses := 0
  inventoryCommands := []

/-- Append to the journal; a full one loses its oldest transition and counts it. -/
def journal (state : ControlState) (transition : InputTransition) : ControlState :=
  if state.transitions.length = maxInputTransitions then
    { state with
      transitions := state.transitions.drop 1 ++ [transition]
      coalescedTransitions := saturatingAdd state.coalescedTransitions 1 }
  else { state with transitions := state.transitions ++ [transition] }

def recordInputTransition (state : ControlState) (sequence : UInt64) (input : MovementInput)
    (now : Instant) (reset : Bool) : ControlState :=
  if sequence ≤ state.inputSequence then state
  else if state.input = input then { state with inputSequence := sequence }
  else
    journal
      { state with
        inputSequence := sequence
        input
        jumpChangedAt := if state.input.jump ≠ input.jump then some now else state.jumpChangedAt }
      ⟨sequence, input, now, reset⟩

def setInput (state : ControlState) (sequence : UInt64) (input : MovementInput)
    (now : Instant) : ControlState :=
  state.recordInputTransition sequence input now false

/-- Release every held input and drop the interactions not yet sampled. -/
def release (state : ControlState) (sequence : UInt64) (now : Instant) : ControlState :=
  { state.recordInputTransition sequence .default now true with
    attack := false
    attackChanged := true
    usePresses := 0 }

def resetInput (state : ControlState) (sequence : UInt64) (now : Instant) : ControlState :=
  state.release sequence now

def clear (state : ControlState) (now : Instant) : ControlState :=
  state.release (saturatingSucc state.inputSequence) now

def setAttack (state : ControlState) (pressed : Bool) : ControlState :=
  if state.attack ≠ pressed then { state with attack := pressed, attackChanged := true } else state

def pressUse (state : ControlState) : ControlState :=
  { state with usePresses := min (min (state.usePresses + 1) 255) 8 }

/-- Whether the command was accepted. -/
def inventoryCommand (state : ControlState) (command : InventoryCommand) : Bool × ControlState :=
  if state.inventoryCommands.length = maxInventoryCommands then (false, state)
  else (true, { state with inventoryCommands := state.inventoryCommands ++ [command] })

/-- Sample the held state and drain what is pending. -/
def take (state : ControlState) : ControlSample × ControlState :=
  (⟨state.input, state.transitions, state.coalescedTransitions, state.jumpChangedAt, state.attack,
      state.attackChanged, state.usePresses, state.inventoryCommands⟩,
    { state with
      transitions := []
      coalescedTransitions := 0
      attackChanged := false
      usePresses := 0
      inventoryCommands := [] })

section
variable (state : ControlState) (sequence : UInt64) (input : MovementInput) (now : Instant)
  (reset : Bool) (transition : InputTransition)

@[simp] theorem journal_input : (state.journal transition).input = state.input := by
  unfold journal
  split <;> rfl

@[simp] theorem journal_commands :
    (state.journal transition).inventoryCommands = state.inventoryCommands := by
  unfold journal
  split <;> rfl

@[simp] theorem record_commands :
    (state.recordInputTransition sequence input now reset).inventoryCommands =
      state.inventoryCommands := by
  unfold recordInputTransition
  split
  · rfl
  · split
    · rfl
    · rw [journal_commands]

@[simp] theorem take_commands : state.take.2.inventoryCommands = [] := rfl

end

/-- A command is refused by a full mailbox, and queued by any other. -/
theorem inventoryCommand_cases (state : ControlState) (command : InventoryCommand) :
    state.inventoryCommand command = (false, state) ∨
      state.inventoryCommand command =
        (true, { state with inventoryCommands := state.inventoryCommands ++ [command] }) := by
  unfold inventoryCommand
  split
  · exact .inl rfl
  · exact .inr rfl

/-- A call is stale, or finds the input as it asks, or journals the change. -/
theorem record_cases (state : ControlState) (sequence : UInt64) (input : MovementInput)
    (now : Instant) (reset : Bool) :
    (sequence ≤ state.inputSequence ∧
      state.recordInputTransition sequence input now reset = state) ∨
    (state.inputSequence < sequence ∧ state.input = input ∧
      state.recordInputTransition sequence input now reset =
        { state with inputSequence := sequence }) ∨
    (state.inputSequence < sequence ∧ state.input ≠ input ∧
      ∃ changedAt, state.recordInputTransition sequence input now reset =
        journal { state with inputSequence := sequence, input, jumpChangedAt := changedAt }
          ⟨sequence, input, now, reset⟩) := by
  unfold recordInputTransition
  by_cases hstale : sequence ≤ state.inputSequence
  · exact .inl ⟨hstale, if_pos hstale⟩
  · have hfresh := UInt64.not_le.mp hstale
    rw [if_neg hstale]
    by_cases hsame : state.input = input
    · exact .inr (.inl ⟨hfresh, hsame, if_pos hsame⟩)
    · exact .inr (.inr ⟨hfresh, hsame, _, if_neg hsame⟩)

end ControlState

end Cubic.Control
