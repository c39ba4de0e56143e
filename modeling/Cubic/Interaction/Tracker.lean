import Cubic.Play.BlockUpdate
import Cubic.World.Float

/-!
# Predicted block changes (`BlockInteractionTracker`)

The predictions and their numbers. The break in progress and its delay come with the tick.
-/

namespace Cubic.Interaction

set_option autoImplicit false

open World

structure BlockPrediction where
  sequence : Int32
  position : BlockCoordinates
  serverState : RuntimeBlockStateId
  expected : RuntimeBlockStateId
  playerPosition : Vec3d
  deriving DecidableEq

structure PredictionResolution where
  updates : List BlockStateUpdate
  rollbacks : List BlockPrediction

structure BlockInteractionTracker where
  nextSequence : Int32
  latestAcknowledged : Option Int32
  predictions : List BlockPrediction
  deriving DecidableEq

def maxBlockPredictions : Nat := 32

namespace BlockInteractionTracker

def new : BlockInteractionTracker := ⟨0, none, []⟩

def reset (_ : BlockInteractionTracker) : BlockInteractionTracker := ⟨0, none, []⟩

/-- Resolve predictions from the front as long as `sequence` covers them. -/
def popResolved (sequence : Int32) : List BlockPrediction → PredictionResolution →
    PredictionResolution × List BlockPrediction
  | [], resolution => (resolution, [])
  | prediction :: rest, resolution =>
    if prediction.sequence ≤ sequence then
      popResolved sequence rest
        { updates := resolution.updates ++ [⟨prediction.position, prediction.serverState⟩]
          rollbacks :=
            if prediction.serverState ≠ prediction.expected then
              resolution.rollbacks ++ [prediction]
            else resolution.rollbacks }
    else (resolution, prediction :: rest)

def acknowledge (tracker : BlockInteractionTracker) (sequence : Int32) :
    PredictionResolution × BlockInteractionTracker :=
  if 0 ≤ sequence ∧ tracker.latestAcknowledged.all (fun current => decide (current < sequence)) then
    let (resolution, predictions) := popResolved sequence tracker.predictions ⟨[], []⟩
    (resolution, { tracker with latestAcknowledged := some sequence, predictions := predictions })
  else (⟨[], []⟩, tracker)

/-- Retain the server's state with the first prediction at the position, if there is one. -/
def retain (update : BlockStateUpdate) : List BlockPrediction → Option (List BlockPrediction)
  | [] => none
  | prediction :: rest =>
    if prediction.position = update.position then
      some ({ prediction with serverState := update.state } :: rest)
    else (retain update rest).map (prediction :: ·)

/-- The predictions afterwards, and the updates that are to be applied at once. -/
def reconcile : List BlockStateUpdate → List BlockPrediction →
    List BlockPrediction × List BlockStateUpdate
  | [], predictions => (predictions, [])
  | update :: rest, predictions =>
    match retain update predictions with
    | some predictions => reconcile rest predictions
    | none =>
      let (predictions, immediate) := reconcile rest predictions
      (predictions, update :: immediate)

def reconcileBlockUpdates (tracker : BlockInteractionTracker) (updates : List BlockStateUpdate) :
    List BlockStateUpdate × BlockInteractionTracker :=
  let (predictions, immediate) := reconcile updates tracker.predictions
  (immediate, { tracker with predictions := predictions })

def registerPrediction (tracker : BlockInteractionTracker) (sequence : Int32)
    (position : BlockCoordinates) (observedServerState expected : RuntimeBlockStateId)
    (pose : LocalPlayerPose) : Bool × BlockInteractionTracker :=
  match tracker.predictions.find? (fun prediction => prediction.position = position) with
  | some prediction =>
    (true, { tracker with
      predictions := tracker.predictions.eraseP (fun prediction => prediction.position = position) ++
        [{ prediction with sequence := sequence, expected := expected }] })
  | none =>
    if tracker.predictions.length = maxBlockPredictions then (false, tracker)
    else
      (true, { tracker with
        predictions := tracker.predictions ++
          [⟨sequence, position, observedServerState, expected, ⟨pose.x, pose.y, pose.z⟩⟩] })

/-- `checked_add(1).unwrap_or(0)` -/
def sequence (tracker : BlockInteractionTracker) : Int32 × BlockInteractionTracker :=
  (tracker.nextSequence,
    { tracker with nextSequence := (checkedAddI32 tracker.nextSequence 1).getD 0 })

end BlockInteractionTracker

end Cubic.Interaction
