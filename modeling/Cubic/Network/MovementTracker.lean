import Cubic.Codec.Frame
import Cubic.Control.Mailbox
import Cubic.Play.Protocol
import Cubic.World.Arithmetic

/-!
# What the server is told of movement (`world_movement.rs`)

The tracker remembers what has been sent and sends what has changed since.
-/

namespace Cubic.Network

open World Control

set_option autoImplicit false

/-! ### The packets (`bootstrap/v775.rs`) -/

/-- `BootstrapProtocolError` with its `NonFinite`. -/
inductive MovementEncodeError where
  | bootstrap (e : BootstrapProtocolError)
  | nonFinite (context : String)
  deriving DecidableEq

structure PlayerInput where
  forward : Bool
  backward : Bool
  left : Bool
  right : Bool
  jump : Bool
  sneak : Bool
  sprint : Bool
  deriving DecidableEq

def PlayerInput.default : PlayerInput := ⟨false, false, false, false, false, false, false⟩

inductive PlayerCommandAction where
  | startSprinting
  | stopSprinting
  deriving DecidableEq

def maxBootstrapFrameSize : Nat := minecraftMaxFrameSize

def frame (writer : Bytes) : Except MovementEncodeError Bytes :=
  (encodeFrame writer maxBootstrapFrameSize).mapError fun e => .bootstrap (.codec e)

def movementFlags (onGround horizontalCollision : Bool) : UInt8 :=
  onGround.toUInt8 ||| horizontalCollision.toUInt8 <<< 1

def encodePlayMovePosition (x y z : F64) (onGround horizontalCollision : Bool) :
    Except MovementEncodeError Bytes :=
  if !x.isFinite || !y.isFinite || !z.isFinite then .error (.nonFinite "Move Player Pos")
  else frame (writeVarInt 0x1e ++ writeF64 x.bits ++ writeF64 y.bits ++ writeF64 z.bits ++
    writeU8 (movementFlags onGround horizontalCollision))

def encodePlayMovePositionRotation (x y z : F64) (yaw pitch : F32)
    (onGround horizontalCollision : Bool) : Except MovementEncodeError Bytes :=
  if !x.isFinite || !y.isFinite || !z.isFinite || !yaw.isFinite || !pitch.isFinite then
    .error (.nonFinite "Move Player Pos Rot")
  else frame (writeVarInt 0x1f ++ writeF64 x.bits ++ writeF64 y.bits ++ writeF64 z.bits ++
    writeF32 yaw.bits ++ writeF32 pitch.bits ++ writeU8 (movementFlags onGround horizontalCollision))

def encodePlayMoveRotation (yaw pitch : F32) (onGround horizontalCollision : Bool) :
    Except MovementEncodeError Bytes :=
  if !yaw.isFinite || !pitch.isFinite then .error (.nonFinite "Move Player Rot")
  else frame (writeVarInt 0x20 ++ writeF32 yaw.bits ++ writeF32 pitch.bits ++
    writeU8 (movementFlags onGround horizontalCollision))

def encodePlayMoveStatus (onGround horizontalCollision : Bool) : Except MovementEncodeError Bytes :=
  frame (writeVarInt 0x21 ++ writeU8 (movementFlags onGround horizontalCollision))

def PlayerInput.flags (input : PlayerInput) : UInt8 :=
  input.forward.toUInt8 ||| input.backward.toUInt8 <<< 1 ||| input.left.toUInt8 <<< 2 |||
    input.right.toUInt8 <<< 3 ||| input.jump.toUInt8 <<< 4 ||| input.sneak.toUInt8 <<< 5 |||
    input.sprint.toUInt8 <<< 6

def encodePlayPlayerInput (input : PlayerInput) : Except MovementEncodeError Bytes :=
  frame (writeVarInt 0x2b ++ writeU8 input.flags)

def encodePlayPlayerAbilities (flying : Bool) : Except MovementEncodeError Bytes :=
  frame (writeVarInt 0x28 ++ writeU8 (flying.toUInt8 <<< 1))

def encodePlayPlayerCommand (entityId : Int32) (action : PlayerCommandAction) :
    Except MovementEncodeError Bytes :=
  let action : Int32 := match action with
    | .startSprinting => 1
    | .stopSprinting => 2
  frame (writeVarInt 0x2a ++ writeVarInt entityId ++ writeVarInt action ++ writeVarInt 0)

/-! ### The tracker -/

/-- What the tracker reads of it. -/
structure PlayerMovementState where
  pose : LocalPlayerPose
  onGround : Bool
  horizontalCollision : Bool
  sprinting : Bool
  deriving DecidableEq

inductive MovementPacketFamily where
  | position
  | positionRotation
  | rotation
  | statusOnly
  deriving DecidableEq

structure MovementPacketTracker where
  lastPose : Option LocalPlayerPose
  lastOnGround : Bool
  lastHorizontalCollision : Bool
  lastInput : PlayerInput
  sprinting : Bool
  positionReminder : UInt8
  lastMovementFamily : Option MovementPacketFamily
  lastPositionSent : Option Vec3d
  diagnoseNextMovement : Bool
  deriving DecidableEq

/-- `4.0e-8` -/
def positionEpsilonSquared : F64 := ⟨0x3e65798ee2308c3a⟩

def forcedPositionInterval : UInt8 := 20

/-- `dx.mul_add(dx, dy.mul_add(dy, dz * dz))` -/
def distanceSquared (a b : LocalPlayerPose) : F64 :=
  let dx := a.x.sub b.x
  let dy := a.y.sub b.y
  let dz := a.z.sub b.z
  dx.mulAdd dx (dy.mulAdd dy (dz.mul dz))

def toPacket (input : MovementInput) : PlayerInput :=
  ⟨input.forward, input.backward, input.left, input.right, input.jump, input.sneak, input.sprint⟩

namespace MovementPacketTracker

def default : MovementPacketTracker :=
  ⟨none, false, false, .default, false, 0, none, none, false⟩

def reset (t : MovementPacketTracker) (pose : LocalPlayerPose) : MovementPacketTracker :=
  { t with
    lastPose := some pose
    positionReminder := 0
    lastMovementFamily := none
    lastPositionSent := none
    diagnoseNextMovement := true }

abbrev TrackerM := Mut MovementPacketTracker MovementEncodeError

def pushInputTransition (result : List Bytes) (inputPacket : PlayerInput) :
    TrackerM (List Bytes) := do
  let t ← Mut.get
  if inputPacket ≠ t.lastInput then do
    let bytes ← Mut.ofExcept (encodePlayPlayerInput inputPacket)
    Mut.modify fun t => { t with lastInput := inputPacket }
    pure (result ++ [bytes])
  else pure result

def pushFlightChange (result : List Bytes) (flying : Bool) : TrackerM (List Bytes) := do
  let bytes ← Mut.ofExcept (encodePlayPlayerAbilities flying)
  pure (result ++ [bytes])

def pushSprint (result : List Bytes) (sprinting : Bool) (entityId : Int32) :
    TrackerM (List Bytes) := do
  let t ← Mut.get
  if sprinting ≠ t.sprinting then do
    let bytes ← Mut.ofExcept (encodePlayPlayerCommand entityId
      (if sprinting then .startSprinting else .stopSprinting))
    Mut.modify fun t => { t with sprinting := sprinting }
    pure (result ++ [bytes])
  else pure result

/-- The movement that is sent, if any. -/
def movementFrame (state : PlayerMovementState) (positionChanged rotationChanged flagsChanged : Bool) :
    Except MovementEncodeError (Option (MovementPacketFamily × Bytes)) :=
  match positionChanged, rotationChanged with
  | true, true => do
    let bytes ← encodePlayMovePositionRotation state.pose.x state.pose.y state.pose.z state.pose.yaw
      state.pose.pitch state.onGround state.horizontalCollision
    pure (some (.positionRotation, bytes))
  | true, false => do
    let bytes ← encodePlayMovePosition state.pose.x state.pose.y state.pose.z state.onGround
      state.horizontalCollision
    pure (some (.position, bytes))
  | false, true => do
    let bytes ← encodePlayMoveRotation state.pose.yaw state.pose.pitch state.onGround
      state.horizontalCollision
    pure (some (.rotation, bytes))
  | false, false =>
    if flagsChanged then do
      let bytes ← encodePlayMoveStatus state.onGround state.horizontalCollision
      pure (some (.statusOnly, bytes))
    else pure none

/-- What is remembered once a position is sent. -/
def rememberPosition (t : MovementPacketTracker) (last : LocalPlayerPose) (pose : LocalPlayerPose) :
    MovementPacketTracker :=
  { t with
    lastPose := some { last with x := pose.x, y := pose.y, z := pose.z }
    positionReminder := 0 }

def rememberRotation (t : MovementPacketTracker) (last : LocalPlayerPose) (pose : LocalPlayerPose) :
    MovementPacketTracker :=
  { t with
    lastPose := some { t.lastPose.getD last with yaw := pose.yaw, pitch := pose.pitch } }

def saturatingSucc (n : UInt8) : UInt8 := if n = 255 then 255 else n + 1

def pushMovement (result : List Bytes) (state : PlayerMovementState) (last : LocalPlayerPose) :
    TrackerM (List Bytes) := do
  Mut.modify fun t => { t with positionReminder := saturatingSucc t.positionReminder }
  let t ← Mut.get
  let positionChanged := positionEpsilonSquared.lt (distanceSquared state.pose last) ||
    forcedPositionInterval ≤ t.positionReminder
  let rotationChanged := !state.pose.yaw.equals last.yaw || !state.pose.pitch.equals last.pitch
  let flagsChanged := state.onGround != t.lastOnGround ||
    state.horizontalCollision != t.lastHorizontalCollision
  let movement ← Mut.ofExcept (movementFrame state positionChanged rotationChanged flagsChanged)
  match movement with
  | some (family, _) => Mut.modify fun t =>
    { t with
      lastMovementFamily := some family
      lastPositionSent :=
        if positionChanged then some ⟨state.pose.x, state.pose.y, state.pose.z⟩
        else t.lastPositionSent
      diagnoseNextMovement := false }
  | none => pure ()
  if positionChanged then Mut.modify fun t => t.rememberPosition last state.pose else pure ()
  if rotationChanged then Mut.modify fun t => t.rememberRotation last state.pose else pure ()
  Mut.modify fun t =>
    { t with lastOnGround := state.onGround, lastHorizontalCollision := state.horizontalCollision }
  pure (result ++ (movement.map Prod.snd).toList)

def framesWithFlight (state : PlayerMovementState) (transitions : List InputTransition)
    (input : MovementInput) (entityId : Int32) (flightChanges : List Bool) :
    TrackerM (List Bytes) := do
  let result ← transitions.foldlM
    (fun result transition => pushInputTransition result (toPacket transition.input)) []
  let result ← pushInputTransition result (toPacket input)
  let result ← flightChanges.foldlM pushFlightChange result
  let result ← pushSprint result state.sprinting entityId
  let t ← Mut.get
  match t.lastPose with
  | none => do
    Mut.modify fun t => t.reset state.pose
    pure result
  | some last => pushMovement result state last

end MovementPacketTracker

end Cubic.Network
