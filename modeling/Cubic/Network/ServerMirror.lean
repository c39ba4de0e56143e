import Cubic.Lib.Run
import Cubic.Network.ServerFrame
import Mathlib.Data.List.Chain

/-!
# The server's view of the player

A server that takes in every frame has the player where the tracker believes it to be.
-/

namespace Cubic.Network

open World Control Mut

set_option autoImplicit false

/-! ### The mirror -/

structure ServerMirror where
  input : PlayerInput
  sprinting : Bool
  place : Vec3d
  yaw : F32
  pitch : F32
  onGround : Bool
  horizontalCollision : Bool

namespace ServerMirror

/-- A player who is nowhere yet. -/
def initial : ServerMirror :=
  ⟨.default, false, ⟨.zero, .zero, .zero⟩, .zero, .zero, false, false⟩

def apply (m : ServerMirror) : ServerFrame → ServerMirror
  | .input input => { m with input := input }
  | .command action => { m with sprinting := decide (action = .startSprinting) }
  | .abilities _ => m
  | .position place onGround horizontalCollision =>
    { m with place := place, onGround := onGround, horizontalCollision := horizontalCollision }
  | .positionRotation place yaw pitch onGround horizontalCollision =>
    { m with
      place := place
      yaw := yaw
      pitch := pitch
      onGround := onGround
      horizontalCollision := horizontalCollision }
  | .rotation yaw pitch onGround horizontalCollision =>
    { m with
      yaw := yaw
      pitch := pitch
      onGround := onGround
      horizontalCollision := horizontalCollision }
  | .status onGround horizontalCollision =>
    { m with onGround := onGround, horizontalCollision := horizontalCollision }

def receive (m : ServerMirror) (frame : Bytes) : ServerMirror :=
  (serverFrame? frame).elim m m.apply

end ServerMirror

def placeOf (pose : LocalPlayerPose) : Vec3d := ⟨pose.x, pose.y, pose.z⟩

def sentInput? (frame : Bytes) : Option PlayerInput :=
  match serverFrame? frame with
  | some (.input input) => some input
  | _ => none

def sentCommand? (frame : Bytes) : Option PlayerCommandAction :=
  match serverFrame? frame with
  | some (.command action) => some action
  | _ => none

def sendsPosition (frame : Bytes) : Bool :=
  match serverFrame? frame with
  | some (.position _ _ _) | some (.positionRotation _ _ _ _ _) => true
  | _ => false

/-- The tracker, the server, and what went from one to the other. -/
structure MirroredTracker where
  tracker : MovementPacketTracker
  mirror : ServerMirror
  sent : List Bytes
  /-- The server has put the player somewhere. -/
  placed : Bool
  /-- Calls since a position was sent or the tracker was reset. -/
  sincePosition : Nat

inductive TrackerCall where
  | reset (pose : LocalPlayerPose)
  | frames (state : PlayerMovementState) (transitions : List InputTransition)
    (input : MovementInput) (entityId : Int32) (flightChanges : List Bool)

namespace MirroredTracker

def initial : MirroredTracker := ⟨.default, .initial, [], false, 0⟩

/-- The frames of a call that fails are lost. -/
def next (s : MirroredTracker) : TrackerCall → Option MirroredTracker
  | .reset pose => some { s with
      tracker := s.tracker.reset pose
      mirror := { s.mirror with place := placeOf pose, yaw := pose.yaw, pitch := pose.pitch }
      placed := true
      sincePosition := 0 }
  | .frames state transitions input entityId flightChanges =>
    match MovementPacketTracker.framesWithFlight state transitions input entityId flightChanges
        s.tracker with
    | .ok frames t => some { s with
        tracker := t
        mirror := frames.foldl ServerMirror.receive s.mirror
        sent := s.sent ++ frames
        sincePosition := if frames.any sendsPosition then 0 else s.sincePosition + 1 }
    | .err _ t => some { s with tracker := t }
    | .panic => none

end MirroredTracker

/-! ### Changes -/

/-- `xs` are the values taken one after the other, from `first` to `last`. -/
inductive Changes {α : Type} (first : α) : List α → α → Prop where
  | nil : Changes first [] first
  | snoc {xs : List α} {last x : α} : Changes first xs last → x ≠ last → Changes first (xs ++ [x]) x

theorem Changes.getLast? {α : Type} {first last : α} {xs : List α} (h : Changes first xs last) :
    (first :: xs).getLast? = some last := by
  cases h with
  | nil => rfl
  | snoc _ _ => rw [← List.cons_append, List.getLast?_concat]

theorem Changes.isChain {α : Type} {first last : α} {xs : List α} (h : Changes first xs last) :
    (first :: xs).IsChain (· ≠ ·) := by
  induction h with
  | nil => exact .singleton first
  | @snoc xs last x h hne ih =>
    rw [← List.cons_append]
    refine List.isChain_append.mpr ⟨ih, .singleton x, ?_⟩
    intro y hy z hz
    rw [h.getLast?] at hy
    cases hy
    cases hz
    exact hne.symm

/-! ### A call, one frame after the other -/

/-- The command that says whether the player sprints. -/
def actionOf (sprinting : Bool) : PlayerCommandAction :=
  if sprinting then .startSprinting else .stopSprinting

/-- While the frames of a call are made: the server has taken in all of them, nothing has been
said of where the player is, and input and sprinting are as the tracker remembers them. -/
structure Sending (s : MirroredTracker) (frames : List Bytes) (t : MovementPacketTracker) :
    Prop where
  tracker : t = { s.tracker with lastInput := t.lastInput, sprinting := t.sprinting }
  mirror : frames.foldl ServerMirror.receive s.mirror =
    { s.mirror with input := t.lastInput, sprinting := t.sprinting }
  still : frames.any sendsPosition = false
  inputs : Changes .default ((s.sent ++ frames).filterMap sentInput?) t.lastInput
  sprints : Changes .stopSprinting ((s.sent ++ frames).filterMap sentCommand?)
    (actionOf t.sprinting)

theorem filterMap_snoc {α β : Type} (f : α → Option β) (before xs : List α) (x : α) :
    (before ++ (xs ++ [x])).filterMap f = (before ++ xs).filterMap f ++ (f x).toList := by
  rw [← List.append_assoc, List.filterMap_append]
  cases h : f x <;> simp [h]

section
variable {s : MirroredTracker} {frames : List Bytes} {t : MovementPacketTracker}

theorem sending_push_input (h : Sending s frames t) (p : PlayerInput) :
    wp (MovementPacketTracker.pushInputTransition frames p)
      (.yields fun frames t => Sending s frames t ∧ t.lastInput = p) t := by
  unfold MovementPacketTracker.pushInputTransition
  rw [wp_bind, wp_get]
  dsimp only
  split
  · rename_i hne
    obtain ⟨bytes, hbytes, hsends⟩ := sends_input p
    rw [hbytes]
    change Sending s (frames ++ [bytes]) { t with lastInput := p } ∧ p = p
    refine ⟨⟨?_, ?_, ?_, ?_, ?_⟩, rfl⟩
    · have htracker := h.tracker
      generalize t.lastInput = i, t.sprinting = b at htracker
      subst htracker
      rfl
    · rw [List.foldl_append, h.mirror]
      simp only [List.foldl_cons, List.foldl_nil, ServerMirror.receive, hsends, Option.elim_some]
      rfl
    · simp [h.still, sendsPosition, hsends]
    · rw [filterMap_snoc, sentInput?, hsends]
      exact h.inputs.snoc hne
    · rw [filterMap_snoc, sentCommand?, hsends]
      exact (List.append_nil _).symm ▸ h.sprints
  · rename_i heq
    exact ⟨h, (not_not.mp heq).symm⟩

theorem sending_push_flight (h : Sending s frames t) (flying : Bool) :
    wp (MovementPacketTracker.pushFlightChange frames flying)
      (.yields fun frames t' => Sending s frames t' ∧ t' = t) t := by
  unfold MovementPacketTracker.pushFlightChange
  obtain ⟨bytes, hbytes, hsends⟩ := sends_abilities flying
  rw [hbytes]
  change Sending s (frames ++ [bytes]) t ∧ t = t
  refine ⟨⟨h.tracker, ?_, ?_, ?_, ?_⟩, rfl⟩
  · rw [List.foldl_append, h.mirror]
    simp only [List.foldl_cons, List.foldl_nil, ServerMirror.receive, hsends, Option.elim_some]
    rfl
  · simp [h.still, sendsPosition, hsends]
  · rw [filterMap_snoc, sentInput?, hsends]
    exact (List.append_nil _).symm ▸ h.inputs
  · rw [filterMap_snoc, sentCommand?, hsends]
    exact (List.append_nil _).symm ▸ h.sprints

theorem sending_push_sprint (h : Sending s frames t) (sprinting : Bool) (entityId : Int32) :
    wp (MovementPacketTracker.pushSprint frames sprinting entityId)
      (.yields fun frames t' => Sending s frames t' ∧ t'.lastInput = t.lastInput ∧
        t'.sprinting = sprinting) t := by
  unfold MovementPacketTracker.pushSprint
  rw [wp_bind, wp_get]
  dsimp only
  split
  · rename_i hne
    obtain ⟨bytes, hbytes, hsends⟩ := sends_command entityId (actionOf sprinting)
    have hmirror : decide (actionOf sprinting = .startSprinting) = sprinting := by
      cases sprinting <;> rfl
    have haction : actionOf sprinting ≠ actionOf t.sprinting := by
      revert hne
      cases sprinting <;> cases t.sprinting <;> decide
    unfold actionOf at hbytes
    rw [hbytes]
    change Sending s (frames ++ [bytes]) { t with sprinting := sprinting } ∧ _ ∧ _
    refine ⟨⟨?_, ?_, ?_, ?_, ?_⟩, rfl, rfl⟩
    · have htracker := h.tracker
      generalize t.lastInput = i, t.sprinting = b at htracker
      subst htracker
      rfl
    · rw [List.foldl_append, h.mirror]
      simp only [List.foldl_cons, List.foldl_nil, ServerMirror.receive, hsends, Option.elim_some,
        ServerMirror.apply, hmirror]
    · simp [h.still, sendsPosition, hsends]
    · rw [filterMap_snoc, sentInput?, hsends]
      exact (List.append_nil _).symm ▸ h.inputs
    · rw [filterMap_snoc, sentCommand?, hsends]
      exact h.sprints.snoc haction
  · rename_i heq
    exact ⟨h, rfl, (not_not.mp heq).symm⟩

/-- Everything that comes before the movement itself. -/
theorem sending_before (h : Sending s [] s.tracker) (transitions : List InputTransition)
    (input : MovementInput) (flightChanges : List Bool) (sprinting : Bool) (entityId : Int32) :
    wp (do
      let result ← transitions.foldlM (fun result transition =>
        MovementPacketTracker.pushInputTransition result (toPacket transition.input)) []
      let result ← MovementPacketTracker.pushInputTransition result (toPacket input)
      let result ← flightChanges.foldlM MovementPacketTracker.pushFlightChange result
      MovementPacketTracker.pushSprint result sprinting entityId)
      (.yields fun frames t => Sending s frames t ∧ t.lastInput = toPacket input ∧
        t.sprinting = sprinting) s.tracker := by
  refine wp_yields_bind (R := fun frames t => Sending s frames t) ?_ fun frames t h => ?_
  · refine wp_yields_foldlM (fun frames transition t h => ?_) transitions h
    exact wp_mono (sending_push_input h _) (fun _ _ h => h.1) (fun _ _ => id) id
  refine wp_yields_bind (sending_push_input h _) fun frames t h => ?_
  refine wp_yields_bind (R := fun frames t => Sending s frames t ∧ t.lastInput = toPacket input) ?_
    fun frames t h => ?_
  · refine wp_yields_foldlM (fun frames flying t h => ?_) flightChanges h
    refine wp_mono (sending_push_flight h.1 flying) ?_ (fun _ _ => id) id
    exact fun _ _ h' => ⟨h'.1, h'.2 ▸ h.2⟩
  · refine wp_mono (sending_push_sprint h.1 sprinting entityId) ?_ (fun _ _ => id) id
    exact fun _ _ h' => ⟨h'.1, h'.2.1.trans h.2, h'.2.2⟩

end

/-! ### The movement -/

/-- What the server knows once it has been told. -/
def ServerMirror.told (m : ServerMirror) (state : PlayerMovementState)
    (positionChanged rotationChanged flagsChanged : Bool) : ServerMirror :=
  { m with
    place := if positionChanged then placeOf state.pose else m.place
    yaw := if rotationChanged then state.pose.yaw else m.yaw
    pitch := if rotationChanged then state.pose.pitch else m.pitch
    onGround := if positionChanged || rotationChanged || flagsChanged then state.onGround
      else m.onGround
    horizontalCollision := if positionChanged || rotationChanged || flagsChanged then
      state.horizontalCollision else m.horizontalCollision }

/-- At most one frame, which says what has changed and nothing of input and sprinting. -/
structure Tells (frames : List Bytes) (state : PlayerMovementState)
    (positionChanged rotationChanged flagsChanged : Bool) : Prop where
  mirror : ∀ m : ServerMirror, frames.foldl ServerMirror.receive m =
    m.told state positionChanged rotationChanged flagsChanged
  position : frames.any sendsPosition = positionChanged
  inputs : frames.filterMap sentInput? = []
  commands : frames.filterMap sentCommand? = []

theorem tells_of_sends {made : Except MovementEncodeError Bytes} {packet : ServerFrame}
    {state : PlayerMovementState} {positionChanged rotationChanged flagsChanged : Bool}
    (h : Sends made packet)
    (hmirror : ∀ m : ServerMirror, m.apply packet =
      m.told state positionChanged rotationChanged flagsChanged)
    (hposition : ∀ frame, serverFrame? frame = some packet → sendsPosition frame = positionChanged)
    (hinput : ∀ input, packet ≠ .input input) (hcommand : ∀ action, packet ≠ .command action) :
    ∃ bytes, made = .ok bytes ∧ Tells [bytes] state positionChanged rotationChanged flagsChanged := by
  obtain ⟨bytes, hbytes, hsends⟩ := h
  refine ⟨bytes, hbytes, fun m => ?_, ?_, ?_, ?_⟩
  · rw [List.foldl_cons, List.foldl_nil, ServerMirror.receive, hsends]
    exact hmirror m
  · rw [List.any_cons, List.any_nil, Bool.or_false]
    exact hposition bytes hsends
  · cases packet with
    | input input => exact absurd rfl (hinput input)
    | _ => simp [sentInput?, hsends]
  · cases packet with
    | command action => exact absurd rfl (hcommand action)
    | _ => simp [sentCommand?, hsends]

theorem tells_movementFrame {state : PlayerMovementState} (hfinite : state.pose.isFinite = true)
    (positionChanged rotationChanged flagsChanged : Bool) :
    ∃ movement, MovementPacketTracker.movementFrame state positionChanged rotationChanged
        flagsChanged = .ok movement ∧
      Tells (movement.map Prod.snd).toList state positionChanged rotationChanged flagsChanged := by
  unfold LocalPlayerPose.isFinite at hfinite
  simp only [Bool.and_eq_true] at hfinite
  obtain ⟨⟨⟨⟨⟨hx, hy⟩, hz⟩, hyaw⟩, hpitch⟩, -⟩ := hfinite
  have hsome : ∀ {made : Except MovementEncodeError Bytes} (family : MovementPacketFamily),
      (∃ bytes, made = .ok bytes ∧ Tells [bytes] state positionChanged rotationChanged
        flagsChanged) →
      ∃ movement, (do
          let bytes ← made
          pure (some (family, bytes)) : Except MovementEncodeError _) = .ok movement ∧
        Tells (movement.map Prod.snd).toList state positionChanged rotationChanged flagsChanged := by
    intro made family h
    obtain ⟨bytes, rfl, htells⟩ := h
    exact ⟨some (family, bytes), rfl, htells⟩
  match positionChanged, rotationChanged, flagsChanged with
  | true, true, _ =>
    exact hsome .positionRotation (tells_of_sends (sends_positionRotation hx hy hz hyaw hpitch _ _)
      (fun _ => rfl) (fun _ h => by simp [sendsPosition, h]) (fun _ h => by cases h)
      (fun _ h => by cases h))
  | true, false, _ =>
    exact hsome .position (tells_of_sends (sends_position hx hy hz _ _)
      (fun _ => rfl) (fun _ h => by simp [sendsPosition, h]) (fun _ h => by cases h)
      (fun _ h => by cases h))
  | false, true, _ =>
    exact hsome .rotation (tells_of_sends (sends_rotation hyaw hpitch _ _)
      (fun _ => rfl) (fun _ h => by simp [sendsPosition, h]) (fun _ h => by cases h)
      (fun _ h => by cases h))
  | false, false, true =>
    exact hsome .statusOnly (tells_of_sends (sends_status _ _)
      (fun _ => rfl) (fun _ h => by simp [sendsPosition, h]) (fun _ h => by cases h)
      (fun _ h => by cases h))
  | false, false, false => exact ⟨none, rfl, fun _ => rfl, rfl, rfl, rfl⟩

theorem movementFrame_none {state : PlayerMovementState}
    {positionChanged rotationChanged flagsChanged : Bool}
    (h : MovementPacketTracker.movementFrame state positionChanged rotationChanged flagsChanged =
      .ok none) : positionChanged = false ∧ rotationChanged = false := by
  have hsome : ∀ (made : Except MovementEncodeError Bytes) (family : MovementPacketFamily),
      (do
        let bytes ← made
        pure (some (family, bytes)) : Except MovementEncodeError _) ≠ .ok none := by
    intro made family h
    cases made <;> cases h
  match positionChanged, rotationChanged with
  | true, true => exact absurd h (hsome _ _)
  | true, false => exact absurd h (hsome _ _)
  | false, true => exact absurd h (hsome _ _)
  | false, false => exact ⟨rfl, rfl⟩

/-- What the tracker remembers once the movement is sent. -/
structure Remembers (t : MovementPacketTracker) (last : LocalPlayerPose)
    (state : PlayerMovementState) (positionChanged rotationChanged : Bool)
    (t' : MovementPacketTracker) : Prop where
  lastPose : t'.lastPose = some { last with
    x := if positionChanged then state.pose.x else last.x
    y := if positionChanged then state.pose.y else last.y
    z := if positionChanged then state.pose.z else last.z
    yaw := if rotationChanged then state.pose.yaw else last.yaw
    pitch := if rotationChanged then state.pose.pitch else last.pitch }
  reminder : t'.positionReminder =
    if positionChanged then 0 else MovementPacketTracker.saturatingSucc t.positionReminder
  sent : t'.lastPositionSent =
    if positionChanged then some (placeOf state.pose) else t.lastPositionSent
  onGround : t'.lastOnGround = state.onGround
  horizontalCollision : t'.lastHorizontalCollision = state.horizontalCollision
  input : t'.lastInput = t.lastInput
  sprinting : t'.sprinting = t.sprinting

/-- What the call finds changed. -/
def positionChanged (t : MovementPacketTracker) (last : LocalPlayerPose)
    (state : PlayerMovementState) : Bool :=
  positionEpsilonSquared.lt (distanceSquared state.pose last) ||
    forcedPositionInterval ≤ MovementPacketTracker.saturatingSucc t.positionReminder

def rotationChanged (last : LocalPlayerPose) (state : PlayerMovementState) : Bool :=
  !state.pose.yaw.equals last.yaw || !state.pose.pitch.equals last.pitch

def flagsChanged (t : MovementPacketTracker) (state : PlayerMovementState) : Bool :=
  state.onGround != t.lastOnGround || state.horizontalCollision != t.lastHorizontalCollision

theorem pushMovement_spec {state : PlayerMovementState} (hfinite : state.pose.isFinite = true)
    {t : MovementPacketTracker} {last : LocalPlayerPose} (hlast : t.lastPose = some last)
    (frames : List Bytes) :
    wp (MovementPacketTracker.pushMovement frames state last)
      (.yields fun frames' t' => ∃ more, frames' = frames ++ more ∧
        Tells more state (positionChanged t last state) (rotationChanged last state)
          (flagsChanged t state) ∧
        Remembers t last state (positionChanged t last state) (rotationChanged last state) t') t := by
  obtain ⟨movement, hmovement, htells⟩ := tells_movementFrame hfinite
    (positionChanged t last state) (rotationChanged last state) (flagsChanged t state)
  suffices hrun : ∃ t', MovementPacketTracker.pushMovement frames state last t =
      .ok (frames ++ (movement.map Prod.snd).toList) t' ∧
      Remembers t last state (positionChanged t last state) (rotationChanged last state) t' by
    obtain ⟨t', hrun, hremembers⟩ := hrun
    exact (wp_of_ok hrun).mpr ⟨_, rfl, htells, hremembers⟩
  unfold MovementPacketTracker.pushMovement
  simp only [modify_bind, get_bind]
  have hp : (positionEpsilonSquared.lt (distanceSquared state.pose last) ||
      decide (forcedPositionInterval ≤ MovementPacketTracker.saturatingSucc t.positionReminder)) =
      positionChanged t last state := rfl
  have hr : (!state.pose.yaw.equals last.yaw || !state.pose.pitch.equals last.pitch) =
      rotationChanged last state := rfl
  have hf : (state.onGround != t.lastOnGround ||
      state.horizontalCollision != t.lastHorizontalCollision) = flagsChanged t state := rfl
  simp only [hp, hr, hf]
  generalize positionChanged t last state = p, rotationChanged last state = r,
    flagsChanged t state = f at *
  rw [hmovement]
  obtain ⟨lastPose, onGround, collision, input, sprinting, reminder, family, place, diagnose⟩ := t
  cases hlast
  cases movement with
  | none =>
    obtain ⟨rfl, rfl⟩ := movementFrame_none hmovement
    exact ⟨_, rfl, rfl, rfl, rfl, rfl, rfl, rfl, rfl⟩
  | some sent =>
    cases p with
    | true => cases r <;> exact ⟨_, rfl, rfl, rfl, rfl, rfl, rfl, rfl, rfl⟩
    | false => cases r <;> exact ⟨_, rfl, rfl, rfl, rfl, rfl, rfl, rfl, rfl⟩

/-! ### Distances -/

theorem distance_not_nan {a b : LocalPlayerPose} (ha : a.isFinite = true) (hb : b.isFinite = true) :
    (distanceSquared a b).isNan = false := by
  unfold LocalPlayerPose.isFinite at ha hb
  simp only [Bool.and_eq_true] at ha hb
  obtain ⟨⟨⟨⟨⟨hx, hy⟩, hz⟩, -⟩, -⟩, -⟩ := ha
  obtain ⟨⟨⟨⟨⟨hx', hy'⟩, hz'⟩, -⟩, -⟩, -⟩ := hb
  exact (F64.isPositive_mulAdd_self (F64.sub_not_nan hx hx')
    (F64.isPositive_mulAdd_self (F64.sub_not_nan hy hy')
      (F64.isPositive_mul_self (F64.sub_not_nan hz hz')))).not_nan

/-- A pose is no distance away from one at the same place. -/
theorem distance_same {a b : LocalPlayerPose} (ha : a.isFinite = true) (hx : b.x = a.x)
    (hy : b.y = a.y) (hz : b.z = a.z) :
    (distanceSquared a b).le positionEpsilonSquared = true := by
  unfold LocalPlayerPose.isFinite at ha
  simp only [Bool.and_eq_true] at ha
  obtain ⟨⟨⟨⟨⟨hx', hy'⟩, hz'⟩, -⟩, -⟩, -⟩ := ha
  unfold distanceSquared
  rw [hx, hy, hz, F64.sub_self hx', F64.sub_self hy', F64.sub_self hz']
  decide +kernel

/-! ### Whole runs -/

/-- The server has the player at `last`, which the tracker remembers. -/
structure PlacedAt (s : MirroredTracker) (last : LocalPlayerPose) : Prop where
  lastPose : s.tracker.lastPose = some last
  finite : last.isFinite = true
  place : s.mirror.place = placeOf last
  yaw : s.mirror.yaw = last.yaw
  pitch : s.mirror.pitch = last.pitch
  reminder : s.tracker.positionReminder.toNat = s.sincePosition
  recent : s.sincePosition < forcedPositionInterval.toNat
  sent : ∀ place, s.tracker.lastPositionSent = some place → place = s.mirror.place

structure MirroredTracker.Kept (s : MirroredTracker) : Prop where
  input : s.mirror.input = s.tracker.lastInput
  sprinting : s.mirror.sprinting = s.tracker.sprinting
  onGround : s.mirror.onGround = s.tracker.lastOnGround
  horizontalCollision : s.mirror.horizontalCollision = s.tracker.lastHorizontalCollision
  inputs : Changes .default (s.sent.filterMap sentInput?) s.tracker.lastInput
  sprints : Changes .stopSprinting (s.sent.filterMap sentCommand?) (actionOf s.tracker.sprinting)
  placed : s.placed = true → ∃ last, PlacedAt s last

/-- The server sees the player as the client does. -/
structure MirroredTracker.Agrees (s : MirroredTracker) (state : PlayerMovementState)
    (input : MovementInput) : Prop where
  input : s.mirror.input = toPacket input
  sprinting : s.mirror.sprinting = state.sprinting
  yaw : s.mirror.yaw.equals state.pose.yaw = true
  pitch : s.mirror.pitch.equals state.pose.pitch = true
  onGround : s.mirror.onGround = state.onGround
  horizontalCollision : s.mirror.horizontalCollision = state.horizontalCollision
  place : ∃ last, s.tracker.lastPose = some last ∧ s.mirror.place = placeOf last ∧
    (distanceSquared state.pose last).le positionEpsilonSquared = true
  sent : ∀ place, s.tracker.lastPositionSent = some place → place = s.mirror.place
  recent : s.sincePosition < forcedPositionInterval.toNat
  inputs : (s.sent.filterMap sentInput?).IsChain (· ≠ ·)
  sprints : (s.sent.filterMap sentCommand?).IsChain (· ≠ ·)

/-- The poses are finite. -/
def TrackerCall.Finite : TrackerCall → Prop
  | .reset pose => pose.isFinite = true
  | .frames state _ _ _ _ => state.pose.isFinite = true

namespace MirroredTracker.Kept
variable {s : MirroredTracker}

theorem initial : MirroredTracker.initial.Kept := by
  refine ⟨rfl, rfl, rfl, rfl, .nil, .nil, fun h => ?_⟩
  cases h

theorem reset (h : s.Kept) {pose : LocalPlayerPose} (hfinite : pose.isFinite = true) :
    ∃ t, s.next (.reset pose) = some t ∧ t.Kept ∧ t.placed = true := by
  refine ⟨_, rfl, ⟨h.input, h.sprinting, h.onGround, h.horizontalCollision, h.inputs, h.sprints,
    fun _ => ⟨pose, rfl, hfinite, rfl, rfl, rfl, rfl, Nat.zero_lt_succ 19, ?_⟩⟩, rfl⟩
  intro place hplace
  cases hplace

theorem sending (h : s.Kept) : Sending s [] s.tracker := by
  refine ⟨rfl, ?_, rfl, (List.append_nil s.sent).symm ▸ h.inputs,
    (List.append_nil s.sent).symm ▸ h.sprints⟩
  rw [List.foldl_nil, ← h.input, ← h.sprinting]

end MirroredTracker.Kept

/-- The flags are told, or they are what the server knows. -/
theorem told_flags {m : ServerMirror} {t : MovementPacketTracker} (state : PlayerMovementState)
    (hground : m.onGround = t.lastOnGround)
    (hcollision : m.horizontalCollision = t.lastHorizontalCollision) (p r : Bool) :
    (m.told state p r (flagsChanged t state)).onGround = state.onGround ∧
      (m.told state p r (flagsChanged t state)).horizontalCollision = state.horizontalCollision := by
  unfold ServerMirror.told
  dsimp only
  split
  · exact ⟨rfl, rfl⟩
  · rename_i hnone
    rw [Bool.or_eq_true, not_or] at hnone
    have hflags := Bool.eq_false_iff.mpr hnone.2
    unfold flagsChanged at hflags
    obtain ⟨h, h'⟩ := Bool.or_eq_false_iff.mp hflags
    rw [hground, hcollision, bne_eq_false_iff_eq.mp h, bne_eq_false_iff_eq.mp h']
    exact ⟨rfl, rfl⟩

theorem saturatingSucc_toNat {n : UInt8} (h : n.toNat < forcedPositionInterval.toNat) :
    (MovementPacketTracker.saturatingSucc n).toNat = n.toNat + 1 := by
  have hlt : n.toNat < 20 := h
  have hne : n ≠ 255 := by
    rintro rfl
    exact absurd hlt (by decide)
  rw [MovementPacketTracker.saturatingSucc, if_neg hne, UInt8.toNat_add]
  change (n.toNat + 1) % 2 ^ 8 = _
  omega

/-- What a call amounts to: the frames before the movement, and then the movement, unless there
is no pose to compare with. -/
structure Called (s : MirroredTracker) (state : PlayerMovementState) (input : MovementInput)
    (before more : List Bytes) (t t' : MovementPacketTracker) : Prop where
  sending : Sending s before t
  input : t.lastInput = toPacket input
  sprinting : t.sprinting = state.sprinting
  movement : t.lastPose = none ∧ more = [] ∧ t' = t.reset state.pose ∨
    ∃ last, t.lastPose = some last ∧
      Tells more state (positionChanged t last state) (rotationChanged last state)
        (flagsChanged t state) ∧
      Remembers t last state (positionChanged t last state) (rotationChanged last state) t'

theorem called_of_framesWithFlight {s : MirroredTracker} (h : s.Kept) {state : PlayerMovementState}
    (hfinite : state.pose.isFinite = true) (transitions : List InputTransition)
    (input : MovementInput) (entityId : Int32) (flightChanges : List Bool) :
    ∃ before more t t', MovementPacketTracker.framesWithFlight state transitions input entityId
        flightChanges s.tracker = .ok (before ++ more) t' ∧
      Called s state input before more t t' := by
  have hbefore := sending_before h.sending transitions input flightChanges state.sprinting entityId
  have hspec : wp (MovementPacketTracker.framesWithFlight state transitions input entityId
      flightChanges) (.yields fun frames t' => ∃ before more t, frames = before ++ more ∧
        Called s state input before more t t') s.tracker := by
    unfold MovementPacketTracker.framesWithFlight
    simp only [← Mut.bind_assoc] at hbefore ⊢
    refine wp_yields_bind hbefore fun before t hsent => ?_
    obtain ⟨hsending, hinput, hsprinting⟩ := hsent
    rw [wp_bind, wp_get]
    dsimp only
    cases hlast : t.lastPose with
    | none =>
      exact ⟨before, [], t, (List.append_nil before).symm, hsending, hinput, hsprinting,
        .inl ⟨hlast, rfl, rfl⟩⟩
    | some last =>
      refine wp_mono (pushMovement_spec hfinite hlast before) ?_ (fun _ _ => id) id
      intro frames t' hmoved
      obtain ⟨more, hmore, htells, hremembers⟩ := hmoved
      exact ⟨before, more, t, hmore, hsending, hinput, hsprinting,
        .inr ⟨last, hlast, htells, hremembers⟩⟩
  obtain ⟨frames, t', hrun, before, more, t, rfl, hcalled⟩ := exists_of_wp_yields hspec
  exact ⟨before, more, t, t', hrun, hcalled⟩

/-- The state after a call. -/
def MirroredTracker.after (s : MirroredTracker) (frames : List Bytes) (t : MovementPacketTracker) :
    MirroredTracker :=
  { s with
    tracker := t
    mirror := frames.foldl ServerMirror.receive s.mirror
    sent := s.sent ++ frames
    sincePosition := if frames.any sendsPosition then 0 else s.sincePosition + 1 }

section
variable {s : MirroredTracker} {state : PlayerMovementState} {input : MovementInput}
  {before more : List Bytes} {t t' : MovementPacketTracker}

theorem Called.kept_of_none (h : s.Kept) (hcalled : Called s state input before [] t t')
    (hlast : t.lastPose = none) (ht' : t' = t.reset state.pose) :
    (s.after (before ++ []) t').Kept ∧ s.placed = false := by
  have htracker := hcalled.sending.tracker
  have hplaced : s.placed = false := by
    by_contra hplaced
    obtain ⟨last, hat⟩ := h.placed (Bool.not_eq_false _ ▸ hplaced)
    have hsame := congrArg MovementPacketTracker.lastPose htracker
    rw [hlast, hat.lastPose] at hsame
    cases hsame
  subst ht'
  rw [List.append_nil]
  refine ⟨⟨?_, ?_, ?_, ?_, hcalled.sending.inputs, hcalled.sending.sprints, fun h => ?_⟩, hplaced⟩
  · exact congrArg ServerMirror.input hcalled.sending.mirror
  · exact congrArg ServerMirror.sprinting hcalled.sending.mirror
  · exact (congrArg ServerMirror.onGround hcalled.sending.mirror).trans
      (h.onGround.trans (congrArg MovementPacketTracker.lastOnGround htracker).symm)
  · exact (congrArg ServerMirror.horizontalCollision hcalled.sending.mirror).trans
      (h.horizontalCollision.trans
        (congrArg MovementPacketTracker.lastHorizontalCollision htracker).symm)
  · rw [MirroredTracker.after, hplaced] at h
    cases h

theorem of_not_positionChanged {last : LocalPlayerPose}
    (hstate : state.pose.isFinite = true) (hlast : last.isFinite = true)
    (h : positionChanged t last state = false) :
    (distanceSquared state.pose last).le positionEpsilonSquared = true ∧
      (MovementPacketTracker.saturatingSucc t.positionReminder).toNat <
        forcedPositionInterval.toNat := by
  unfold positionChanged at h
  obtain ⟨hnear, hrecent⟩ := Bool.or_eq_false_iff.mp h
  refine ⟨F64.le_of_not_lt (distance_not_nan hstate hlast) (by decide) hnear, ?_⟩
  exact UInt8.lt_iff_toNat_lt.mp (UInt8.not_le.mp (of_decide_eq_false hrecent))

theorem of_not_rotationChanged {last : LocalPlayerPose} (h : rotationChanged last state = false) :
    last.yaw.equals state.pose.yaw = true ∧ last.pitch.equals state.pose.pitch = true := by
  unfold rotationChanged at h
  obtain ⟨hyaw, hpitch⟩ := Bool.or_eq_false_iff.mp h
  rw [F32.equals_comm last.yaw, F32.equals_comm last.pitch]
  exact ⟨by simpa using hyaw, by simpa using hpitch⟩

theorem isFinite_ite (c : Bool) {a b : LocalPlayerPose} (ha : a.isFinite = true)
    (hb : b.isFinite = true) (r : Bool) :
    ({ b with
      x := if c then a.x else b.x
      y := if c then a.y else b.y
      z := if c then a.z else b.z
      yaw := if r then a.yaw else b.yaw
      pitch := if r then a.pitch else b.pitch } : LocalPlayerPose).isFinite = true := by
  unfold LocalPlayerPose.isFinite at *
  simp only [Bool.and_eq_true] at *
  cases c <;> cases r <;> simp [ha, hb]

/-- Where the player is after a movement. -/
theorem PlacedAt.moved {last : LocalPlayerPose} (h : PlacedAt s last)
    (hsending : Sending s before t) (hfinite : state.pose.isFinite = true)
    (htells : Tells more state (positionChanged t last state) (rotationChanged last state)
      (flagsChanged t state))
    (hremembers : Remembers t last state (positionChanged t last state)
      (rotationChanged last state) t') :
    ∃ last', PlacedAt (s.after (before ++ more) t') last' ∧
      (distanceSquared state.pose last').le positionEpsilonSquared = true ∧
      last'.yaw.equals state.pose.yaw = true ∧ last'.pitch.equals state.pose.pitch = true := by
  have hmirror : (s.after (before ++ more) t').mirror = _ :=
    ((List.foldl_append ..).trans (htells.mirror _)).trans
      (congrArg (ServerMirror.told · state _ _ _) hsending.mirror)
  have hreminder : t.positionReminder.toNat = s.sincePosition :=
    (congrArg (UInt8.toNat <| MovementPacketTracker.positionReminder ·) hsending.tracker).trans
      h.reminder
  have hsent := congrArg MovementPacketTracker.lastPositionSent hsending.tracker
  have hsince : (s.after (before ++ more) t').sincePosition =
      if positionChanged t last state then 0 else s.sincePosition + 1 := by
    change (if (before ++ more).any sendsPosition = true then 0 else s.sincePosition + 1) = _
    rw [List.any_append, hsending.still, htells.position, Bool.false_or]
  have hnear := of_not_positionChanged (t := t) hfinite h.finite
  have hsame := @of_not_rotationChanged state last
  have hsucc := saturatingSucc_toNat (hreminder.symm ▸ h.recent)
  have hpose : state.pose.yaw.isFinite = true ∧ state.pose.pitch.isFinite = true := by
    unfold LocalPlayerPose.isFinite at hfinite
    simp only [Bool.and_eq_true] at hfinite
    exact ⟨hfinite.1.1.2, hfinite.1.2⟩
  obtain ⟨hlast', hreminder', hsent', -, -, -, -⟩ := hremembers
  generalize positionChanged t last state = p, rotationChanged last state = r at *
  refine ⟨_, ⟨hlast', isFinite_ite p hfinite h.finite r, ?_, ?_, ?_, ?_, ?_, ?_⟩, ?_, ?_, ?_⟩
  · rw [hmirror]
    change (if p = true then placeOf state.pose else s.mirror.place) = _
    rw [h.place]
    cases p <;> rfl
  · rw [hmirror]
    change (if r = true then state.pose.yaw else s.mirror.yaw) = _
    rw [h.yaw]
  · rw [hmirror]
    change (if r = true then state.pose.pitch else s.mirror.pitch) = _
    rw [h.pitch]
  · rw [hsince]
    change t'.positionReminder.toNat = _
    rw [hreminder']
    cases p with
    | true => rfl
    | false => exact hsucc.trans (congrArg (· + 1) hreminder)
  · rw [hsince]
    cases p with
    | true => exact Nat.zero_lt_succ 19
    | false => exact lt_of_eq_of_lt (hsucc.trans (congrArg (· + 1) hreminder)).symm (hnear rfl).2
  · rw [hmirror]
    change ∀ place, t'.lastPositionSent = some place →
      place = if p = true then placeOf state.pose else s.mirror.place
    rw [hsent', hsent]
    intro place hplace
    cases p with
    | true => exact (Option.some.inj hplace).symm
    | false => exact h.sent place hplace
  · cases p with
    | true => exact distance_same hfinite rfl rfl rfl
    | false => exact (hnear rfl).1
  · cases r with
    | true => exact F32.equals_self hpose.1
    | false => exact (hsame rfl).1
  · cases r with
    | true => exact F32.equals_self hpose.2
    | false => exact (hsame rfl).2

theorem Called.kept_of_some {last : LocalPlayerPose} (h : s.Kept)
    (hcalled : Called s state input before more t t')
    (htells : Tells more state (positionChanged t last state) (rotationChanged last state)
      (flagsChanged t state))
    (hremembers : Remembers t last state (positionChanged t last state)
      (rotationChanged last state) t')
    (hplaced : s.placed = true → ∃ last', PlacedAt (s.after (before ++ more) t') last') :
    (s.after (before ++ more) t').Kept := by
  have htracker := hcalled.sending.tracker
  have hmirror : (s.after (before ++ more) t').mirror = _ :=
    ((List.foldl_append ..).trans (htells.mirror _)).trans
      (congrArg (ServerMirror.told · state _ _ _) hcalled.sending.mirror)
  obtain ⟨hground, hcollision⟩ := told_flags state
    (m := { s.mirror with input := t.lastInput, sprinting := t.sprinting }) (t := t)
    (h.onGround.trans (congrArg MovementPacketTracker.lastOnGround htracker).symm)
    (h.horizontalCollision.trans
      (congrArg MovementPacketTracker.lastHorizontalCollision htracker).symm)
    (positionChanged t last state) (rotationChanged last state)
  refine ⟨?_, ?_, ?_, ?_, ?_, ?_, hplaced⟩
  · rw [hmirror]
    exact hremembers.input.symm
  · rw [hmirror]
    exact hremembers.sprinting.symm
  · rw [hmirror]
    exact hground.trans hremembers.onGround.symm
  · rw [hmirror]
    exact hcollision.trans hremembers.horizontalCollision.symm
  · change Changes _ ((s.sent ++ (before ++ more)).filterMap sentInput?) t'.lastInput
    rw [← List.append_assoc, List.filterMap_append, htells.inputs, List.append_nil, hremembers.input]
    exact hcalled.sending.inputs
  · change Changes _ ((s.sent ++ (before ++ more)).filterMap sentCommand?) (actionOf t'.sprinting)
    rw [← List.append_assoc, List.filterMap_append, htells.commands, List.append_nil,
      hremembers.sprinting]
    exact hcalled.sending.sprints

end

variable {s : MirroredTracker} {state : PlayerMovementState}

/-- A call goes well, and keeps both sides together. -/
theorem MirroredTracker.Kept.frames (h : s.Kept) (hfinite : state.pose.isFinite = true)
    (transitions : List InputTransition) (input : MovementInput) (entityId : Int32)
    (flightChanges : List Bool) :
    ∃ t, s.next (.frames state transitions input entityId flightChanges) = some t ∧ t.Kept ∧
      t.placed = s.placed ∧ (s.placed = true → t.Agrees state input) := by
  obtain ⟨before, more, t, t', hrun, hcalled⟩ :=
    called_of_framesWithFlight h hfinite transitions input entityId flightChanges
  refine ⟨s.after (before ++ more) t', ?_, ?_⟩
  · simp only [MirroredTracker.next, hrun]
    rfl
  obtain ⟨hlast, rfl, ht'⟩ | ⟨last, hlast, htells, hremembers⟩ := hcalled.movement
  · obtain ⟨hkept, hplaced⟩ := hcalled.kept_of_none h hlast ht'
    refine ⟨hkept, rfl, fun htrue => ?_⟩
    rw [hplaced] at htrue
    cases htrue
  have hmoved : s.placed = true → ∃ last', PlacedAt (s.after (before ++ more) t') last' ∧
      (distanceSquared state.pose last').le positionEpsilonSquared = true ∧
      last'.yaw.equals state.pose.yaw = true ∧ last'.pitch.equals state.pose.pitch = true := by
    intro hplaced
    obtain ⟨old, hat⟩ := h.placed hplaced
    have hsame := congrArg MovementPacketTracker.lastPose hcalled.sending.tracker
    rw [hlast, hat.lastPose] at hsame
    cases hsame
    exact hat.moved hcalled.sending hfinite htells hremembers
  have hkept := hcalled.kept_of_some h htells hremembers fun hplaced =>
    (hmoved hplaced).imp fun _ h => h.1
  refine ⟨hkept, rfl, fun hplaced => ?_⟩
  obtain ⟨last', hat, hnear, hyaw, hpitch⟩ := hmoved hplaced
  exact {
    input := hkept.input.trans (hremembers.input.trans hcalled.input)
    sprinting := hkept.sprinting.trans (hremembers.sprinting.trans hcalled.sprinting)
    yaw := hat.yaw ▸ hyaw
    pitch := hat.pitch ▸ hpitch
    onGround := hkept.onGround.trans hremembers.onGround
    horizontalCollision := hkept.horizontalCollision.trans hremembers.horizontalCollision
    place := ⟨last', hat.lastPose, hat.place, hnear⟩
    sent := hat.sent
    recent := hat.recent
    inputs := hkept.inputs.isChain.tail
    sprints := hkept.sprints.isChain.tail }

theorem MirroredTracker.Kept.next (h : s.Kept) {call : TrackerCall} (hfinite : call.Finite)
    {t : MirroredTracker} (hstep : s.next call = some t) :
    t.Kept ∧ (s.placed = true ∨ (∃ pose, call = .reset pose) → t.placed = true) := by
  cases call with
  | reset pose =>
    obtain ⟨u, hu, hkept, hplaced⟩ := h.reset hfinite
    cases hu.symm.trans hstep
    exact ⟨hkept, fun _ => hplaced⟩
  | frames state transitions input entityId flightChanges =>
    obtain ⟨u, hu, hkept, hplaced, -⟩ := h.frames hfinite transitions input entityId flightChanges
    cases hu.symm.trans hstep
    refine ⟨hkept, fun hor => ?_⟩
    obtain hs | ⟨pose, hcall⟩ := hor
    · exact hplaced.trans hs
    · cases hcall

theorem kept_of_run {calls : List TrackerCall} {t : MirroredTracker} (h : s.Kept)
    (hrun : Run (fun s call t => s.next call = some t ∧ call.Finite) s calls t) :
    t.Kept ∧ (s.placed = true ∨ (∃ pose, .reset pose ∈ calls) → t.placed = true) := by
  induction hrun with
  | nil s => exact ⟨h, fun hor => hor.elim id fun ⟨_, hmem⟩ => absurd hmem List.not_mem_nil⟩
  | @cons s u t call rest hstep _ ih =>
    obtain ⟨hkept, hplaced⟩ := h.next hstep.2 hstep.1
    obtain ⟨hkept', hplaced'⟩ := ih hkept
    refine ⟨hkept', fun hor => ?_⟩
    obtain hs | ⟨pose, hmem⟩ := hor
    · exact hplaced' (.inl (hplaced (.inl hs)))
    · obtain rfl | hmem := List.mem_cons.mp hmem
      · exact hplaced' (.inl (hplaced (.inr ⟨pose, rfl⟩)))
      · exact hplaced' (.inr ⟨pose, hmem⟩)

/-- After every call that follows a reset, the server sees the player as the client does, for
finite poses, which is all that the simulation has. -/
theorem mirror_agrees {calls : List TrackerCall} {s : MirroredTracker}
    (hrun : Run (fun s call t => s.next call = some t ∧ call.Finite) .initial calls s)
    {pose : LocalPlayerPose} (hreset : .reset pose ∈ calls) {state : PlayerMovementState}
    (hfinite : state.pose.isFinite = true) (transitions : List InputTransition)
    (input : MovementInput) (entityId : Int32) (flightChanges : List Bool) :
    ∃ t, s.next (.frames state transitions input entityId flightChanges) = some t ∧
      t.Agrees state input := by
  obtain ⟨hkept, hplaced⟩ := kept_of_run .initial hrun
  obtain ⟨t, hstep, -, -, hagrees⟩ := hkept.frames hfinite transitions input entityId flightChanges
  exact ⟨t, hstep, hagrees (hplaced (.inr ⟨pose, hreset⟩))⟩

/-- The player has come to the server at `(0, 64, 0)`. -/
def spawnPose : LocalPlayerPose :=
  ⟨.zero, ⟨0x4050000000000000⟩, .zero, .zero, .zero, ⟨0x3ff9eb851eb851ec⟩⟩

/-- The player has sprinted to `(1, 64, 0)` and looks elsewhere. -/
def sprintState : PlayerMovementState :=
  ⟨{ spawnPose with x := .one, yaw := .ninety }, true, false, true⟩

def forward : MovementInput := { MovementInput.default with forward := true, sprint := true }

theorem mirror_agrees_sprint : ∃ s t : MirroredTracker,
    Run (fun s call t => s.next call = some t ∧ call.Finite) .initial [.reset spawnPose] s ∧
      s.next (.frames sprintState [] forward 9 []) = some t ∧ t.Agrees sprintState forward := by
  have hrun : Run (fun (s : MirroredTracker) call t => s.next call = some t ∧ call.Finite)
      .initial [.reset spawnPose] _ := .single ⟨rfl, (by decide : spawnPose.isFinite = true)⟩
  have hfinite : sprintState.pose.isFinite = true := by decide
  obtain ⟨t, hstep, hagrees⟩ := mirror_agrees hrun List.mem_cons_self hfinite [] forward 9 []
  exact ⟨_, t, hrun, hstep, hagrees⟩

end Cubic.Network
