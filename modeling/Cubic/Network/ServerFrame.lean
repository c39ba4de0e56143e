import Cubic.Codec.VarIntAgreement
import Cubic.Network.MovementTracker

/-!
# Frames of movement as a server reads them
-/

namespace Cubic.Network

open World

set_option autoImplicit false

inductive ServerFrame where
  | input (input : PlayerInput)
  | command (action : PlayerCommandAction)
  | abilities (flying : Bool)
  | position (place : Vec3d) (onGround horizontalCollision : Bool)
  | positionRotation (place : Vec3d) (yaw pitch : F32) (onGround horizontalCollision : Bool)
  | rotation (yaw pitch : F32) (onGround horizontalCollision : Bool)
  | status (onGround horizontalCollision : Bool)

def readVec3d : ReaderM Vec3d := do
  let x ← readF64
  let y ← readF64
  let z ← readF64
  pure ⟨⟨x⟩, ⟨y⟩, ⟨z⟩⟩

def testBit (byte : UInt8) (i : UInt8) : Bool := (byte >>> i) &&& 1 = 1

/-- The packets the tracker sends; of another nothing is read. -/
def readServerPacket (id : Int32) : ReaderM (Option ServerFrame) :=
  if id = 0x2b then do
    let flags ← readU8
    pure (some (.input ⟨testBit flags 0, testBit flags 1, testBit flags 2, testBit flags 3,
      testBit flags 4, testBit flags 5, testBit flags 6⟩))
  else if id = 0x2a then do
    let _entity ← readVarInt
    let action ← readVarInt
    let _data ← readVarInt
    pure (if action = 1 then some (.command .startSprinting)
      else if action = 2 then some (.command .stopSprinting) else none)
  else if id = 0x28 then do
    let flags ← readU8
    pure (some (.abilities (testBit flags 1)))
  else if id = 0x1e then do
    let place ← readVec3d
    let flags ← readU8
    pure (some (.position place (testBit flags 0) (testBit flags 1)))
  else if id = 0x1f then do
    let place ← readVec3d
    let yaw ← readF32
    let pitch ← readF32
    let flags ← readU8
    pure (some (.positionRotation place ⟨yaw⟩ ⟨pitch⟩ (testBit flags 0) (testBit flags 1)))
  else if id = 0x20 then do
    let yaw ← readF32
    let pitch ← readF32
    let flags ← readU8
    pure (some (.rotation ⟨yaw⟩ ⟨pitch⟩ (testBit flags 0) (testBit flags 1)))
  else if id = 0x21 then do
    let flags ← readU8
    pure (some (.status (testBit flags 0) (testBit flags 1)))
  else pure none

/-- The length of the frame, and its packet. -/
def readServerFrame : ReaderM (Option ServerFrame) := do
  let _length ← readVarInt
  let id ← readVarInt
  readServerPacket id

def serverFrame? (frame : Bytes) : Option ServerFrame :=
  match readServerFrame (.new frame) with
  | .ok packet _ => packet
  | _ => none

/-- The frame is made, and the server reads `packet` in it. -/
def Sends (made : Except MovementEncodeError Bytes) (packet : ServerFrame) : Prop :=
  ∃ bytes, made = .ok bytes ∧ serverFrame? bytes = some packet

theorem sends_frame {id : Int32} {body : Bytes} {packet : ServerFrame} (hlength : body.length ≤ 64)
    (hreads : Reads (readServerPacket id) body (some packet)) :
    Sends (frame (writeVarInt id ++ body)) packet := by
  have hid := length_writeVarInt_le id
  have hsize : (writeVarInt id ++ body).length ≤ 69 := by
    rw [List.length_append]
    omega
  refine ⟨writeVarInt (.ofNat (writeVarInt id ++ body).length) ++ (writeVarInt id ++ body), ?_, ?_⟩
  · have hlimit : ¬ (writeVarInt id ++ body).length > min maxBootstrapFrameSize
        minecraftMaxFrameSize := by
      rw [maxBootstrapFrameSize, Nat.min_self, minecraftMaxFrameSize]
      omega
    have hi32 : (writeVarInt id ++ body).length ≤ i32Max := by
      rw [i32Max]
      omega
    simp only [frame, encodeFrame, if_neg hlimit, writeLength, if_pos hi32]
    rfl
  · have hframe : ReadsAll readServerFrame _ (some packet) :=
      ((reads_varInt (.ofNat (writeVarInt id ++ body).length)).bind
        ((reads_varInt id).bind hreads)).all
    unfold serverFrame?
    rw [hframe.run]

theorem testBit_movementFlags (onGround horizontalCollision : Bool) :
    testBit (movementFlags onGround horizontalCollision) 0 = onGround ∧
      testBit (movementFlags onGround horizontalCollision) 1 = horizontalCollision := by
  cases onGround <;> cases horizontalCollision <;> decide

theorem reads_vec3d (v : Vec3d) :
    Reads readVec3d (writeF64 v.x.bits ++ (writeF64 v.y.bits ++ writeF64 v.z.bits)) v :=
  (reads_u64 v.x.bits).bind ((reads_u64 v.y.bits).bind
    ((reads_u64 v.z.bits).map fun z => (⟨v.x, v.y, ⟨z⟩⟩ : Vec3d)))

/-- The two flags at the end of every packet of movement. -/
theorem reads_movementFlags (onGround horizontalCollision : Bool)
    (packet : Bool → Bool → ServerFrame) :
    Reads (do
      let flags ← readU8
      pure (some (packet (testBit flags 0) (testBit flags 1))))
      (writeU8 (movementFlags onGround horizontalCollision))
      (some (packet onGround horizontalCollision)) := by
  have hreads := (reads_u8 (movementFlags onGround horizontalCollision)).map fun flags =>
    some (packet (testBit flags 0) (testBit flags 1))
  obtain ⟨hground, hcollision⟩ := testBit_movementFlags onGround horizontalCollision
  rwa [hground, hcollision] at hreads

theorem testBit_inputFlags (input : PlayerInput) : (⟨testBit input.flags 0, testBit input.flags 1,
    testBit input.flags 2, testBit input.flags 3, testBit input.flags 4, testBit input.flags 5,
    testBit input.flags 6⟩ : PlayerInput) = input := by
  obtain ⟨forward, backward, left, right, jump, sneak, sprint⟩ := input
  revert forward backward left right jump sneak sprint
  decide

theorem sends_input (input : PlayerInput) : Sends (encodePlayPlayerInput input) (.input input) := by
  refine sends_frame (Nat.le_add_left 1 63) ?_
  have hreads := (reads_u8 input.flags).map fun flags => some (ServerFrame.input ⟨testBit flags 0,
    testBit flags 1, testBit flags 2, testBit flags 3, testBit flags 4, testBit flags 5,
    testBit flags 6⟩)
  rwa [testBit_inputFlags] at hreads

theorem sends_abilities (flying : Bool) :
    Sends (encodePlayPlayerAbilities flying) (.abilities flying) := by
  refine sends_frame (Nat.le_add_left 1 63) ?_
  have hreads := (reads_u8 (flying.toUInt8 <<< 1)).map fun flags =>
    some (ServerFrame.abilities (testBit flags 1))
  have hbit : testBit (flying.toUInt8 <<< 1) 1 = flying := by cases flying <;> decide
  rwa [hbit] at hreads

theorem sends_command (entityId : Int32) (action : PlayerCommandAction) :
    Sends (encodePlayPlayerCommand entityId action) (.command action) := by
  unfold encodePlayPlayerCommand
  dsimp only
  rw [List.append_assoc, List.append_assoc]
  refine sends_frame ?_ ?_
  · rw [List.length_append, List.length_append]
    refine Nat.le_trans (Nat.add_le_add (length_writeVarInt_le entityId)
      (Nat.add_le_add (length_writeVarInt_le _) (length_writeVarInt_le 0))) ?_
    decide
  · cases action with
    | startSprinting =>
      exact (reads_varInt entityId).bind ((reads_varInt 1).bind ((reads_varInt 0).map fun _ => _))
    | stopSprinting =>
      exact (reads_varInt entityId).bind ((reads_varInt 2).bind ((reads_varInt 0).map fun _ => _))

theorem sends_status (onGround horizontalCollision : Bool) :
    Sends (encodePlayMoveStatus onGround horizontalCollision)
      (.status onGround horizontalCollision) :=
  sends_frame (Nat.le_add_left 1 63) (reads_movementFlags onGround horizontalCollision _)

theorem sends_rotation {yaw pitch : F32} (hyaw : yaw.isFinite = true) (hpitch : pitch.isFinite = true)
    (onGround horizontalCollision : Bool) :
    Sends (encodePlayMoveRotation yaw pitch onGround horizontalCollision)
      (.rotation yaw pitch onGround horizontalCollision) := by
  unfold encodePlayMoveRotation
  rw [hyaw, hpitch, List.append_assoc, List.append_assoc]
  exact sends_frame (Nat.le_add_left 9 55) ((reads_u32 yaw.bits).bind ((reads_u32 pitch.bits).bind
    (reads_movementFlags onGround horizontalCollision _)))

theorem sends_position {x y z : F64} (hx : x.isFinite = true) (hy : y.isFinite = true)
    (hz : z.isFinite = true) (onGround horizontalCollision : Bool) :
    Sends (encodePlayMovePosition x y z onGround horizontalCollision)
      (.position ⟨x, y, z⟩ onGround horizontalCollision) := by
  unfold encodePlayMovePosition
  rw [hx, hy, hz]
  simp only [List.append_assoc (writeVarInt 0x1e)]
  exact sends_frame (Nat.le_add_left 25 39) ((reads_vec3d ⟨x, y, z⟩).bind
    (reads_movementFlags onGround horizontalCollision _))

theorem sends_positionRotation {x y z : F64} {yaw pitch : F32} (hx : x.isFinite = true)
    (hy : y.isFinite = true) (hz : z.isFinite = true) (hyaw : yaw.isFinite = true)
    (hpitch : pitch.isFinite = true) (onGround horizontalCollision : Bool) :
    Sends (encodePlayMovePositionRotation x y z yaw pitch onGround horizontalCollision)
      (.positionRotation ⟨x, y, z⟩ yaw pitch onGround horizontalCollision) := by
  unfold encodePlayMovePositionRotation
  rw [hx, hy, hz, hyaw, hpitch]
  simp only [List.append_assoc]
  exact sends_frame (Nat.le_add_left 33 31) ((reads_vec3d ⟨x, y, z⟩).bind
    ((reads_u32 yaw.bits).bind ((reads_u32 pitch.bits).bind
      (reads_movementFlags onGround horizontalCollision _))))

end Cubic.Network
