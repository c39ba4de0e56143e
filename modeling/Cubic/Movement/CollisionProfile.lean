import Cubic.Movement.Aabb
import Cubic.Play.BlockUpdate
import Cubic.Version.GameData
import Cubic.Version.ShapeData

/-!
# Block collision profiles (`movement.rs`, `collision_vanilla.rs`)

The table of shapes that `collision_vanilla.rs` keeps by block name, and which states are
scaffolding, are parameters: nothing here depends on what they hold. Friction and the
marks of approximate states are left out, since no collision test reads them.
-/

namespace Cubic.Movement

set_option autoImplicit false

open Cubic.Version

instance : LinearOrder RuntimeBlockStateId :=
  LinearOrder.lift' RuntimeBlockStateId.id fun a b h => by cases a; cases b; cases h; rfl

def maxCollisionBoxesPerState : Nat := 8

inductive CollisionShape where
  | empty
  | fullCube
  | boxes (boxes : List Aabb)
  deriving DecidableEq

/-- All boxes of a shape. -/
def CollisionShape.all : CollisionShape → List Aabb
  | empty => []
  | fullCube => [fullCubeBounds]
  | boxes all => all

/-! ### Offsets -/

inductive CollisionOffset where
  | none
  | deterministicHorizontal (max : UInt8)
  deriving DecidableEq

namespace CollisionOffset

def zero : Vec3d := ⟨0, 0, 0⟩

/-- `f64::clamp` by a number and its negation. -/
def clamp (a maximum : ℚ) : ℚ := max (-maximum) (min a maximum)

/-- The seed of a column, in wrapping arithmetic. -/
def seed (x z : Int32) : Int64 :=
  let mixed : Int64 := (x * 3129871).toInt64 ^^^ (z.toInt64 * 116129781)
  (mixed * mixed * 42317861 + mixed * 11) >>> 16

/-- Four bits of the seed as an offset between minus and plus a quarter. -/
def component (seed shift : Int64) : ℚ :=
  ((((seed >>> shift) &&& 15).toInt : ℚ) / 15 - 1 / 2) * (1 / 2)

def «at» (offset : CollisionOffset) (x z : Int32) : Vec3d :=
  match offset with
  | none => zero
  | deterministicHorizontal max =>
    let maximum : ℚ := max.toNat / 16
    ⟨clamp (component (seed x z) 0) maximum, 0, clamp (component (seed x z) 8) maximum⟩

def maximumHorizontal : CollisionOffset → ℚ
  | none => 0
  | deterministicHorizontal max => max.toNat / 16

end CollisionOffset

/-! ### Rules -/

inductive CollisionRuleSet where
  | java26_1_2
  | conservative
  deriving DecidableEq

/-- Shapes by block path and properties. -/
abbrev ShapeTable := String → OrderedMap String String → CollisionShape

namespace CollisionRuleSet

def forVersion (version : MinecraftVersionId) : CollisionRuleSet :=
  if version.text = "26.1.2" then java26_1_2 else conservative

def shape (rules : CollisionRuleSet) (classifyShape : ShapeTable) : ShapeTable :=
  match rules with
  | java26_1_2 => classifyShape
  | conservative => fun path _ =>
    if ["air", "cave_air", "void_air"].contains path then .empty else .fullCube

def offset (rules : CollisionRuleSet) (path : String) : CollisionOffset :=
  if rules = java26_1_2 ∧ ["bamboo", "bamboo_sapling"].contains path then
    .deterministicHorizontal 4
  else .none

end CollisionRuleSet

/-! ### Profiles -/

def collisionShapeFromData : List ShapeDataBox → CollisionShape
  | [] => .empty
  | [⟨0, 0, 0, 1, 1, 1⟩] => .fullCube
  | boxes => .boxes (boxes.map fun b => ⟨⟨b.minX, b.minY, b.minZ⟩, ⟨b.maxX, b.maxY, b.maxZ⟩⟩)

/-- The smallest box around both. -/
def Aabb.join (a b : Aabb) : Aabb :=
  ⟨⟨a.min.x ⊓ b.min.x, a.min.y ⊓ b.min.y, a.min.z ⊓ b.min.z⟩,
    ⟨a.max.x ⊔ b.max.x, a.max.y ⊔ b.max.y, a.max.z ⊔ b.max.z⟩⟩

def Aabb.widened (b : Aabb) (horizontal : ℚ) : Aabb :=
  ⟨⟨b.min.x - horizontal, b.min.y, b.min.z - horizontal⟩,
    ⟨b.max.x + horizontal, b.max.y, b.max.z + horizontal⟩⟩

/-- The boxes of a shape that the envelope goes around. -/
def CollisionShape.envelopeBoxes : CollisionShape → List Aabb
  | boxes all => all.take maxCollisionBoxesPerState
  | _ => []

def collisionShapeEnvelope (shapes : List CollisionShape) (maximumHorizontalOffset : ℚ) : Aabb :=
  ((shapes.flatMap CollisionShape.envelopeBoxes).foldl Aabb.join fullCubeBounds).widened
    maximumHorizontalOffset

structure BlockCollisionProfile where
  states : OrderedMap RuntimeBlockStateId CollisionShape
  offsets : OrderedMap RuntimeBlockStateId CollisionOffset
  sourceShapeBounds : Aabb

namespace BlockCollisionProfile

/-- What follows the colon of an identifier, or all of a text without one. -/
def blockPath (text : String) : String :=
  match splitOnce ':' text.toList with
  | some (_, path) => String.ofList path
  | none => text

/-- The generated shape of a state, if block and properties are those of the state. -/
def generatedState (generated : Option ShapeData) (block : BlockDefinition) (state : BlockState) :
    Option BlockStateShape :=
  generated.bind fun data => (data.state state.stateId).filter fun candidate =>
    candidate.block = block.identifier.text ∧ candidate.properties = state.properties

def stateShape (rules : CollisionRuleSet) (classifyShape : ShapeTable)
    (scaffolding : RuntimeBlockStateId → Bool) (generated : Option ShapeData)
    (block : BlockDefinition) (state : BlockState) : CollisionShape :=
  if scaffolding ⟨state.stateId⟩ then .empty
  else match generated, generatedState generated block state with
    | some data, some generatedState =>
      collisionShapeFromData ((data.shape generatedState.collisionShape).getD [])
    | _, _ => rules.shape classifyShape (blockPath block.identifier.text) state.properties

def fromGameData (version : MinecraftVersionId) (classifyShape : ShapeTable)
    (scaffolding : RuntimeBlockStateId → Bool) (generated : Option ShapeData)
    (blocks : List BlockDefinition) : BlockCollisionProfile :=
  let rules := CollisionRuleSet.forVersion version
  let states : OrderedMap RuntimeBlockStateId CollisionShape :=
    .ofList (blocks.flatMap fun block => block.states.map fun state =>
      (⟨state.stateId⟩, stateShape rules classifyShape scaffolding generated block state))
  let offsets : OrderedMap RuntimeBlockStateId CollisionOffset :=
    .ofList (blocks.flatMap fun block => block.states.map fun state =>
      (⟨state.stateId⟩, rules.offset (blockPath block.identifier.text)))
  { states, offsets,
    sourceShapeBounds := collisionShapeEnvelope states.values
      ((offsets.values.map CollisionOffset.maximumHorizontal).foldl max 0) }

def synthetic (states : List (RuntimeBlockStateId × CollisionShape)) : BlockCollisionProfile :=
  let shapes : OrderedMap RuntimeBlockStateId CollisionShape := .ofList states
  { states := shapes
    offsets := .ofList (states.map fun e => (e.1, .none))
    sourceShapeBounds := collisionShapeEnvelope shapes.values 0 }

def shape (profile : BlockCollisionProfile) (state : RuntimeBlockStateId) : CollisionShape :=
  (profile.states.lookup state).getD .fullCube

def offset (profile : BlockCollisionProfile) (state : RuntimeBlockStateId) (x z : Int32) : Vec3d :=
  ((profile.offsets.lookup state).getD .none).at x z

/-- A box of a state's shape, where a block in the state puts it. -/
def worldBox (profile : BlockCollisionProfile) (state : RuntimeBlockStateId)
    (position : BlockCoordinates) (box : Aabb) : Aabb :=
  let offset := profile.offset state position.x position.z
  box.translated (position.x.toInt + offset.x) (position.y.toInt + offset.y)
    (position.z.toInt + offset.z)

def overlapsBlock (profile : BlockCollisionProfile) (bounds : Aabb) (state : RuntimeBlockStateId)
    (position : BlockCoordinates) : Bool :=
  let overlapsBox (box : Aabb) : Bool := aabbsOverlap bounds (profile.worldBox state position box)
  match profile.shape state with
  | .empty => false
  | .fullCube => overlapsBox fullCubeBounds
  | .boxes boxes => boxes.any overlapsBox

end BlockCollisionProfile

end Cubic.Movement
