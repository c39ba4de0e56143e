import Cubic.Interaction.Digging
import Cubic.Movement.Collide
import Mathlib.Data.List.MinMax
import Mathlib.Data.Rat.Sqrt

/-!
# The block that a ray meets (`interaction.rs`)

Coordinates are read as exact rationals, so none of them is infinite or undefined, and a time that
is never reached is `⊤`. Of an outline profile there are the shapes only.
-/

namespace Cubic.Raycast

set_option autoImplicit false

open Interaction Movement
open World hiding Vec3d

def maxRaycastCells : Nat := 64

def directionEpsilon : ℚ := 1 / 10 ^ 12

def hitEpsilon : ℚ := 1 / 10 ^ 9

structure BlockTarget extends Interaction.BlockTarget where
  hit : Vec3d
  distance : ℚ
  bounds : Aabb
  outline : List Aabb
  deriving DecidableEq

structure BlockReach where
  blocks : ℚ

structure BlockOutlineProfile where
  states : OrderedMap RuntimeBlockStateId CollisionShape

namespace BlockOutlineProfile

def synthetic (states : List (RuntimeBlockStateId × CollisionShape)) : BlockOutlineProfile :=
  ⟨.ofList states⟩

def shape (profile : BlockOutlineProfile) (state : RuntimeBlockStateId) : CollisionShape :=
  (profile.states.lookup state).getD .empty

end BlockOutlineProfile

inductive RaycastError where
  | zeroDirection
  | invalidReach (value : ℚ)
  deriving DecidableEq

/-! ### Boxes -/

def insideFace (direction : Vec3d) : BlockFace :=
  let x := |direction.x|
  let y := |direction.y|
  let z := |direction.z|
  if y ≤ x ∧ z ≤ x then if 0 ≤ direction.x then .west else .east
  else if z ≤ y then if 0 ≤ direction.y then .down else .up
  else if 0 ≤ direction.z then .north else .south

/-- What the test of a box looks at along one axis. -/
structure Side where
  o : ℚ
  d : ℚ
  min : ℚ
  max : ℚ
  lowFace : BlockFace
  highFace : BlockFace

/-- The part of the ray that is left, and the face through which it comes in. -/
structure Remaining where
  near : ℚ
  far : ℚ
  face : Option BlockFace

def Remaining.narrow (rest : Remaining) (side : Side) : Option Remaining :=
  if |side.d| ≤ directionEpsilon then
    if side.o < side.min - hitEpsilon ∨ side.max + hitEpsilon < side.o then none else some rest
  else
    let first := (side.min - side.o) / side.d
    let second := (side.max - side.o) / side.d
    let axisNear := if first ≤ second then first else second
    let axisFar := if first ≤ second then second else first
    let axisFace := if first ≤ second then side.lowFace else side.highFace
    let near := if rest.near < axisNear then axisNear else rest.near
    let face := if rest.near < axisNear then some axisFace else rest.face
    let far := rest.far ⊓ axisFar
    if far + hitEpsilon < near then none else some ⟨near, far, face⟩

def sides (origin direction : Vec3d) (bounds : Aabb) : List Side :=
  [⟨origin.x, direction.x, bounds.min.x, bounds.max.x, .west, .east⟩,
    ⟨origin.y, direction.y, bounds.min.y, bounds.max.y, .down, .up⟩,
    ⟨origin.z, direction.z, bounds.min.z, bounds.max.z, .north, .south⟩]

def intersectBox (origin direction : Vec3d) (bounds : Aabb) (reach : ℚ) :
    Option (ℚ × BlockFace) := do
  let rest ← (sides origin direction bounds).foldlM Remaining.narrow ⟨0, reach, none⟩
  if rest.far < -hitEpsilon ∨ reach + hitEpsilon < rest.near then none
  else some (rest.near ⊔ 0, rest.face.getD (insideFace direction))

/-- What the ray meets of a shape. -/
structure ShapeHit where
  distance : ℚ
  face : BlockFace
  bounds : Aabb
  outline : List Aabb

/-- The boxes of a shape, where a block in a cell puts them. -/
def worldBoxes (cell : BlockCoordinates) (shape : CollisionShape) : List Aabb :=
  shape.all.map fun bounds => bounds.translated cell.x.toInt cell.y.toInt cell.z.toInt

/-- `Iterator::min_by` keeps the first of the nearest; an empty shape has no boxes. -/
def intersectShape (origin direction : Vec3d) (reach : ℚ) (cell : BlockCoordinates)
    (shape : CollisionShape) : Option ShapeHit :=
  let worldBoxes := worldBoxes cell shape
  (worldBoxes.filterMap fun bounds =>
    (intersectBox origin direction bounds reach).map fun hit =>
      ⟨hit.1, hit.2, bounds, worldBoxes⟩).argmin ShapeHit.distance

/-! ### Cells -/

/-- `f64`, where `⊤` is infinity -/
abbrev Time := WithTop ℚ

structure AxisStep where
  step : Int32
  t : Time
  delta : Time

def axisStep (origin direction : ℚ) (cell : Int32) : AxisStep :=
  if directionEpsilon < direction then
    ⟨1, (((cell.toInt + 1 - origin) / direction : ℚ) : Time), ((1 / direction : ℚ) : Time)⟩
  else if direction < -directionEpsilon then
    ⟨-1, (((cell.toInt - origin) / direction : ℚ) : Time), ((-1 / direction : ℚ) : Time)⟩
  else ⟨0, ⊤, ⊤⟩

def floorI32 (value : ℚ) : Int32 := .ofInt (max (-2 ^ 31) (min ⌊value⌋ (2 ^ 31 - 1)))

/-- `i32::saturating_add` -/
def saturatingAddI32 (a b : Int32) : Int32 :=
  .ofInt (max (-2 ^ 31) (min (a.toInt + b.toInt) (2 ^ 31 - 1)))

/-- The variables of the traversal. -/
structure Traversal where
  cell : BlockCoordinates
  tX : Time
  tY : Time
  tZ : Time

/-- What the steps along the axes are. -/
structure AxisSteps where
  x : AxisStep
  y : AxisStep
  z : AxisStep

namespace Traversal

def next (walk : Traversal) : Time := walk.tX ⊓ walk.tY ⊓ walk.tZ

def advance (steps : AxisSteps) (walk : Traversal) : Traversal :=
  if walk.tX ≤ walk.tY ∧ walk.tX ≤ walk.tZ then
    { walk with
      cell := { walk.cell with x := saturatingAddI32 walk.cell.x steps.x.step }
      tX := walk.tX + steps.x.delta }
  else if walk.tY ≤ walk.tZ then
    { walk with
      cell := { walk.cell with y := saturatingAddI32 walk.cell.y steps.y.step }
      tY := walk.tY + steps.y.delta }
  else
    { walk with
      cell := { walk.cell with z := saturatingAddI32 walk.cell.z steps.z.step }
      tZ := walk.tZ + steps.z.delta }

end Traversal

/-- So many cells at most. -/
def traverse (steps : AxisSteps) (limit : ℚ) (visit : BlockCoordinates → Option BlockTarget) :
    Nat → Traversal → Option BlockTarget
  | 0, _ => none
  | cells + 1, walk =>
    match visit walk.cell with
    | some target => some target
    | none =>
      if (limit : Time) < walk.next then none
      else traverse steps limit visit cells (walk.advance steps)

def targetIn (chunks : LoadedChunks) (geometry : DimensionGeometry) (profile : BlockOutlineProfile)
    (origin direction : Vec3d) (reach : ℚ) (cell : BlockCoordinates) : Option BlockTarget := do
  let state ← World.Raycast.blockStateAt chunks geometry cell
  let hit ← intersectShape origin direction reach cell (profile.shape state)
  some
    { position := cell
      state := state
      face := hit.face
      hit := ⟨origin.x + direction.x * hit.distance, origin.y + direction.y * hit.distance,
        origin.z + direction.z * hit.distance⟩
      distance := hit.distance
      bounds := hit.bounds
      outline := hit.outline }

/-- `Rat.sqrt` is the root of a square. -/
def vectorLength (v : Vec3d) : ℚ := Rat.sqrt (v.x * v.x + v.y * v.y + v.z * v.z)

/-- `raycast_blocks` with a number of cells to look at. -/
def raycastWithin (cells : Nat) (chunks : LoadedChunks) (geometry : DimensionGeometry)
    (profile : BlockOutlineProfile) (origin direction : Vec3d) (reach : BlockReach) :
    Except RaycastError (Option BlockTarget) :=
  let reach := reach.blocks
  if ¬ (0 ≤ reach ∧ reach ≤ 32) then .error (.invalidReach reach)
  else
    let length := vectorLength direction
    if length ≤ directionEpsilon then .error .zeroDirection
    else
      let direction : Vec3d := ⟨direction.x / length, direction.y / length, direction.z / length⟩
      let cell : BlockCoordinates := ⟨floorI32 origin.x, floorI32 origin.y, floorI32 origin.z⟩
      let steps : AxisSteps := ⟨axisStep origin.x direction.x cell.x,
        axisStep origin.y direction.y cell.y, axisStep origin.z direction.z cell.z⟩
      .ok (traverse steps (reach + hitEpsilon)
        (targetIn chunks geometry profile origin direction reach) cells
        ⟨cell, steps.x.t, steps.y.t, steps.z.t⟩)

def raycastBlocks (chunks : LoadedChunks) (geometry : DimensionGeometry)
    (profile : BlockOutlineProfile) (origin direction : Vec3d) (reach : BlockReach) :
    Except RaycastError (Option BlockTarget) :=
  raycastWithin maxRaycastCells chunks geometry profile origin direction reach

end Cubic.Raycast
