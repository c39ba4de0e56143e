import Cubic.Lib.Mut
import Cubic.Movement.CollisionProfile
import Cubic.World.BlockReads

/-!
# Collecting obstacles (`movement.rs`)

Plain `i32` arithmetic that overflows is a panic.
-/

namespace Cubic.Movement

set_option autoImplicit false

open Cubic.World

inductive SimulationError where
  | nonFinite (field : String)
  | broadphaseTooLarge
  deriving DecidableEq

abbrev Simulation := Mut Unit SimulationError

/-- The cells along one axis that may own a box reaching into the broadphase. -/
def sourceCellRange (broadphaseMin broadphaseMax localMin localMax : ℚ) : Int32 × Int32 :=
  let negativeExtension := max (-localMin) 0
  let positiveExtension := max (localMax - 1) 0
  (floorAsI32 (broadphaseMin - positiveExtension - collisionEpsilon),
    floorAsI32 (broadphaseMax + negativeExtension + collisionEpsilon))

/-- `max - min + 1` -/
def cellSpan (range : Int32 × Int32) : Option Int32 := do
  let difference ← checkedSubI32 range.2 range.1
  checkedAddI32 difference 1

/-- `i64::saturating_mul` -/
def saturatingMulI64 (a b : Int64) : Int64 :=
  .ofInt (max (-2 ^ 63) (min (a.toInt * b.toInt) (2 ^ 63 - 1)))

/-- `min..=max` -/
def inclusive (range : Int32 × Int32) : List Int32 :=
  (List.range (range.2.toInt + 1 - range.1.toInt).toNat).map fun k : Nat =>
    .ofInt (range.1.toInt + k)

/-- The cells of three ranges, in the order of the loops. -/
def cellsOf (xs ys zs : Int32 × Int32) : List BlockCoordinates :=
  (inclusive ys).flatMap fun y => (inclusive zs).flatMap fun z =>
    (inclusive xs).map fun x => ⟨x, y, z⟩

/-- `i32::try_from(geometry.height).unwrap_or(i32::MAX)` -/
def heightAsI32 (geometry : DimensionGeometry) : Int32 :=
  (i32TryFromU32 geometry.height).getD (.ofInt i32Max)

def blockStateAt (chunks : LoadedChunks) (geometry : DimensionGeometry)
    (cell : BlockCoordinates) : Option RuntimeBlockStateId :=
  Collision.blockStateAt chunks geometry cell.x cell.y cell.z

def cubeAt (cell : BlockCoordinates) : Aabb :=
  ⟨⟨cell.x.toInt, cell.y.toInt, cell.z.toInt⟩,
    ⟨cell.x.toInt + 1, cell.y.toInt + 1, cell.z.toInt + 1⟩⟩

/-- What a cell with this state adds to the obstacles. -/
def stateBoxes (profile : BlockCollisionProfile) (state : RuntimeBlockStateId)
    (cell : BlockCoordinates) : List Aabb :=
  match profile.shape state with
  | .empty => []
  | .fullCube => [cubeAt cell]
  | .boxes boxes => (boxes.take maxCollisionBoxesPerState).map (profile.worldBox state cell)

def cellBoxes (chunks : LoadedChunks) (geometry : DimensionGeometry)
    (profile : BlockCollisionProfile) (cell : BlockCoordinates) : Simulation (List Aabb) :=
  if cell.y < geometry.minY then pure [cubeAt cell]
  else do
    let top ← Mut.ofOption (checkedAddI32 geometry.minY (heightAsI32 geometry))
    if top ≤ cell.y then pure []
    else match blockStateAt chunks geometry cell with
      | some state => pure (stateBoxes profile state cell)
      | none => pure [cubeAt cell]

def collectFrom (chunks : LoadedChunks) (geometry : DimensionGeometry)
    (profile : BlockCollisionProfile) : List BlockCoordinates → Simulation (List Aabb)
  | [] => pure []
  | cell :: rest => do
    let boxes ← cellBoxes chunks geometry profile cell
    let others ← collectFrom chunks geometry profile rest
    pure (boxes ++ others)

section Ranges
variable (broadphase : Aabb) (profile : BlockCollisionProfile)

def rangeX : Int32 × Int32 :=
  sourceCellRange broadphase.min.x broadphase.max.x profile.sourceShapeBounds.min.x
    profile.sourceShapeBounds.max.x

def rangeY : Int32 × Int32 :=
  sourceCellRange broadphase.min.y broadphase.max.y profile.sourceShapeBounds.min.y
    profile.sourceShapeBounds.max.y

def rangeZ : Int32 × Int32 :=
  sourceCellRange broadphase.min.z broadphase.max.z profile.sourceShapeBounds.min.z
    profile.sourceShapeBounds.max.z

/-- The cells `collect_obstacles` looks at. -/
def sourceCells : List BlockCoordinates :=
  cellsOf (rangeX broadphase profile) (rangeY broadphase profile) (rangeZ broadphase profile)

end Ranges

def collectObstacles (broadphase : Aabb) (chunks : LoadedChunks) (geometry : DimensionGeometry)
    (profile : BlockCollisionProfile) : Simulation (List Aabb) := do
  let width ← Mut.ofOption (cellSpan (rangeX broadphase profile))
  let height ← Mut.ofOption (cellSpan (rangeY broadphase profile))
  let depth ← Mut.ofOption (cellSpan (rangeZ broadphase profile))
  let cells := saturatingMulI64 (saturatingMulI64 width.toInt64 height.toInt64) depth.toInt64
  if 4096 < cells then Mut.fail .broadphaseTooLarge
  else collectFrom chunks geometry profile (sourceCells broadphase profile)

end Cubic.Movement
