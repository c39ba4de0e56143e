import Cubic.Lib.Clip
import Cubic.Movement.Obstacles

/-!
# Collision response (`movement.rs`)

The three `resolve_` functions are one clip along one axis, against the obstacles that the box
overlaps on the two other axes.
-/

namespace Cubic.Movement

set_option autoImplicit false

open Cubic.World

def playerWidth : ℚ := 6 / 10
def standingHeight : ℚ := 18 / 10
def crouchingHeight : ℚ := 15 / 10
def swimmingHeight : ℚ := 6 / 10
def stepHeight : ℚ := 6 / 10

inductive PlayerPoseKind where
  | standing
  | sneaking
  | swimming
  deriving DecidableEq

structure PlayerDimensions where
  width : ℚ
  height : ℚ

def PlayerPoseKind.dimensions : PlayerPoseKind → PlayerDimensions
  | .standing => ⟨playerWidth, standingHeight⟩
  | .sneaking => ⟨playerWidth, crouchingHeight⟩
  | .swimming => ⟨playerWidth, swimmingHeight⟩

/-- The box of a player whose feet are at `pose`. -/
def boundingBox (pose : Vec3d) (poseKind : PlayerPoseKind) : Aabb :=
  let dimensions := poseKind.dimensions
  let half := dimensions.width * (1 / 2)
  ⟨⟨pose.x - half, pose.y, pose.z - half⟩,
    ⟨pose.x + half, pose.y + dimensions.height, pose.z + half⟩⟩

/-! ### Boxes along the axes -/

inductive Axis where
  | x
  | y
  | z
  deriving DecidableEq

def Vec3d.along (v : Vec3d) : Axis → ℚ
  | .x => v.x
  | .y => v.y
  | .z => v.z

/-- The vector of length `d` along an axis. -/
def Axis.vector (d : ℚ) : Axis → Vec3d
  | .x => ⟨d, 0, 0⟩
  | .y => ⟨0, d, 0⟩
  | .z => ⟨0, 0, d⟩

def Aabb.span (b : Aabb) (axis : Axis) : Clip.Span ℚ := ⟨b.min.along axis, b.max.along axis⟩

def Aabb.expandedToward (b : Aabb) (movement : Vec3d) : Aabb :=
  ⟨⟨b.min.x + movement.x ⊓ 0, b.min.y + movement.y ⊓ 0, b.min.z + movement.z ⊓ 0⟩,
    ⟨b.max.x + movement.x ⊔ 0, b.max.y + movement.y ⊔ 0, b.max.z + movement.z ⊔ 0⟩⟩

def Aabb.moved (b : Aabb) (movement : Vec3d) : Aabb :=
  b.translated movement.x movement.y movement.z

def overlapsYz (left right : Aabb) : Prop :=
  overlaps left.min.y left.max.y right.min.y right.max.y ∧
    overlaps left.min.z left.max.z right.min.z right.max.z

def overlapsXz (left right : Aabb) : Prop :=
  overlaps left.min.x left.max.x right.min.x right.max.x ∧
    overlaps left.min.z left.max.z right.min.z right.max.z

def overlapsXy (left right : Aabb) : Prop :=
  overlaps left.min.x left.max.x right.min.x right.max.x ∧
    overlaps left.min.y left.max.y right.min.y right.max.y

/-- The two boxes overlap on the axes other than this one. -/
def overlapsAcross (axis : Axis) (left right : Aabb) : Prop :=
  match axis with
  | .x => overlapsYz left right
  | .y => overlapsXz left right
  | .z => overlapsXy left right

instance (axis : Axis) (left right : Aabb) : Decidable (overlapsAcross axis left right) :=
  match axis with
  | .x => inferInstanceAs (Decidable (_ ∧ _))
  | .y => inferInstanceAs (Decidable (_ ∧ _))
  | .z => inferInstanceAs (Decidable (_ ∧ _))

/-! ### Clipping -/

section
variable (bounds : Aabb) (obstacles : List Aabb)

def resolveAlong (axis : Axis) (delta : ℚ) : ℚ :=
  obstacles.foldl
    (fun delta obstacle =>
      if overlapsAcross axis bounds obstacle then
        Clip.clipStep collisionEpsilon (bounds.span axis) delta (obstacle.span axis)
      else delta)
    delta

def resolveX (delta : ℚ) : ℚ := resolveAlong bounds obstacles .x delta

def resolveY (delta : ℚ) : ℚ := resolveAlong bounds obstacles .y delta

def resolveZ (delta : ℚ) : ℚ := resolveAlong bounds obstacles .z delta

/-- The longer of the two ways goes first. -/
def resolveHorizontal (x z : ℚ) : ℚ × ℚ :=
  if |z| ≤ |x| then
    let x := resolveX bounds obstacles x
    (x, resolveZ (bounds.moved ⟨x, 0, 0⟩) obstacles z)
  else
    let z := resolveZ bounds obstacles z
    (resolveX (bounds.moved ⟨0, 0, z⟩) obstacles x, z)

def resolveAxes (requested : Vec3d) : Vec3d :=
  let y := resolveY bounds obstacles requested.y
  let (x, z) := resolveHorizontal (bounds.moved ⟨0, y, 0⟩) obstacles requested.x requested.z
  ⟨x, y, z⟩

/-- Up, sideways and down again: how far a step takes the box that rises by `up`. -/
def resolveStep (requested : Vec3d) (up : ℚ) : Vec3d :=
  let raised := bounds.moved ⟨0, up, 0⟩
  let horizontal := resolveHorizontal raised obstacles requested.x requested.z
  let afterHorizontal := raised.moved ⟨horizontal.1, 0, horizontal.2⟩
  let down := resolveY afterHorizontal obstacles (requested.y - up)
  ⟨horizontal.1, up + down, horizontal.2⟩

/-- `collide` after it has collected the obstacles. -/
def collideAgainst (requested : Vec3d) (wasOnGround : Bool) : Vec3d × Bool :=
  let direct := resolveAxes bounds obstacles requested
  let horizontalBlocked := direct.x ≠ requested.x ∨ direct.z ≠ requested.z
  if ¬ horizontalBlocked ∨
      ¬ (wasOnGround = true ∨ (requested.y < 0 ∧ direct.y ≠ requested.y)) then
    (direct, false)
  else
    let up := resolveY bounds obstacles stepHeight
    if up ≤ collisionEpsilon then (direct, false)
    else
      let stepped := resolveStep bounds obstacles requested up
      if direct.x * direct.x + direct.z * direct.z <
          stepped.x * stepped.x + stepped.z * stepped.z then
        (stepped, true)
      else (direct, false)

end

/-- The box whose obstacles are collected: also what a step up could reach. -/
def collideBroadphase (bounds : Aabb) (requested : Vec3d) : Aabb :=
  let broadphase := bounds.expandedToward requested
  { broadphase with max := { broadphase.max with y := broadphase.max.y + stepHeight } }

def collide (bounds : Aabb) (requested : Vec3d) (chunks : LoadedChunks)
    (geometry : DimensionGeometry) (profile : BlockCollisionProfile) (wasOnGround : Bool) :
    Simulation (Vec3d × Bool) := do
  let obstacles ← collectObstacles (collideBroadphase bounds requested) chunks geometry profile
  pure (collideAgainst bounds obstacles requested wasOnGround)

/-! ### How the boxes move -/

@[simp] theorem Vec3d.along_vector (axis : Axis) (d : ℚ) : (axis.vector d).along axis = d := by
  cases axis <;> rfl

theorem Aabb.span_moved (b : Aabb) (movement : Vec3d) (axis : Axis) :
    (b.moved movement).span axis = (b.span axis).shift (movement.along axis) := by
  cases axis <;> rfl

theorem Aabb.moved_moved (b : Aabb) (v w : Vec3d) :
    (b.moved v).moved w = b.moved ⟨v.x + w.x, v.y + w.y, v.z + w.z⟩ := by
  simp only [Aabb.moved, Aabb.translated, Vec3d.translated, add_assoc]

/-- Moving along an axis changes nothing across it. -/
theorem overlapsAcross_moved {axis : Axis} {b o : Aabb} {d : ℚ} :
    overlapsAcross axis (b.moved (axis.vector d)) o ↔ overlapsAcross axis b o := by
  cases axis <;>
    simp only [overlapsAcross, overlapsYz, overlapsXz, overlapsXy, Aabb.moved, Aabb.translated,
      Vec3d.translated, Axis.vector, add_zero]

theorem aabbsOverlap_iff (axis : Axis) {b o : Aabb} :
    aabbsOverlap b o ↔
      (b.span axis).Meets collisionEpsilon (o.span axis) ∧ overlapsAcross axis b o := by
  cases axis
  · exact Iff.rfl
  · exact and_left_comm
  · exact and_assoc.symm.trans and_comm

/-- The clip is against the obstacles the box overlaps across the axis. -/
theorem resolveAlong_eq (bounds : Aabb) (obstacles : List Aabb) (axis : Axis) (delta : ℚ) :
    resolveAlong bounds obstacles axis delta =
      Clip.clip collisionEpsilon (bounds.span axis) delta
        ((obstacles.filter fun o => overlapsAcross axis bounds o).map fun o => o.span axis) := by
  unfold resolveAlong Clip.clip
  rw [List.foldl_map, List.foldl_filter]
  simp only [decide_eq_true_eq]

end Cubic.Movement
