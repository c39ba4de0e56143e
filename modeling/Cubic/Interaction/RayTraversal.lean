import Cubic.Interaction.RayBoxes
import Cubic.Lib.GridWalk

/-!
# The cells that a ray visits

The traversal walks the grid of cells along the ray. Where a coordinate of a cell would leave `i32`
it stays at the end, and the walk goes on beside it.
-/

namespace Cubic.Raycast

set_option autoImplicit false

open Interaction Movement Ray
open World hiding Vec3d

/-! ### Axes -/

instance : Fintype Axis := ⟨{.x, .y, .z}, fun axis => by cases axis <;> decide⟩

theorem sum_axes {M : Type} [AddCommMonoid M] (f : Axis → M) : ∑ axis, f axis = f .x + f .y + f .z := by
  change ∑ axis ∈ ({.x, .y, .z} : Finset Axis), f axis = _
  rw [Finset.sum_insert (by decide), Finset.sum_insert (by decide), Finset.sum_singleton, add_assoc]

def cellAlong (cell : BlockCoordinates) : Axis → Int32
  | .x => cell.x
  | .y => cell.y
  | .z => cell.z

def Traversal.time (walk : Traversal) : Axis → Time
  | .x => walk.tX
  | .y => walk.tY
  | .z => walk.tZ

def AxisSteps.along (steps : AxisSteps) : Axis → AxisStep
  | .x => steps.x
  | .y => steps.y
  | .z => steps.z

/-- The first of the axes with the least time. -/
def firstOf (time : Axis → Time) : Axis :=
  if time .x ≤ time .y ∧ time .x ≤ time .z then .x else if time .y ≤ time .z then .y else .z

theorem firstOf_le (time : Axis → Time) (axis : Axis) : time (firstOf time) ≤ time axis := by
  unfold firstOf
  split
  · rename_i hx
    cases axis with
    | x => exact le_rfl
    | y => exact hx.1
    | z => exact hx.2
  · rename_i hx
    split
    · rename_i hyz
      have hyx : time .y ≤ time .x := by
        by_contra hlt
        exact hx ⟨(not_le.mp hlt).le, (not_le.mp hlt).le.trans hyz⟩
      cases axis with
      | x => exact hyx
      | y => exact le_rfl
      | z => exact hyz
    · rename_i hyz
      have hzy := (not_le.mp hyz).le
      have hzx : time .z ≤ time .x := by
        by_contra hlt
        exact hx ⟨(not_le.mp hlt).le.trans hzy, (not_le.mp hlt).le⟩
      cases axis with
      | x => exact hzx
      | y => exact hzy
      | z => exact le_rfl

section
variable {walk : Traversal} {steps : AxisSteps}

theorem next_eq : walk.next = walk.time (firstOf walk.time) := by
  refine le_antisymm ?_ (le_min (le_min (firstOf_le walk.time .x) (firstOf_le walk.time .y))
    (firstOf_le walk.time .z))
  have hle (axis : Axis) : walk.next ≤ walk.time axis := by
    cases axis with
    | x => exact (min_le_left _ _).trans (min_le_left _ _)
    | y => exact (min_le_left _ _).trans (min_le_right _ _)
    | z => exact min_le_right _ _
  exact hle _

/-- Only what belongs to the first axis changes. -/
theorem along_advance (axis : Axis) :
    cellAlong (walk.advance steps).cell axis =
      (if axis = firstOf walk.time then
        saturatingAddI32 (cellAlong walk.cell axis) (steps.along axis).step
      else cellAlong walk.cell axis) ∧
    (walk.advance steps).time axis =
      if axis = firstOf walk.time then walk.time axis + (steps.along axis).delta
      else walk.time axis := by
  unfold Traversal.advance
  by_cases hx : walk.tX ≤ walk.tY ∧ walk.tX ≤ walk.tZ
  · have hfirst : firstOf walk.time = .x := if_pos hx
    rw [hfirst, if_pos hx]
    cases axis <;> exact ⟨rfl, rfl⟩
  · by_cases hyz : walk.tY ≤ walk.tZ
    · have hfirst : firstOf walk.time = .y := (if_neg hx).trans (if_pos hyz)
      rw [hfirst, if_neg hx, if_pos hyz]
      cases axis <;> exact ⟨rfl, rfl⟩
    · have hfirst : firstOf walk.time = .z := (if_neg hx).trans (if_neg hyz)
      rw [hfirst, if_neg hx, if_neg hyz]
      cases axis <;> exact ⟨rfl, rfl⟩

end

/-! ### The grid behind the traversal -/

/-- A coordinate that has gone past the end of `i32` stays there. -/
def saturate (n : ℤ) : ℤ := max (-2 ^ 31) (min n (2 ^ 31 - 1))

theorem toInt_ofInt_saturate (n : ℤ) : (Int32.ofInt (saturate n)).toInt = saturate n := by
  rw [Int32.toInt_ofInt]
  unfold Int32.size saturate
  apply Int.bmod_eq_of_le <;> omega

theorem saturate_of_toInt (a : Int32) : saturate a.toInt = a.toInt := by
  have hlow := a.le_toInt
  have hhigh := a.toInt_lt
  unfold saturate
  omega

theorem toInt_heading (d : ℚ) : (Int32.ofInt (heading d)).toInt = heading d := by
  unfold heading
  split
  · decide
  · split <;> decide

/-- On the way from a coordinate, saturated steps are steps of the saturated coordinate. -/
theorem saturatingAddI32_heading {d : ℚ} {start : Int32} {n : ℤ} (h : Toward d start.toInt n) :
    saturatingAddI32 (.ofInt (saturate n)) (.ofInt (heading d)) =
      .ofInt (saturate (n + heading d)) := by
  have hlow := start.le_toInt
  have hhigh := start.toInt_lt
  unfold saturatingAddI32
  rw [toInt_ofInt_saturate, toInt_heading]
  refine congrArg Int32.ofInt ?_
  unfold saturate
  rcases lt_trichotomy d 0 with hneg | rfl | hpos
  · rw [toward_of_neg hneg] at h
    rw [heading_of_neg hneg]
    omega
  · rw [heading_zero]
    omega
  · rw [toward_of_pos hpos] at h
    rw [heading_of_pos hpos]
    omega

/-- The cell that stands for a place of the grid. -/
def cellOf (place : Axis → ℤ) : BlockCoordinates :=
  ⟨.ofInt (saturate (place .x)), .ofInt (saturate (place .y)), .ofInt (saturate (place .z))⟩

def placeOf (cell : BlockCoordinates) (axis : Axis) : ℤ := (cellAlong cell axis).toInt

theorem cellAlong_cellOf (place : Axis → ℤ) (axis : Axis) :
    cellAlong (cellOf place) axis = .ofInt (saturate (place axis)) := by
  cases axis <;> rfl

theorem cellAlong_ext {cell cell' : BlockCoordinates}
    (h : ∀ axis, cellAlong cell axis = cellAlong cell' axis) : cell = cell' := by
  have hx := h .x
  have hy := h .y
  have hz := h .z
  cases cell
  cases cell'
  cases hx
  cases hy
  cases hz
  rfl

theorem cellOf_placeOf (cell : BlockCoordinates) : cellOf (placeOf cell) = cell := by
  refine cellAlong_ext fun axis => ?_
  rw [cellAlong_cellOf]
  unfold placeOf
  rw [saturate_of_toInt, Int32.ofInt_toInt]

/-- A place on the way between two cells is one. -/
theorem placeOf_cellOf {d : Axis → ℚ} {cell cell' : BlockCoordinates} {place : Axis → ℤ}
    (h : ∀ axis, Toward (d axis) (placeOf cell axis) (place axis))
    (h' : ∀ axis, Toward (d axis) (place axis) (placeOf cell' axis)) :
    placeOf (cellOf place) = place := by
  funext axis
  have haxis := h axis
  have haxis' := h' axis
  have hlow := (cellAlong cell axis).le_toInt
  have hhigh := (cellAlong cell axis).toInt_lt
  have hlow' := (cellAlong cell' axis).le_toInt
  have hhigh' := (cellAlong cell' axis).toInt_lt
  unfold placeOf at haxis haxis' ⊢
  rw [cellAlong_cellOf, toInt_ofInt_saturate]
  unfold saturate
  rcases lt_trichotomy (d axis) 0 with hneg | hzero | hpos
  · rw [toward_of_neg hneg] at haxis haxis'
    omega
  · rw [hzero, toward_zero] at haxis
    omega
  · rw [toward_of_pos hpos] at haxis haxis'
    omega

/-! ### The traversal as a search of the grid -/

section
variable {origin direction : Vec3d} {start : BlockCoordinates}

theorem axisStep_eq {o d : ℚ} (hclear : d = 0 ∨ directionEpsilon < |d|) (cell : Int32) :
    axisStep o d cell =
      ⟨.ofInt (heading d), leaves o d cell.toInt, if d = 0 then ⊤ else ((1 / |d| : ℚ) : Time)⟩ := by
  have hε := directionEpsilon_pos
  unfold axisStep
  rcases lt_trichotomy d 0 with hneg | rfl | hpos
  · have hsteep := hclear.resolve_left hneg.ne
    rw [abs_of_neg hneg] at hsteep
    rw [if_neg (by linarith), if_pos (by linarith), if_neg hneg.ne, heading_of_neg hneg,
      leaves_of_neg hneg, abs_of_neg hneg, neg_div, div_neg]
    rfl
  · rw [if_neg hε.not_gt, if_neg (by linarith), if_pos rfl, heading_zero, leaves_zero]
    rfl
  · have hsteep := hclear.resolve_left hpos.ne'
    rw [abs_of_pos hpos] at hsteep
    rw [if_pos hsteep, if_neg hpos.ne', heading_of_pos hpos, leaves_of_pos hpos, abs_of_pos hpos]
    rfl

/-- The steps of a ray that starts in a cell. -/
def stepsFrom (origin direction : Vec3d) (start : BlockCoordinates) : AxisSteps :=
  ⟨axisStep origin.x direction.x start.x, axisStep origin.y direction.y start.y,
    axisStep origin.z direction.z start.z⟩

theorem along_stepsFrom (axis : Axis) : (stepsFrom origin direction start).along axis =
    axisStep (origin.along axis) (direction.along axis) (cellAlong start axis) := by
  cases axis <;> rfl

/-- The axis across which the ray leaves a place first. -/
def pick (origin direction : Vec3d) (place : Axis → ℤ) : Axis :=
  firstOf fun axis => leaves (origin.along axis) (direction.along axis) (place axis)

theorem pick_first (place : Axis → ℤ) :
    GridWalk.First origin.along direction.along place (pick origin direction place) :=
  firstOf_le _

/-- The traversal has got to a place of the grid. -/
structure At (origin direction : Vec3d) (start : BlockCoordinates) (walk : Traversal)
    (place : Axis → ℤ) : Prop where
  cell : walk.cell = cellOf place
  time : ∀ axis, walk.time axis = leaves (origin.along axis) (direction.along axis) (place axis)
  toward : ∀ axis, Toward (direction.along axis) (placeOf start axis) (place axis)

variable {walk : Traversal} {place : Axis → ℤ}

theorem At.first (h : At origin direction start walk place) :
    firstOf walk.time = pick origin direction place := by
  unfold pick
  rw [funext h.time]

theorem At.next (h : At origin direction start walk place) : walk.next =
    leaves (origin.along (pick origin direction place)) (direction.along (pick origin direction place))
      (place (pick origin direction place)) := by
  rw [next_eq, h.first, h.time]

theorem At.advance (hclear : Clear direction) (h : At origin direction start walk place)
    (hnext : walk.next ≠ ⊤) :
    At origin direction start (walk.advance (stepsFrom origin direction start))
      (GridWalk.advance direction.along (pick origin direction place) place) := by
  rw [h.next] at hnext
  have hmoves : direction.along (pick origin direction place) ≠ 0 := by
    intro hzero
    rw [hzero, leaves_zero] at hnext
    exact hnext rfl
  refine ⟨cellAlong_ext fun axis => ?_, fun axis => ?_, fun axis => ?_⟩
  · rw [(along_advance axis).1, h.first, cellAlong_cellOf, h.cell, cellAlong_cellOf]
    by_cases haxis : axis = pick origin direction place
    · rw [if_pos haxis, along_stepsFrom, axisStep_eq (hclear axis)]
      dsimp only
      rw [saturatingAddI32_heading (h.toward axis)]
      subst haxis
      rw [GridWalk.advance_self]
    · rw [if_neg haxis, GridWalk.advance_of_ne haxis]
  · rw [(along_advance axis).2, h.first, h.time]
    by_cases haxis : axis = pick origin direction place
    · rw [if_pos haxis, along_stepsFrom, axisStep_eq (hclear axis)]
      dsimp only
      subst haxis
      rw [if_neg hmoves, GridWalk.advance_self, leaves_heading hmoves]
    · rw [if_neg haxis, GridWalk.advance_of_ne haxis]
  · exact (h.toward axis).trans (GridWalk.toward_advance axis)

theorem traverse_eq_search (hclear : Clear direction) {limit : ℚ}
    {visit : BlockCoordinates → Option BlockTarget} (cells : Nat)
    (h : At origin direction start walk place) :
    traverse (stepsFrom origin direction start) limit visit cells walk =
      GridWalk.search origin.along direction.along limit (pick origin direction)
        (fun place => visit (cellOf place)) cells place := by
  induction cells generalizing walk place with
  | zero => rfl
  | succ cells ih =>
    rw [traverse, GridWalk.search, h.cell]
    cases visit (cellOf place) with
    | some target => rfl
    | none =>
      dsimp only
      rw [h.next]
      split
      · rfl
      · rename_i hlimit
        refine ih (h.advance hclear fun htop => ?_)
        rw [h.next] at htop
        rw [htop] at hlimit
        exact hlimit (WithTop.coe_lt_top limit)

end

end Cubic.Raycast
