import Cubic.Movement.Collide

/-!
# Collision response leaves the player clear

A clip may send the box back by the tolerance, and so a step may be higher by it.
-/

namespace Cubic.Movement

set_option autoImplicit false

open Cubic.World

def Free (bounds : Aabb) (obstacles : List Aabb) : Prop :=
  ∀ o ∈ obstacles, ¬ aabbsOverlap bounds o

/-- Some box of this size faces both obstacles, `o` below and `f` above, in a gap that is too
short for it by no more than twice the tolerance. -/
structure Pinched (bounds : Aabb) (axis : Axis) (o f : Aabb) : Prop where
  faced : ∃ v, overlapsAcross axis (bounds.moved v) o ∧ overlapsAcross axis (bounds.moved v) f
  near : (bounds.span axis).extent - 2 * collisionEpsilon ≤ (f.span axis).lo - (o.span axis).hi
  short : (f.span axis).lo - (o.span axis).hi < (bounds.span axis).extent

def Spaced (bounds : Aabb) (obstacles : List Aabb) : Prop :=
  ∀ axis, ∀ o ∈ obstacles, ∀ f ∈ obstacles, ¬ Pinched bounds axis o f

/-- A box longer than the tolerance, clear of obstacles that do not pinch it. -/
structure Placed (bounds : Aabb) (obstacles : List Aabb) : Prop where
  roomy : ∀ axis, collisionEpsilon < (bounds.span axis).extent
  spaced : Spaced bounds obstacles
  free : Free bounds obstacles

/-- What `collide` may answer to a requested displacement. -/
structure Response (bounds : Aabb) (obstacles : List Aabb) (requested answer : Vec3d) : Prop where
  free : Free (bounds.moved answer) obstacles
  x : Clip.Within collisionEpsilon requested.x answer.x
  z : Clip.Within collisionEpsilon requested.z answer.z
  rise : answer.y ≤ max requested.y (stepHeight + collisionEpsilon)

theorem collisionEpsilon_pos : 0 < collisionEpsilon := by
  norm_num [collisionEpsilon]

theorem boundingBox_roomy (pose : Vec3d) (poseKind : PlayerPoseKind) (axis : Axis) :
    collisionEpsilon < ((boundingBox pose poseKind).span axis).extent := by
  cases axis <;> cases poseKind <;>
    norm_num [boundingBox, Aabb.span, Vec3d.along, Clip.Span.extent, PlayerPoseKind.dimensions,
      collisionEpsilon, playerWidth, standingHeight, crouchingHeight, swimmingHeight]

theorem Aabb.extent_moved (b : Aabb) (v : Vec3d) (axis : Axis) :
    ((b.moved v).span axis).extent = (b.span axis).extent := by
  rw [Aabb.span_moved]
  simp only [Clip.Span.shift, Clip.Span.extent, add_sub_add_right_eq_sub]

theorem Aabb.moved_zero (b : Aabb) : b.moved ⟨0, 0, 0⟩ = b := by
  simp only [Aabb.moved, Aabb.translated, Vec3d.translated, add_zero]

theorem Spaced.moved {bounds : Aabb} {obstacles : List Aabb} (h : Spaced bounds obstacles)
    (v : Vec3d) : Spaced (bounds.moved v) obstacles := by
  intro axis o ho f hf hpinched
  obtain ⟨⟨w, hfaced⟩, hnear, hshort⟩ := hpinched
  rw [Aabb.moved_moved] at hfaced
  rw [Aabb.extent_moved] at hnear hshort
  exact h axis o ho f hf ⟨⟨_, hfaced⟩, hnear, hshort⟩

section
variable {bounds : Aabb} {obstacles : List Aabb}

/-! ### One axis -/

/-- The obstacles along the axis that the box can run into. -/
def facing (bounds : Aabb) (obstacles : List Aabb) (axis : Axis) : List (Clip.Span ℚ) :=
  (obstacles.filter fun o => overlapsAcross axis bounds o).map fun o => o.span axis

theorem mem_facing {axis : Axis} {s : Clip.Span ℚ} :
    s ∈ facing bounds obstacles axis ↔
      ∃ o ∈ obstacles, overlapsAcross axis bounds o ∧ o.span axis = s := by
  simp only [facing, List.mem_map, List.mem_filter, decide_eq_true_eq, and_assoc]

theorem Placed.fits (h : Placed bounds obstacles) (axis : Axis) :
    Clip.Fits collisionEpsilon (bounds.span axis) (facing bounds obstacles axis) := by
  refine ⟨collisionEpsilon_pos, h.roomy axis, ?_⟩
  intro s hs t ht hgap
  obtain ⟨o, ho, hacross, rfl⟩ := mem_facing.mp hs
  obtain ⟨f, hf, hacross', rfl⟩ := mem_facing.mp ht
  have hfaced : overlapsAcross axis (bounds.moved ⟨0, 0, 0⟩) o ∧
      overlapsAcross axis (bounds.moved ⟨0, 0, 0⟩) f := by
    rw [Aabb.moved_zero]
    exact ⟨hacross, hacross'⟩
  exact h.spaced axis o ho f hf ⟨⟨_, hfaced⟩, hgap.1, hgap.2⟩

theorem free_iff_clear (axis : Axis) :
    Free bounds obstacles ↔
      Clip.Clear collisionEpsilon (bounds.span axis) (facing bounds obstacles axis) := by
  constructor
  · intro hfree s hs hmeets
    obtain ⟨o, ho, hacross, rfl⟩ := mem_facing.mp hs
    exact hfree o ho ((aabbsOverlap_iff axis).mpr ⟨hmeets, hacross⟩)
  · intro hclear o ho hoverlap
    obtain ⟨hmeets, hacross⟩ := (aabbsOverlap_iff axis).mp hoverlap
    exact hclear _ (mem_facing.mpr ⟨o, ho, hacross, rfl⟩) hmeets

theorem facing_moved (axis : Axis) (d : ℚ) :
    facing (bounds.moved (axis.vector d)) obstacles axis = facing bounds obstacles axis := by
  simp only [facing, overlapsAcross_moved]

/-- One clip answers within the request and leaves the box placed. -/
theorem resolveAlong_placed (h : Placed bounds obstacles) (axis : Axis) (delta : ℚ) :
    Clip.Within collisionEpsilon delta (resolveAlong bounds obstacles axis delta) ∧
      Placed (bounds.moved (axis.vector (resolveAlong bounds obstacles axis delta)))
        obstacles := by
  obtain ⟨hwithin, hclear⟩ :=
    Clip.clip_clear delta (h.fits axis) ((free_iff_clear axis).mp h.free)
  rw [resolveAlong_eq]
  refine ⟨hwithin, fun axis' => ?_, h.spaced.moved _, (free_iff_clear axis).mpr ?_⟩
  · rw [Aabb.extent_moved]
    exact h.roomy axis'
  · rw [facing_moved, Aabb.span_moved, Vec3d.along_vector]
    exact hclear

/-! ### The three axes in turn -/

theorem resolveX_placed (h : Placed bounds obstacles) (x : ℚ) :
    Clip.Within collisionEpsilon x (resolveX bounds obstacles x) ∧
      Placed (bounds.moved ⟨resolveX bounds obstacles x, 0, 0⟩) obstacles :=
  resolveAlong_placed h .x x

theorem resolveY_placed (h : Placed bounds obstacles) (y : ℚ) :
    Clip.Within collisionEpsilon y (resolveY bounds obstacles y) ∧
      Placed (bounds.moved ⟨0, resolveY bounds obstacles y, 0⟩) obstacles :=
  resolveAlong_placed h .y y

theorem resolveZ_placed (h : Placed bounds obstacles) (z : ℚ) :
    Clip.Within collisionEpsilon z (resolveZ bounds obstacles z) ∧
      Placed (bounds.moved ⟨0, 0, resolveZ bounds obstacles z⟩) obstacles :=
  resolveAlong_placed h .z z

theorem resolveHorizontal_placed (h : Placed bounds obstacles) (x z : ℚ) :
    Clip.Within collisionEpsilon x (resolveHorizontal bounds obstacles x z).1 ∧
      Clip.Within collisionEpsilon z (resolveHorizontal bounds obstacles x z).2 ∧
      Placed (bounds.moved ⟨(resolveHorizontal bounds obstacles x z).1, 0,
        (resolveHorizontal bounds obstacles x z).2⟩) obstacles := by
  unfold resolveHorizontal
  split
  · obtain ⟨hx, hplaced⟩ := resolveX_placed h x
    obtain ⟨hz, hplaced⟩ := resolveZ_placed hplaced z
    rw [Aabb.moved_moved] at hplaced
    simp only [add_zero, zero_add] at hplaced
    exact ⟨hx, hz, hplaced⟩
  · obtain ⟨hz, hplaced⟩ := resolveZ_placed h z
    obtain ⟨hx, hplaced⟩ := resolveX_placed hplaced x
    rw [Aabb.moved_moved] at hplaced
    simp only [add_zero, zero_add] at hplaced
    exact ⟨hx, hz, hplaced⟩

theorem le_max_of_within {delta d : ℚ} (h : Clip.Within collisionEpsilon delta d) :
    d ≤ max delta collisionEpsilon := by
  rcases le_total 0 delta with hdelta | hdelta
  · exact le_max_of_le_left (h.forward hdelta).2
  · exact le_max_of_le_right (h.backward hdelta).2

theorem resolveAxes_responds (h : Placed bounds obstacles) (requested : Vec3d) :
    Response bounds obstacles requested (resolveAxes bounds obstacles requested) := by
  obtain ⟨hy, hraised⟩ := resolveY_placed h requested.y
  obtain ⟨hx, hz, hplaced⟩ := resolveHorizontal_placed hraised requested.x requested.z
  rw [Aabb.moved_moved] at hplaced
  simp only [add_zero, zero_add] at hplaced
  have hstep : collisionEpsilon ≤ stepHeight + collisionEpsilon := by
    norm_num [stepHeight]
  exact ⟨hplaced.free, hx, hz, (le_max_of_within hy).trans (max_le_max le_rfl hstep)⟩

/-- A step falls back from at most the step height, or rises on from it to what was asked. -/
theorem resolveStep_responds (h : Placed bounds obstacles) (requested : Vec3d) :
    Response bounds obstacles requested
      (resolveStep bounds obstacles requested (resolveY bounds obstacles stepHeight)) := by
  obtain ⟨hup, hraised⟩ := resolveY_placed h stepHeight
  obtain ⟨hx, hz, hover⟩ := resolveHorizontal_placed hraised requested.x requested.z
  obtain ⟨hdown, hplaced⟩ :=
    resolveY_placed hover (requested.y - resolveY bounds obstacles stepHeight)
  rw [Aabb.moved_moved, Aabb.moved_moved] at hplaced
  simp only [add_zero, zero_add] at hplaced
  refine ⟨hplaced.free, hx, hz, ?_⟩
  have hrise := (hup.forward (by norm_num [stepHeight])).2
  rcases le_max_iff.mp (le_max_of_within hdown) with hdown | hdown
  · apply le_max_of_le_left
    simp only [resolveStep]
    linarith
  · apply le_max_of_le_right
    exact add_le_add hrise hdown

theorem collideAgainst_responds (h : Placed bounds obstacles) (requested : Vec3d)
    (wasOnGround : Bool) :
    Response bounds obstacles requested
      (collideAgainst bounds obstacles requested wasOnGround).1 := by
  simp only [collideAgainst]
  split
  · exact resolveAxes_responds h requested
  · split
    · exact resolveAxes_responds h requested
    · split
      · exact resolveStep_responds h requested
      · exact resolveAxes_responds h requested

end

/-- From a clear place the player moves to a clear place, sideways no farther than asked and up no
higher than a step, both but for the tolerance. -/
theorem collide_responds (pose : Vec3d) (poseKind : PlayerPoseKind) (obstacles : List Aabb)
    (requested : Vec3d) (wasOnGround : Bool)
    (hspaced : Spaced (boundingBox pose poseKind) obstacles)
    (hfree : Free (boundingBox pose poseKind) obstacles) :
    Response (boundingBox pose poseKind) obstacles requested
        (collideAgainst (boundingBox pose poseKind) obstacles requested wasOnGround).1 ∧
      ∀ (chunks : LoadedChunks) (geometry : DimensionGeometry) (profile : BlockCollisionProfile),
        collectObstacles (collideBroadphase (boundingBox pose poseKind) requested) chunks geometry
            profile () = .ok obstacles () →
          ∃ answer stepped, collide (boundingBox pose poseKind) requested chunks geometry profile
              wasOnGround () = .ok (answer, stepped) () ∧
            Response (boundingBox pose poseKind) obstacles requested answer := by
  have hplaced : Placed (boundingBox pose poseKind) obstacles :=
    ⟨boundingBox_roomy pose poseKind, hspaced, hfree⟩
  have hresponse := collideAgainst_responds hplaced requested wasOnGround
  refine ⟨hresponse, fun chunks geometry profile hcollect => ?_⟩
  exact ⟨_, _, Mut.bind_of_ok hcollect, hresponse⟩

/-! ### Beside a cube -/

/-- A cube pinches no player: there is no gap to be in. -/
theorem spaced_cube (pose : Vec3d) (poseKind : PlayerPoseKind) (cell : BlockCoordinates) :
    Spaced (boundingBox pose poseKind) [cubeAt cell] := by
  intro axis o ho f hf hpinched
  rw [List.mem_singleton] at ho hf
  subst ho hf
  have hnear := hpinched.near
  have hroomy := boundingBox_roomy pose poseKind axis
  have hgap : ((cubeAt cell).span axis).lo - ((cubeAt cell).span axis).hi = -1 := by
    cases axis <;> simp [cubeAt, Aabb.span, Vec3d.along]
  have hsmall : collisionEpsilon < 1 / 2 := by
    norm_num [collisionEpsilon]
  rw [hgap] at hnear
  linarith

/-- The player has entered the cube at the origin by the tolerance. -/
def against : Vec3d := ⟨collisionEpsilon - 3 / 10, 0, 1 / 2⟩

/-- The top of the cube is a step and the tolerance above the feet. -/
def below : Vec3d := ⟨-3 / 10, 4 / 10 - collisionEpsilon, 1 / 2⟩

/-- Asked to go on by half the tolerance the player is sent back by all of it, and a step up
rises by the tolerance more than the step height. -/
theorem collide_exceeds :
    (Spaced (boundingBox against .standing) [cubeAt ⟨0, 0, 0⟩] ∧
      Free (boundingBox against .standing) [cubeAt ⟨0, 0, 0⟩] ∧
      ¬ |(collideAgainst (boundingBox against .standing) [cubeAt ⟨0, 0, 0⟩]
          ⟨collisionEpsilon / 2, 0, 0⟩ false).1.x| ≤ |collisionEpsilon / 2|) ∧
    (Spaced (boundingBox below .standing) [cubeAt ⟨0, 0, 0⟩] ∧
      Free (boundingBox below .standing) [cubeAt ⟨0, 0, 0⟩] ∧
      ¬ (collideAgainst (boundingBox below .standing) [cubeAt ⟨0, 0, 0⟩]
          ⟨1, 0, 0⟩ true).1.y ≤ max 0 stepHeight) := by
  refine ⟨⟨spaced_cube _ _ _, ?_, ?_⟩, spaced_cube _ _ _, ?_, ?_⟩
  · unfold Free
    decide +kernel
  · decide +kernel
  · unfold Free
    decide +kernel
  · decide +kernel

theorem collide_responds_below :
    Response (boundingBox below .standing) [cubeAt ⟨0, 0, 0⟩] ⟨1, 0, 0⟩
      (collideAgainst (boundingBox below .standing) [cubeAt ⟨0, 0, 0⟩] ⟨1, 0, 0⟩ true).1 := by
  have hfree : Free (boundingBox below .standing) [cubeAt ⟨0, 0, 0⟩] := by
    unfold Free
    decide +kernel
  exact (collide_responds below .standing _ ⟨1, 0, 0⟩ true (spaced_cube _ _ _) hfree).1

end Cubic.Movement
