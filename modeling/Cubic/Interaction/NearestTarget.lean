import Cubic.Interaction.RayTraversal
import Cubic.Movement.Completeness

/-!
# The nearest target of a ray

For a direction of length one, what the ray gets into first is what it is cast at, up to the
tolerance, and the number of cells is never what ends the traversal.
-/

namespace Cubic.Raycast

set_option autoImplicit false

open Interaction Movement Ray
open World hiding Vec3d

/-! ### What a ray is cast at -/

section
variable (chunks : LoadedChunks) (geometry : DimensionGeometry) (profile : BlockOutlineProfile)

/-- A box of the outline of a loaded block. -/
structure Outlined (position : BlockCoordinates) (state : RuntimeBlockStateId) (bounds : Aabb) :
    Prop where
  loaded : World.Raycast.blockStateAt chunks geometry position = some state
  outline : bounds ∈ worldBoxes position (profile.shape state)

/-- How far along the segment a point of it is in the interior of such a box. -/
def meetings (origin direction : Vec3d) (reach : ℚ) : Set ℚ :=
  fun t => 0 ≤ t ∧ t ≤ reach ∧ ∃ position state bounds,
    Outlined chunks geometry profile position state bounds ∧
      Interior bounds (pointAt origin direction t)

end

def InUnitCell (bounds : Aabb) : Prop :=
  ∀ axis, 0 ≤ bounds.min.along axis ∧ bounds.min.along axis ≤ bounds.max.along axis ∧
    bounds.max.along axis ≤ 1

/-- What is asked of a ray and of the outlines. -/
structure Castable (profile : BlockOutlineProfile) (origin direction : Vec3d) (reach : BlockReach) :
    Prop where
  outlines : ∀ state, ∀ bounds ∈ (profile.shape state).all, InUnitCell bounds
  unit : direction.x * direction.x + direction.y * direction.y + direction.z * direction.z = 1
  clear : Clear direction
  origin : ∀ axis, -2 ^ 31 ≤ origin.along axis ∧ origin.along axis < 2 ^ 31
  reach : 0 ≤ reach.blocks ∧ reach.blocks ≤ 32

section
variable {chunks : LoadedChunks} {geometry : DimensionGeometry} {profile : BlockOutlineProfile}
  {origin direction : Vec3d} {reach : BlockReach} {cell : BlockCoordinates}
  {state : RuntimeBlockStateId} {bounds : Aabb}

/-! ### Boxes of a cell -/

theorem along_translated (bounds : Aabb) (cell : BlockCoordinates) (axis : Axis) :
    (bounds.translated cell.x.toInt cell.y.toInt cell.z.toInt).min.along axis =
        bounds.min.along axis + (placeOf cell axis : ℚ) ∧
      (bounds.translated cell.x.toInt cell.y.toInt cell.z.toInt).max.along axis =
        bounds.max.along axis + (placeOf cell axis : ℚ) := by
  cases axis <;> exact ⟨rfl, rfl⟩

/-- The boxes that a block puts into its cell stay within it. -/
theorem Castable.within (h : Castable profile origin direction reach)
    (hbounds : bounds ∈ worldBoxes cell (profile.shape state)) (axis : Axis) :
    (placeOf cell axis : ℚ) ≤ bounds.min.along axis ∧
      bounds.min.along axis ≤ bounds.max.along axis ∧
        bounds.max.along axis ≤ placeOf cell axis + 1 := by
  obtain ⟨box, hbox, rfl⟩ := List.mem_map.mp hbounds
  obtain ⟨hlo, hle, hhi⟩ := h.outlines state box hbox axis
  rw [(along_translated box cell axis).1, (along_translated box cell axis).2]
  refine ⟨?_, ?_, ?_⟩ <;> linarith

/-! ### The direction -/

theorem Castable.length (h : Castable profile origin direction reach) :
    vectorLength direction = 1 := by
  unfold vectorLength
  rw [h.unit, ← one_mul (1 : ℚ), Rat.sqrt_eq, abs_one, one_mul]

theorem Castable.slow (h : Castable profile origin direction reach) (axis : Axis) :
    |direction.along axis| ≤ 1 := by
  have hunit := h.unit
  have hx := mul_self_nonneg direction.x
  have hy := mul_self_nonneg direction.y
  have hz := mul_self_nonneg direction.z
  rw [← sq_le_one_iff_abs_le_one, sq]
  cases axis with
  | x => exact (by linarith : direction.x * direction.x ≤ 1)
  | y => exact (by linarith : direction.y * direction.y ≤ 1)
  | z => exact (by linarith : direction.z * direction.z ≤ 1)

/-- The components of a direction of length one are no more than `√3` together. -/
theorem Castable.sum_abs (h : Castable profile origin direction reach) :
    ∑ axis, |direction.along axis| ≤ 7 / 4 := by
  have hunit := h.unit
  rw [← abs_mul_abs_self direction.x, ← abs_mul_abs_self direction.y,
    ← abs_mul_abs_self direction.z] at hunit
  rw [sum_axes]
  change |direction.x| + |direction.y| + |direction.z| ≤ 7 / 4
  nlinarith [sq_nonneg (|direction.x| - |direction.y|), sq_nonneg (|direction.y| - |direction.z|),
    sq_nonneg (|direction.x| - |direction.z|), abs_nonneg direction.x, abs_nonneg direction.y,
    abs_nonneg direction.z]

/-! ### The start -/

def startOf (origin : Vec3d) : BlockCoordinates :=
  ⟨floorI32 origin.x, floorI32 origin.y, floorI32 origin.z⟩

theorem cellAlong_startOf (axis : Axis) :
    cellAlong (startOf origin) axis = floorI32 (origin.along axis) := by
  cases axis <;> rfl

theorem Castable.placeOf_startOf (h : Castable profile origin direction reach) (axis : Axis) :
    placeOf (startOf origin) axis = ⌊origin.along axis⌋ := by
  obtain ⟨hlo, hhi⟩ := h.origin axis
  have hlow : -2 ^ 31 ≤ ⌊origin.along axis⌋ := Int.le_floor.mpr (by exact_mod_cast hlo)
  have hhigh : ⌊origin.along axis⌋ < 2 ^ 31 := Int.floor_lt.mpr (by exact_mod_cast hhi)
  unfold placeOf
  rw [cellAlong_startOf]
  change (Int32.ofInt (saturate ⌊origin.along axis⌋)).toInt = _
  rw [toInt_ofInt_saturate]
  unfold saturate
  omega

theorem Castable.start (h : Castable profile origin direction reach) (axis : Axis) :
    (placeOf (startOf origin) axis : ℚ) ≤ origin.along axis ∧
      origin.along axis ≤ placeOf (startOf origin) axis + 1 := by
  rw [h.placeOf_startOf]
  exact ⟨Int.floor_le _, (Int.lt_floor_add_one _).le⟩

/-- The traversal before its first step. -/
def walkFrom (origin direction : Vec3d) : Traversal :=
  ⟨startOf origin, (stepsFrom origin direction (startOf origin)).x.t,
    (stepsFrom origin direction (startOf origin)).y.t,
    (stepsFrom origin direction (startOf origin)).z.t⟩

theorem at_start (hclear : Clear direction) : At origin direction (startOf origin)
    (walkFrom origin direction) (placeOf (startOf origin)) := by
  refine ⟨(cellOf_placeOf _).symm, fun axis => ?_, fun axis => Toward.refl _ _⟩
  have htime : (walkFrom origin direction).time axis =
      ((stepsFrom origin direction (startOf origin)).along axis).t := by
    cases axis <;> rfl
  rw [htime, along_stepsFrom, axisStep_eq (hclear axis)]
  rfl

/-- What a ray is cast at in a place of the grid. -/
def visit (chunks : LoadedChunks) (geometry : DimensionGeometry) (profile : BlockOutlineProfile)
    (origin direction : Vec3d) (reach : BlockReach) (place : Axis → ℤ) : Option BlockTarget :=
  targetIn chunks geometry profile origin direction reach.blocks (cellOf place)

theorem raycastWithin_eq (h : Castable profile origin direction reach) (cells : Nat) :
    raycastWithin cells chunks geometry profile origin direction reach =
      .ok (GridWalk.search origin.along direction.along (reach.blocks + hitEpsilon)
        (pick origin direction) (visit chunks geometry profile origin direction reach) cells
        (placeOf (startOf origin))) := by
  have hlong : ¬ (1 : ℚ) ≤ directionEpsilon := by
    unfold directionEpsilon
    norm_num
  unfold raycastWithin
  dsimp only
  rw [if_neg (not_not.mpr h.reach), h.length, if_neg hlong, div_one, div_one, div_one]
  change Except.ok (traverse (stepsFrom origin direction (startOf origin)) _ _ cells
    (walkFrom origin direction)) = _
  rw [traverse_eq_search h.clear cells (at_start h.clear)]
  rfl

/-! ### The main results -/

/-- The number of cells is never what ends the traversal. -/
theorem raycastWithin_add (h : Castable profile origin direction reach) (more : Nat) :
    raycastWithin (maxRaycastCells + more) chunks geometry profile origin direction reach =
      raycastWithin maxRaycastCells chunks geometry profile origin direction reach := by
  have hlimit : 0 ≤ reach.blocks + hitEpsilon := add_nonneg h.reach.1 hitEpsilon_pos.le
  have henough : (∑ axis, |direction.along axis|) * (reach.blocks + hitEpsilon) +
      Fintype.card Axis < (maxRaycastCells : ℕ) := by
    have hsum := mul_le_mul_of_nonneg_right h.sum_abs hlimit
    have hreach := h.reach.2
    have hcard : Fintype.card Axis = 3 := rfl
    rw [hcard]
    unfold maxRaycastCells
    unfold hitEpsilon at hsum ⊢
    norm_num at hsum ⊢
    linarith
  rw [raycastWithin_eq h, raycastWithin_eq h]
  refine congrArg Except.ok (GridWalk.search_add h.start henough (.refl hlimit) ?_ more)
  exact Nat.le_add_left _ _

theorem targetIn_eq_some {target : BlockTarget}
    (h : targetIn chunks geometry profile origin direction reach.blocks cell = some target) :
    ∃ hit, World.Raycast.blockStateAt chunks geometry cell = some target.state ∧
      intersectShape origin direction reach.blocks cell (profile.shape target.state) = some hit ∧
        target.position = cell ∧ target.distance = hit.distance ∧ target.bounds = hit.bounds ∧
          target.hit = pointAt origin direction hit.distance := by
  obtain ⟨state, hstate, hrest⟩ := Option.bind_eq_some_iff.mp h
  obtain ⟨hit, hhit, htarget⟩ := Option.bind_eq_some_iff.mp hrest
  cases htarget
  exact ⟨hit, hstate, hhit, rfl, rfl, rfl, rfl⟩

/-- A block whose outline the ray gets into makes a target, at no greater distance. -/
theorem targetIn_of_meets (hclear : Clear direction) {t : ℚ} (ht : 0 ≤ t ∧ t ≤ reach.blocks)
    (houtlined : Outlined chunks geometry profile cell state bounds)
    (h : Interior bounds (pointAt origin direction t)) :
    ∃ target, targetIn chunks geometry profile origin direction reach.blocks cell = some target ∧
      target.distance ≤ t := by
  obtain ⟨found, hfound, hle⟩ := intersectBox_of_holds hclear h.holds ht
  obtain ⟨hit, hhit, hnearest⟩ := intersectShape_of_meets houtlined.outline hfound
  exact ⟨_, Option.bind_eq_some_iff.mpr ⟨state, houtlined.loaded,
    Option.bind_eq_some_iff.mpr ⟨hit, hhit, rfl⟩⟩, hnearest.trans hle⟩

/-- A target in a cell that the ray leaves before a time is nearer, but for the tolerance. -/
theorem targetIn_le_of_leaves (h : Castable profile origin direction reach) {target : BlockTarget}
    (htarget : targetIn chunks geometry profile origin direction reach.blocks cell = some target)
    {axis : Axis} {t : ℚ}
    (hleaves : leaves (origin.along axis) (direction.along axis) (placeOf cell axis) < t) :
    target.distance ≤ t + hitEpsilon := by
  obtain ⟨hit, -, hhit, -, hdistance, -, -⟩ := targetIn_eq_some htarget
  obtain ⟨hbounds, hbox⟩ := intersectShape_eq_some hhit
  obtain ⟨hlo, hle, hhi⟩ := h.within hbounds axis
  rw [hdistance]
  exact intersectBox_le_of_leaves h.clear h.reach.1 hbox hle hlo hhi hleaves

/-- What the ray gets into is not before the target, but for the tolerance. -/
theorem raycastBlocks_of_meets (h : Castable profile origin direction reach) {t : ℚ}
    (hmeets : t ∈ meetings chunks geometry profile origin direction reach.blocks) :
    ∃ target, raycastBlocks chunks geometry profile origin direction reach = .ok (some target) ∧
      target.distance ≤ t + hitEpsilon := by
  obtain ⟨ht, htreach, cell, state, bounds, houtlined, hinterior⟩ := hmeets
  have hwithin (axis : Axis) : InCell (origin.along axis) (direction.along axis) t
      (placeOf cell axis) := by
    obtain ⟨hlo, -, hhi⟩ := h.within houtlined.outline axis
    obtain ⟨hin, hout⟩ := hinterior axis
    rw [along_pointAt] at hin hout
    exact ⟨hlo.trans_lt hin, hout.trans_le hhi⟩
  have htoward (axis : Axis) : Toward (direction.along axis) (placeOf (startOf origin) axis)
      (placeOf cell axis) :=
    toward_of_within (h.start axis) ht (hwithin axis)
  obtain ⟨own, hown, hownle⟩ := targetIn_of_meets h.clear ⟨ht, htreach⟩ houtlined hinterior
  have hvisit : (visit chunks geometry profile origin direction reach (placeOf cell)).isSome := by
    unfold visit
    rw [cellOf_placeOf, hown]
    rfl
  -- cells enough to get there; the limit on them makes no difference
  have hcells : GridWalk.distance (placeOf (startOf origin)) (placeOf cell) <
      maxRaycastCells + (GridWalk.distance (placeOf (startOf origin)) (placeOf cell) + 1) := by
    omega
  obtain ⟨last, target, hsearch, hlast, hway, hend⟩ := GridWalk.search_meets pick_first hvisit
    (htreach.trans (le_add_of_nonneg_right hitEpsilon_pos.le)) hwithin htoward hcells
  refine ⟨target, ?_, ?_⟩
  · unfold raycastBlocks
    rw [← raycastWithin_add h, raycastWithin_eq h, hsearch]
  · have hε := hitEpsilon_pos
    rcases hend with rfl | hleaves
    · unfold visit at hlast
      rw [cellOf_placeOf, hown] at hlast
      cases hlast
      linarith
    · rw [← placeOf_cellOf (fun axis => (hway axis).1) fun axis => (hway axis).2] at hleaves
      exact targetIn_le_of_leaves h hlast hleaves

/-- A target is the box of a block near the point where the ray is taken to meet it. -/
theorem raycastBlocks_sound (h : Castable profile origin direction reach) {target : BlockTarget}
    (htarget : raycastBlocks chunks geometry profile origin direction reach = .ok (some target)) :
    Outlined chunks geometry profile target.position target.state target.bounds ∧
      target.hit = pointAt origin direction target.distance ∧
        ∃ p, Holds target.bounds p ∧
          ∀ axis, |target.hit.along axis - p.along axis| ≤ hitEpsilon := by
  unfold raycastBlocks at htarget
  rw [raycastWithin_eq h] at htarget
  obtain ⟨last, hlast⟩ := GridWalk.search_found (Except.ok.inj htarget)
  obtain ⟨hit, hloaded, hhit, hposition, hdistance, hbounds, hpoint⟩ := targetIn_eq_some hlast
  obtain ⟨hmem, hbox⟩ := intersectShape_eq_some hhit
  have hnear := intersectBox_near h.clear h.slow (fun axis => (h.within hmem axis).2.1) h.reach.1
    hbox
  rw [hposition, hbounds, hdistance, hpoint]
  exact ⟨⟨hloaded, hmem⟩, rfl, hnear⟩

end

/-- A ray of length one is cast at what it gets into first, up to the tolerance; what it is cast at
is as near to its hit as the tolerance along each axis, and no limit on the cells cuts it short. -/
theorem raycastBlocks_nearest (chunks : LoadedChunks) (geometry : DimensionGeometry)
    {profile : BlockOutlineProfile} {origin direction : Vec3d} {reach : BlockReach}
    (h : Castable profile origin direction reach) :
    (∀ d, IsGLB (meetings chunks geometry profile origin direction reach.blocks) d →
      ∃ target, raycastBlocks chunks geometry profile origin direction reach = .ok (some target) ∧
        target.distance ≤ d + hitEpsilon) ∧
    (∀ target, raycastBlocks chunks geometry profile origin direction reach = .ok (some target) →
      Outlined chunks geometry profile target.position target.state target.bounds ∧
        target.hit = pointAt origin direction target.distance ∧
          ∃ p, Holds target.bounds p ∧
            ∀ axis, |target.hit.along axis - p.along axis| ≤ hitEpsilon) ∧
    ∀ more, raycastWithin (maxRaycastCells + more) chunks geometry profile origin direction reach =
      raycastBlocks chunks geometry profile origin direction reach := by
  refine ⟨fun d hd => ?_, fun target htarget => raycastBlocks_sound h htarget,
    raycastWithin_add h⟩
  have hsome : (meetings chunks geometry profile origin direction reach.blocks).Nonempty := by
    rw [Set.nonempty_iff_ne_empty]
    intro hempty
    rw [hempty, isGLB_empty_iff] at hd
    exact not_isTop d hd
  obtain ⟨t, ht⟩ := hsome
  obtain ⟨target, htarget, -⟩ := raycastBlocks_of_meets h ht
  refine ⟨target, htarget, sub_le_iff_le_add.mp (hd.2 fun s hs => ?_)⟩
  obtain ⟨other, hother, hle⟩ := raycastBlocks_of_meets h hs
  cases htarget.symm.trans hother
  exact sub_le_iff_le_add.mpr hle

/-! ### A ray past an edge -/

/-- The outline of the cauldron is taken to be the upper corner of its cell. -/
def cornerProfile : BlockOutlineProfile :=
  .synthetic [(⟨9460⟩, .boxes [⟨⟨1 / 2, 1 / 2, 1 / 2⟩, ⟨1, 1, 1⟩⟩])]

/-- Below the corner and north of it, by the tolerance each. -/
def cornerOrigin : Vec3d := ⟨1 / 4, 1 / 2 - hitEpsilon, 1 / 2 - hitEpsilon⟩

def cornerTarget : BlockTarget where
  position := ⟨0, 0, 0⟩
  state := ⟨9460⟩
  face := .west
  hit := ⟨1 / 2, 1 / 2 - hitEpsilon, 1 / 2 - hitEpsilon⟩
  distance := 1 / 4
  bounds := ⟨⟨1 / 2, 1 / 2, 1 / 2⟩, ⟨1, 1, 1⟩⟩
  outline := [⟨⟨1 / 2, 1 / 2, 1 / 2⟩, ⟨1, 1, 1⟩⟩]

theorem castable_corner : Castable cornerProfile cornerOrigin ⟨1, 0, 0⟩ ⟨4⟩ := by
  refine ⟨fun state bounds hbounds => ?_, by norm_num, fun axis => ?_, fun axis => ?_, by norm_num⟩
  · by_cases hstate : (⟨9460⟩ : RuntimeBlockStateId) = state
    · subst hstate
      cases List.mem_singleton.mp hbounds
      intro axis
      cases axis <;> exact ⟨by norm_num [Vec3d.along], by norm_num [Vec3d.along],
        by norm_num [Vec3d.along]⟩
    · have hlookup : cornerProfile.states.lookup state = none := by
        change (OrderedMap.insert .empty (⟨9460⟩ : RuntimeBlockStateId) _).lookup state = none
        rw [OrderedMap.lookup_insert, if_neg (Ne.symm hstate)]
        rfl
      unfold BlockOutlineProfile.shape at hbounds
      rw [hlookup] at hbounds
      exact absurd hbounds List.not_mem_nil
  · cases axis with
    | x => exact Or.inr (by norm_num [Vec3d.along, directionEpsilon])
    | y => exact Or.inl rfl
    | z => exact Or.inl rfl
  · cases axis <;> norm_num [Vec3d.along, cornerOrigin, hitEpsilon]

theorem raycastBlocks_corner : raycastBlocks cauldronChunks ⟨0, 16⟩ cornerProfile cornerOrigin
    ⟨1, 0, 0⟩ ⟨4⟩ = .ok (some cornerTarget) := by
  decide +kernel

/-- The ray passes the corner at more than the tolerance, and is cast at it. -/
theorem raycastBlocks_hits_beside : Castable cornerProfile cornerOrigin ⟨1, 0, 0⟩ ⟨4⟩ ∧
    raycastBlocks cauldronChunks ⟨0, 16⟩ cornerProfile cornerOrigin ⟨1, 0, 0⟩ ⟨4⟩ =
      .ok (some cornerTarget) ∧
    ∀ p, Holds cornerTarget.bounds p →
      hitEpsilon ^ 2 < (cornerTarget.hit.x - p.x) ^ 2 + (cornerTarget.hit.y - p.y) ^ 2 +
        (cornerTarget.hit.z - p.z) ^ 2 := by
  refine ⟨castable_corner, raycastBlocks_corner, fun p hp => ?_⟩
  have hε := hitEpsilon_pos
  have hy : hitEpsilon ^ 2 ≤ (cornerTarget.hit.y - p.y) ^ 2 := by
    have hp' : 1 / 2 ≤ p.y := (hp .y).1
    change hitEpsilon ^ 2 ≤ (1 / 2 - hitEpsilon - p.y) ^ 2
    rw [← neg_sq (1 / 2 - hitEpsilon - p.y)]
    exact pow_le_pow_left₀ hε.le (by linarith) 2
  have hz : hitEpsilon ^ 2 ≤ (cornerTarget.hit.z - p.z) ^ 2 := by
    have hp' : 1 / 2 ≤ p.z := (hp .z).1
    change hitEpsilon ^ 2 ≤ (1 / 2 - hitEpsilon - p.z) ^ 2
    rw [← neg_sq (1 / 2 - hitEpsilon - p.z)]
    exact pow_le_pow_left₀ hε.le (by linarith) 2
  have hx := sq_nonneg (cornerTarget.hit.x - p.x)
  have hpos := pow_pos hε 2
  linarith

theorem raycastBlocks_nearest_corner :
    (∀ d, IsGLB (meetings cauldronChunks ⟨0, 16⟩ cornerProfile cornerOrigin ⟨1, 0, 0⟩ 4) d →
      ∃ target, raycastBlocks cauldronChunks ⟨0, 16⟩ cornerProfile cornerOrigin ⟨1, 0, 0⟩ ⟨4⟩ =
          .ok (some target) ∧ target.distance ≤ d + hitEpsilon) ∧
    (∃ p, Holds cornerTarget.bounds p ∧
      ∀ axis, |cornerTarget.hit.along axis - p.along axis| ≤ hitEpsilon) ∧
    raycastWithin 1000 cauldronChunks ⟨0, 16⟩ cornerProfile cornerOrigin ⟨1, 0, 0⟩ ⟨4⟩ =
      .ok (some cornerTarget) := by
  obtain ⟨hfirst, hsound, hcells⟩ :=
    raycastBlocks_nearest cauldronChunks ⟨0, 16⟩ castable_corner
  exact ⟨hfirst, (hsound _ raycastBlocks_corner).2.2, (hcells 936).trans raycastBlocks_corner⟩

end Cubic.Raycast
