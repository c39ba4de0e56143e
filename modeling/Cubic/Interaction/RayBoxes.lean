import Cubic.Interaction.Raycast
import Cubic.Lib.Ray

/-!
# What the test of a box says

A box that the ray gets into is met no later than it is got into. A box that is met is missed by no
more than the tolerance along each axis, and met no later than the ray leaves a cell around it, but
for the tolerance.
-/

namespace Cubic.Raycast

set_option autoImplicit false

open Interaction Movement Ray
open World hiding Vec3d

/-! ### One side -/

section
variable {rest rest' : Remaining} {side : Side} {t : ℚ}

theorem hitEpsilon_pos : 0 < hitEpsilon := by
  unfold hitEpsilon
  norm_num

theorem directionEpsilon_pos : 0 < directionEpsilon := by
  unfold directionEpsilon
  norm_num

theorem Remaining.narrow_of_flat (h : |side.d| ≤ directionEpsilon) : rest.narrow side =
    if side.o < side.min - hitEpsilon ∨ side.max + hitEpsilon < side.o then none else some rest :=
  if_pos h

theorem Remaining.narrow_of_steep (rest : Remaining) (h : ¬ |side.d| ≤ directionEpsilon) : ∃ face, rest.narrow side =
    if rest.far ⊓ exits side.o side.d side.min side.max + hitEpsilon <
        rest.near ⊔ enters side.o side.d side.min side.max then none
    else some ⟨rest.near ⊔ enters side.o side.d side.min side.max,
      rest.far ⊓ exits side.o side.d side.min side.max, face⟩ := by
  unfold Remaining.narrow
  rw [if_neg h]
  dsimp only
  rw [← min_def, ← max_def, ← max_def_lt]
  exact ⟨_, rfl⟩

/-- The point is in the slab of the side at the time `t`. -/
def Side.In (side : Side) (t : ℚ) : Prop :=
  side.min ≤ side.o + side.d * t ∧ side.o + side.d * t ≤ side.max

/-- The components of a direction are nothing or more than the tolerance. -/
def Side.Clear (side : Side) : Prop := side.d = 0 ∨ directionEpsilon < |side.d|

/-- A time at which the point is in the slab is left over. -/
theorem Remaining.narrow_of_in (hin : side.In t) (hclear : side.Clear)
    (hrest : rest.near ≤ t ∧ t ≤ rest.far) :
    ∃ rest', rest.narrow side = some rest' ∧ rest'.near ≤ t ∧ t ≤ rest'.far := by
  have hε := hitEpsilon_pos
  by_cases hflat : |side.d| ≤ directionEpsilon
  · refine ⟨rest, ?_, hrest⟩
    have hzero := hclear.resolve_right (not_lt.mpr hflat)
    obtain ⟨hlo, hhi⟩ := hin
    rw [hzero, zero_mul, add_zero] at hlo hhi
    rw [narrow_of_flat hflat, if_neg]
    rintro (hlt | hlt) <;> linarith
  · obtain ⟨face, hnarrow⟩ := narrow_of_steep rest hflat
    have hmoves : side.d ≠ 0 := by
      intro hzero
      rw [hzero, abs_zero] at hflat
      exact hflat directionEpsilon_pos.le
    obtain ⟨henters, hexits⟩ := (between_iff hmoves (hin.1.trans hin.2)).mpr hin
    have hnear := max_le hrest.1 henters
    have hfar := le_min hrest.2 hexits
    refine ⟨_, hnarrow.trans (if_neg ?_), hnear, hfar⟩
    linarith

/-- What is left of the ray stays within the slab, or along it. -/
structure Remaining.Meets (rest : Remaining) (side : Side) : Prop where
  along : |side.d| ≤ directionEpsilon →
    side.min - hitEpsilon ≤ side.o ∧ side.o ≤ side.max + hitEpsilon
  across : ¬ |side.d| ≤ directionEpsilon →
    enters side.o side.d side.min side.max ≤ rest.near ∧
      rest.far ≤ exits side.o side.d side.min side.max

theorem Remaining.Meets.mono (h : rest.Meets side) (hnear : rest.near ≤ rest'.near)
    (hfar : rest'.far ≤ rest.far) : rest'.Meets side :=
  ⟨h.along, fun hsteep => ⟨(h.across hsteep).1.trans hnear, hfar.trans (h.across hsteep).2⟩⟩

theorem Remaining.narrow_eq_some (h : rest.narrow side = some rest')
    (hrest : rest.near ≤ rest.far + hitEpsilon) :
    rest'.Meets side ∧ rest.near ≤ rest'.near ∧ rest'.far ≤ rest.far ∧
      rest'.near ≤ rest'.far + hitEpsilon := by
  by_cases hflat : |side.d| ≤ directionEpsilon
  · rw [narrow_of_flat hflat] at h
    split at h
    · cases h
    · rename_i hin
      cases h
      rw [not_or, not_lt, not_lt] at hin
      exact ⟨⟨fun _ => hin, fun hsteep => absurd hflat hsteep⟩, le_rfl, le_rfl, hrest⟩
  · obtain ⟨face, hnarrow⟩ := narrow_of_steep rest hflat
    rw [hnarrow] at h
    split at h
    · cases h
    · rename_i hleft
      cases h
      exact ⟨⟨fun hf => absurd hf hflat, fun _ => ⟨le_max_right _ _, min_le_right _ _⟩⟩,
        le_max_left _ _, min_le_left _ _, not_lt.mp hleft⟩

/-- The slab is near the point at the time at which the box is met. -/
theorem Remaining.Meets.exists_near (h : rest.Meets side)
    (hrest : rest.near ≤ rest.far + hitEpsilon) (hclear : side.Clear) (hside : side.min ≤ side.max)
    (hslow : |side.d| ≤ 1) :
    ∃ p, side.min ≤ p ∧ p ≤ side.max ∧ |side.o + side.d * rest.near - p| ≤ hitEpsilon := by
  have hε := hitEpsilon_pos
  by_cases hflat : |side.d| ≤ directionEpsilon
  · obtain ⟨hlo, hhi⟩ := h.along hflat
    rw [hclear.resolve_right (not_lt.mpr hflat), zero_mul, add_zero]
    refine ⟨max side.min (min side.o side.max), le_max_left _ _,
      max_le hside (min_le_right _ _), ?_⟩
    rcases le_total side.o side.max with hmax | hmax
    · rw [min_eq_left hmax]
      rcases le_total side.min side.o with hmin | hmin
      · rw [max_eq_right hmin, sub_self, abs_zero]
        exact hε.le
      · rw [max_eq_left hmin, abs_le]
        constructor <;> linarith
    · rw [min_eq_right hmax, max_eq_right hside, abs_le]
      constructor <;> linarith
  · obtain ⟨henters, hexits⟩ := h.across hflat
    have hmoves : side.d ≠ 0 := by
      intro hzero
      rw [hzero, abs_zero] at hflat
      exact hflat directionEpsilon_pos.le
    obtain ⟨p, hlo, hhi, hnear⟩ := Ray.exists_near hmoves hside hε.le henters
      (hrest.trans (add_le_add_left hexits hitEpsilon))
    exact ⟨p, hlo, hhi, hnear.trans (mul_le_of_le_one_left hε.le hslow)⟩

end

/-! ### All sides -/

theorem foldlM_narrow_of_in {t : ℚ} {sides : List Side} (hin : ∀ side ∈ sides, side.In t)
    (hclear : ∀ side ∈ sides, side.Clear) (rest : Remaining)
    (hrest : rest.near ≤ t ∧ t ≤ rest.far) :
    ∃ rest', sides.foldlM Remaining.narrow rest = some rest' ∧ rest'.near ≤ t ∧ t ≤ rest'.far := by
  induction sides generalizing rest with
  | nil => exact ⟨rest, rfl, hrest⟩
  | cons side sides ih =>
    obtain ⟨next, hnext, hleft⟩ := Remaining.narrow_of_in (hin _ List.mem_cons_self)
      (hclear _ List.mem_cons_self) hrest
    obtain ⟨rest', hrest', hend⟩ := ih (fun other hother => hin other (List.mem_cons_of_mem _ hother))
      (fun other hother => hclear other (List.mem_cons_of_mem _ hother)) next hleft
    refine ⟨rest', ?_, hend⟩
    rw [List.foldlM_cons, hnext]
    exact hrest'

theorem foldlM_narrow_eq_some {sides : List Side} {rest rest' : Remaining}
    (h : sides.foldlM Remaining.narrow rest = some rest')
    (hrest : rest.near ≤ rest.far + hitEpsilon) :
    (∀ side ∈ sides, rest'.Meets side) ∧ rest.near ≤ rest'.near ∧ rest'.far ≤ rest.far ∧
      rest'.near ≤ rest'.far + hitEpsilon := by
  induction sides generalizing rest with
  | nil =>
    cases h
    exact ⟨fun _ hside => absurd hside List.not_mem_nil, le_rfl, le_rfl, hrest⟩
  | cons side sides ih =>
    rw [List.foldlM_cons] at h
    obtain ⟨next, hnext, hfold⟩ := Option.bind_eq_some_iff.mp h
    obtain ⟨hmeets, hnear, hfar, hleft⟩ := Remaining.narrow_eq_some hnext hrest
    obtain ⟨hall, hnear', hfar', hend⟩ := ih hfold hleft
    refine ⟨?_, hnear.trans hnear', hfar'.trans hfar, hend⟩
    exact List.forall_mem_cons.mpr ⟨hmeets.mono hnear' hfar', hall⟩

/-! ### One box -/

def pointAt (origin direction : Vec3d) (t : ℚ) : Vec3d :=
  ⟨origin.x + direction.x * t, origin.y + direction.y * t, origin.z + direction.z * t⟩

/-- The point lies in the box or on its boundary. -/
def Holds (bounds : Aabb) (p : Vec3d) : Prop :=
  ∀ axis, bounds.min.along axis ≤ p.along axis ∧ p.along axis ≤ bounds.max.along axis

/-- The point lies in the box and not on its boundary. -/
def Interior (bounds : Aabb) (p : Vec3d) : Prop :=
  ∀ axis, bounds.min.along axis < p.along axis ∧ p.along axis < bounds.max.along axis

def lowFace : Axis → BlockFace
  | .x => .west
  | .y => .down
  | .z => .north

def highFace : Axis → BlockFace
  | .x => .east
  | .y => .up
  | .z => .south

def sideAlong (origin direction : Vec3d) (bounds : Aabb) (axis : Axis) : Side where
  o := origin.along axis
  d := direction.along axis
  min := bounds.min.along axis
  max := bounds.max.along axis
  lowFace := lowFace axis
  highFace := highFace axis

section
variable {origin direction : Vec3d} {bounds : Aabb} {reach t : ℚ} {hit : ℚ × BlockFace}

theorem along_pointAt (axis : Axis) : (pointAt origin direction t).along axis =
    origin.along axis + direction.along axis * t := by
  cases axis <;> rfl

theorem Interior.holds {p : Vec3d} (h : Interior bounds p) : Holds bounds p :=
  fun axis => ⟨(h axis).1.le, (h axis).2.le⟩

theorem forall_sides {P : Side → Prop} :
    (∀ side ∈ sides origin direction bounds, P side) ↔
      ∀ axis, P (sideAlong origin direction bounds axis) := by
  have hsides : sides origin direction bounds = [sideAlong origin direction bounds .x,
      sideAlong origin direction bounds .y, sideAlong origin direction bounds .z] := rfl
  rw [hsides, List.forall_mem_cons, List.forall_mem_cons, List.forall_mem_singleton]
  constructor
  · intro h axis
    cases axis with
    | x => exact h.1
    | y => exact h.2.1
    | z => exact h.2.2
  · exact fun h => ⟨h .x, h .y, h .z⟩

/-- Each component of a direction is nothing or more than the tolerance. -/
def Clear (direction : Vec3d) : Prop :=
  ∀ axis, direction.along axis = 0 ∨ directionEpsilon < |direction.along axis|

/-- A box that the ray is in at a time is met by then. -/
theorem intersectBox_of_holds (hclear : Clear direction)
    (h : Holds bounds (pointAt origin direction t)) (ht : 0 ≤ t ∧ t ≤ reach) :
    ∃ hit, intersectBox origin direction bounds reach = some hit ∧ hit.1 ≤ t := by
  have hε := hitEpsilon_pos
  have hin : ∀ side ∈ sides origin direction bounds, side.In t := by
    refine forall_sides.mpr fun axis => ?_
    have haxis := h axis
    rw [along_pointAt] at haxis
    exact haxis
  obtain ⟨rest, hrest, hnear, hfar⟩ :=
    foldlM_narrow_of_in hin (forall_sides.mpr hclear) ⟨0, reach, none⟩ ht
  refine ⟨_, Option.bind_eq_some_iff.mpr ⟨rest, hrest, if_neg ?_⟩, max_le hnear ht.1⟩
  obtain ⟨ht₀, htr⟩ := ht
  rintro (hlt | hlt) <;> linarith

theorem intersectBox_eq_some (hreach : 0 ≤ reach)
    (h : intersectBox origin direction bounds reach = some hit) :
    ∃ rest : Remaining, hit.1 = rest.near ∧ rest.near ≤ rest.far + hitEpsilon ∧
      ∀ axis, rest.Meets (sideAlong origin direction bounds axis) := by
  obtain ⟨rest, hrest, hend⟩ := Option.bind_eq_some_iff.mp h
  have hstart : (0 : ℚ) ≤ reach + hitEpsilon := add_nonneg hreach hitEpsilon_pos.le
  obtain ⟨hmeets, hnear, -, hleft⟩ := foldlM_narrow_eq_some hrest hstart
  refine ⟨rest, ?_, hleft, forall_sides.mp hmeets⟩
  split at hend
  · cases hend
  · cases hend
    exact max_eq_left hnear

/-- A box that is met has a point near the ray at the distance. -/
theorem intersectBox_near (hclear : Clear direction) (hslow : ∀ axis, |direction.along axis| ≤ 1)
    (hbounds : ∀ axis, bounds.min.along axis ≤ bounds.max.along axis) (hreach : 0 ≤ reach)
    (h : intersectBox origin direction bounds reach = some hit) :
    ∃ p, Holds bounds p ∧
      ∀ axis, |(pointAt origin direction hit.1).along axis - p.along axis| ≤ hitEpsilon := by
  obtain ⟨rest, hdistance, hleft, hmeets⟩ := intersectBox_eq_some hreach h
  have hnear (axis : Axis) : ∃ p, bounds.min.along axis ≤ p ∧ p ≤ bounds.max.along axis ∧
      |origin.along axis + direction.along axis * rest.near - p| ≤ hitEpsilon :=
    (hmeets axis).exists_near hleft (hclear axis) (hbounds axis) (hslow axis)
  choose p hlo hhi hp using hnear
  have halong (axis : Axis) : (⟨p .x, p .y, p .z⟩ : Vec3d).along axis = p axis := by
    cases axis <;> rfl
  refine ⟨⟨p .x, p .y, p .z⟩, fun axis => ?_, fun axis => ?_⟩
  · rw [halong]
    exact ⟨hlo axis, hhi axis⟩
  · rw [halong, along_pointAt, hdistance]
    exact hp axis

/-- A box that is met is met before the ray leaves a cell around it, but for the tolerance. -/
theorem intersectBox_le_of_leaves (hclear : Clear direction) (hreach : 0 ≤ reach)
    (h : intersectBox origin direction bounds reach = some hit) {axis : Axis} {c : ℤ}
    (hbounds : bounds.min.along axis ≤ bounds.max.along axis)
    (hlo : (c : ℚ) ≤ bounds.min.along axis) (hhi : bounds.max.along axis ≤ c + 1)
    (hleaves : leaves (origin.along axis) (direction.along axis) c < t) :
    hit.1 ≤ t + hitEpsilon := by
  obtain ⟨rest, hdistance, hleft, hmeets⟩ := intersectBox_eq_some hreach h
  have hmoves : direction.along axis ≠ 0 := by
    intro hzero
    rw [hzero, leaves_zero] at hleaves
    exact absurd hleaves not_top_lt
  have hsteep := not_le.mpr ((hclear axis).resolve_left hmoves)
  have hfar := ((hmeets axis).across hsteep).2
  have hexits := (exits_le_leaves hmoves hbounds hlo hhi).trans_lt hleaves
  rw [WithTop.coe_lt_coe] at hexits
  rw [hdistance]
  exact hleft.trans (add_le_add_left (hfar.trans hexits.le) hitEpsilon)

end

/-! ### One shape -/

section
variable {origin direction : Vec3d} {bounds : Aabb} {reach : ℚ} {cell : BlockCoordinates}
  {shape : CollisionShape}

theorem intersectShape_eq_some {hit : ShapeHit}
    (h : intersectShape origin direction reach cell shape = some hit) :
    hit.bounds ∈ worldBoxes cell shape ∧
      intersectBox origin direction hit.bounds reach = some (hit.distance, hit.face) := by
  obtain ⟨box, hbox, hmap⟩ := List.mem_filterMap.mp (List.argmin_mem (Option.mem_def.mpr h))
  obtain ⟨found, hfound, heq⟩ := Option.map_eq_some_iff.mp hmap
  cases heq
  exact ⟨hbox, hfound⟩

/-- Of the boxes that are met, the shape has the nearest. -/
theorem intersectShape_of_meets {found : ℚ × BlockFace} (hbox : bounds ∈ worldBoxes cell shape)
    (hfound : intersectBox origin direction bounds reach = some found) :
    ∃ hit, intersectShape origin direction reach cell shape = some hit ∧ hit.distance ≤ found.1 := by
  have hmem : (⟨found.1, found.2, bounds, worldBoxes cell shape⟩ : ShapeHit) ∈
      (worldBoxes cell shape).filterMap fun bounds =>
        (intersectBox origin direction bounds reach).map fun hit =>
          (⟨hit.1, hit.2, bounds, worldBoxes cell shape⟩ : ShapeHit) :=
    List.mem_filterMap.mpr ⟨bounds, hbox, Option.map_eq_some_iff.mpr ⟨found, hfound, rfl⟩⟩
  cases hshape : intersectShape origin direction reach cell shape with
  | none =>
    unfold intersectShape at hshape
    dsimp only at hshape
    rw [List.argmin_eq_none.mp hshape] at hmem
    exact absurd hmem List.not_mem_nil
  | some hit => exact ⟨hit, rfl, List.le_of_mem_argmin hmem (Option.mem_def.mpr hshape)⟩

end

end Cubic.Raycast
