import Cubic.Lib.Machine
import Mathlib.Data.Rat.Floor

/-!
# Boxes (`movement.rs`)

Coordinates are read as exact rationals.
-/

namespace Cubic.Movement

set_option autoImplicit false

structure Vec3d where
  x : ℚ
  y : ℚ
  z : ℚ
  deriving DecidableEq

structure Aabb where
  min : Vec3d
  max : Vec3d
  deriving DecidableEq

def collisionEpsilon : ℚ := 1 / 10 ^ 7

def Vec3d.translated (v : Vec3d) (x y z : ℚ) : Vec3d := ⟨v.x + x, v.y + y, v.z + z⟩

def Aabb.translated (b : Aabb) (x y z : ℚ) : Aabb := ⟨b.min.translated x y z, b.max.translated x y z⟩

def overlaps (min max otherMin otherMax : ℚ) : Prop :=
  otherMin + collisionEpsilon < max ∧ min < otherMax - collisionEpsilon

instance (min max otherMin otherMax : ℚ) : Decidable (overlaps min max otherMin otherMax) :=
  inferInstanceAs (Decidable (_ ∧ _))

def aabbsOverlap (left right : Aabb) : Prop :=
  overlaps left.min.x left.max.x right.min.x right.max.x ∧
    overlaps left.min.y left.max.y right.min.y right.max.y ∧
    overlaps left.min.z left.max.z right.min.z right.max.z

instance (left right : Aabb) : Decidable (aabbsOverlap left right) :=
  inferInstanceAs (Decidable (_ ∧ _))

def fullCubeBounds : Aabb := ⟨⟨0, 0, 0⟩, ⟨1, 1, 1⟩⟩

/-- `f64::floor` and `as i32`, which cuts off what is out of range. -/
def floorAsI32 (a : ℚ) : Int32 := .ofInt (max (-2 ^ 31) (min ⌊a⌋ (2 ^ 31 - 1)))

/-! ### Boxes inside boxes -/

/-- `inner` lies within `outer`. -/
structure Aabb.Encloses (outer inner : Aabb) : Prop where
  minX : outer.min.x ≤ inner.min.x
  minY : outer.min.y ≤ inner.min.y
  minZ : outer.min.z ≤ inner.min.z
  maxX : inner.max.x ≤ outer.max.x
  maxY : inner.max.y ≤ outer.max.y
  maxZ : inner.max.z ≤ outer.max.z

theorem Aabb.Encloses.refl (b : Aabb) : b.Encloses b :=
  ⟨le_rfl, le_rfl, le_rfl, le_rfl, le_rfl, le_rfl⟩

theorem Aabb.Encloses.trans {a b c : Aabb} (h : a.Encloses b) (h' : b.Encloses c) :
    a.Encloses c :=
  ⟨h.minX.trans h'.minX, h.minY.trans h'.minY, h.minZ.trans h'.minZ, h'.maxX.trans h.maxX,
    h'.maxY.trans h.maxY, h'.maxZ.trans h.maxZ⟩

theorem overlaps_mono {min max min' max' otherMin otherMax : ℚ} (hmin : min' ≤ min)
    (hmax : max ≤ max') (h : overlaps min max otherMin otherMax) :
    overlaps min' max' otherMin otherMax :=
  ⟨h.1.trans_le hmax, hmin.trans_lt h.2⟩

/-- What overlaps a box overlaps every box around it. -/
theorem Aabb.Encloses.overlap {outer inner other : Aabb} (h : outer.Encloses inner)
    (hother : aabbsOverlap inner other) : aabbsOverlap outer other :=
  ⟨overlaps_mono h.minX h.maxX hother.1, overlaps_mono h.minY h.maxY hother.2.1,
    overlaps_mono h.minZ h.maxZ hother.2.2⟩

/-! ### Whole coordinates -/

theorem toInt_floorAsI32 (a : ℚ) :
    (floorAsI32 a).toInt = max (-2 ^ 31) (min ⌊a⌋ (2 ^ 31 - 1)) := by
  unfold floorAsI32
  rw [Int32.toInt_ofInt]
  unfold Int32.size
  apply Int.bmod_eq_of_le <;> omega

/-- A coordinate below the upper end of a cell falls at or below the cell. -/
theorem floorAsI32_le {a : ℚ} {p : Int32} (h : a < (p.toInt : ℚ) + 1) :
    (floorAsI32 a).toInt ≤ p.toInt := by
  have hfloor : ⌊a⌋ < p.toInt + 1 := Int.floor_lt.mpr (by push_cast; exact h)
  have hlow := p.le_toInt
  rw [toInt_floorAsI32]
  omega

theorem le_floorAsI32 {a : ℚ} {p : Int32} (h : (p.toInt : ℚ) ≤ a) :
    p.toInt ≤ (floorAsI32 a).toInt := by
  have hfloor : p.toInt ≤ ⌊a⌋ := Int.le_floor.mpr h
  have hhigh := p.toInt_lt
  rw [toInt_floorAsI32]
  omega

end Cubic.Movement
