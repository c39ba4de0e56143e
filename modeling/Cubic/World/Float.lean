import Cubic.Lib.Machine

/-!
# Floating-point numbers by their bits

Only what the world state asks of a number is defined: whether it is finite, and how it
compares. Sums are left to a parameter where they are taken.
-/

namespace Cubic.World

set_option autoImplicit false

structure F32 where
  bits : UInt32
  deriving DecidableEq

structure F64 where
  bits : UInt64
  deriving DecidableEq

namespace F32

/-- The exponent bits are not all set. -/
def isFinite (a : F32) : Bool := (a.bits >>> 23) &&& 0xff != 0xff

def isNan (a : F32) : Bool := !a.isFinite && a.bits &&& 0x7fffff != 0

/-- A number in the order of the floating-point numbers, both zeros at zero. -/
def rank (a : F32) : Int :=
  if a.bits < 0x80000000 then a.bits.toNat else -(a.bits.toNat - 2 ^ 31 : Nat)

/-- `a < b`; no comparison with a NaN holds. -/
def lt (a b : F32) : Bool := !a.isNan && !b.isNan && decide (a.rank < b.rank)

def le (a b : F32) : Bool := !a.isNan && !b.isNan && decide (a.rank ≤ b.rank)

/-- `f32::clamp` -/
def clamp (a min max : F32) : F32 := if a.lt min then min else if max.lt a then max else a

def zero : F32 := ⟨0⟩
def half : F32 := ⟨0x3f000000⟩
def one : F32 := ⟨0x3f800000⟩
def ninety : F32 := ⟨0x42b40000⟩
def minusNinety : F32 := ⟨0xc2b40000⟩

end F32

namespace F64

def isFinite (a : F64) : Bool := (a.bits >>> 52) &&& 0x7ff != 0x7ff

def isNan (a : F64) : Bool := !a.isFinite && a.bits &&& 0xfffffffffffff != 0

def rank (a : F64) : Int :=
  if a.bits < 0x8000000000000000 then a.bits.toNat else -(a.bits.toNat - 2 ^ 63 : Nat)

def lt (a b : F64) : Bool := !a.isNan && !b.isNan && decide (a.rank < b.rank)

def le (a b : F64) : Bool := !a.isNan && !b.isNan && decide (a.rank ≤ b.rank)

def zero : F64 := ⟨0⟩
def one : F64 := ⟨0x3ff0000000000000⟩
def minusOne : F64 := ⟨0xbff0000000000000⟩

end F64

structure Vec3d where
  x : F64
  y : F64
  z : F64
  deriving DecidableEq

def Vec3d.isFinite (v : Vec3d) : Bool := v.x.isFinite && v.y.isFinite && v.z.isFinite

structure LocalPlayerPose where
  x : F64
  y : F64
  z : F64
  yaw : F32
  pitch : F32
  eyeHeight : F64
  deriving DecidableEq

end Cubic.World
