import Cubic.Codec.VarInt
import Cubic.Lib.BinarySearch
import Cubic.Lib.OrderedMap
import Cubic.Version.Official
import Mathlib.Data.Rat.Defs

/-!
# Generated block shapes (`shape_data.rs`)

The numbers of the artifact are read as exact rationals, all of them finite; what the JSON
crate makes of the bytes is a parameter.
-/

namespace Cubic.Version

set_option autoImplicit false

open BinarySearch

def shapeDataSchemaVersion : UInt32 := 1
def maxShapeDataBytes : Nat := 16 * 1024 * 1024
def maxStates : Nat := 65536
def maxShapes : Nat := 4096
def maxBoxesPerShape : Nat := 256

/-- The six numbers of a box: its lower corner, then its upper one. -/
structure ShapeDataBox where
  minX : ℚ
  minY : ℚ
  minZ : ℚ
  maxX : ℚ
  maxY : ℚ
  maxZ : ℚ
  deriving DecidableEq

inductive DynamicCollisionKind where
  | scaffolding
  | powderSnow
  | movingPistonBlockEntity
  deriving DecidableEq

structure BlockStateShape where
  runtimeId : UInt32
  block : String
  properties : OrderedMap String String
  collisionShape : Nat
  outlineShape : Nat
  dynamicContext : Option DynamicCollisionKind
  deriving DecidableEq

structure ShapeData where
  schemaVersion : UInt32
  minecraftVersion : MinecraftVersionId
  stateCount : Nat
  shapes : List (List ShapeDataBox)
  states : List BlockStateShape

namespace ShapeData

def state (data : ShapeData) (runtimeId : UInt32) : Option BlockStateShape :=
  search BlockStateShape.runtimeId data.states runtimeId

def shape (data : ShapeData) (index : Nat) : Option (List ShapeDataBox) := data.shapes[index]?

end ShapeData

/-- The `VersionError`s of this file. -/
inductive ShapeDataError where
  | invalidShapeData (reason : String)
  | unsupportedShapeDataFormat (found supported : UInt32)
  deriving DecidableEq

def ShapeDataBox.isInverted (bounds : ShapeDataBox) : Bool :=
  bounds.maxX ≤ bounds.minX || bounds.maxY ≤ bounds.minY || bounds.maxZ ≤ bounds.minZ

/-- The loop over the states: ids ascend, and every reference is to a shape. The set of ids
seen refuses none that ascends. -/
def statesAreValid (shapeCount : Nat) : Option UInt32 → List BlockStateShape → Bool
  | _, [] => true
  | previous, state :: rest =>
    !(previous.any (state.runtimeId ≤ ·) || shapeCount ≤ state.collisionShape ||
      shapeCount ≤ state.outlineShape || state.block.isEmpty || 256 < state.block.utf8ByteSize) &&
    statesAreValid shapeCount (some state.runtimeId) rest

def parseShapeData (readJson : Bytes → Except JsonError ShapeData) (bytes : Bytes) :
    Except ShapeDataError ShapeData :=
  if bytes.length > maxShapeDataBytes then
    .error (.invalidShapeData "shape artifact exceeds its byte limit")
  else match readJson bytes with
    | .error e => .error (.invalidShapeData
        ("JSON is malformed at line " ++ toString e.line ++ ", column " ++ toString e.column))
    | .ok data =>
      if data.schemaVersion ≠ shapeDataSchemaVersion then
        .error (.unsupportedShapeDataFormat data.schemaVersion shapeDataSchemaVersion)
      else if data.stateCount ≠ data.states.length ∨ data.states.length > maxStates ∨
          data.shapes.length > maxShapes then
        .error (.invalidShapeData "shape artifact has invalid state or shape counts")
      else if data.shapes.any fun shape => shape.length > maxBoxesPerShape then
        .error (.invalidShapeData "shape contains too many boxes")
      else if data.shapes.any fun shape => shape.any ShapeDataBox.isInverted then
        .error (.invalidShapeData "shape contains non-finite or inverted bounds")
      else if ¬ statesAreValid data.shapes.length none data.states then
        .error (.invalidShapeData "shape state is unsorted or references invalid data")
      else .ok data

/-- `artifact` is the embedded file of the one version that has one. -/
def shapeDataFor (readJson : Bytes → Except JsonError ShapeData) (artifact : Bytes)
    (version : MinecraftVersionId) : Except ShapeDataError (Option ShapeData) :=
  if version.text = "26.1.2" then (parseShapeData readJson artifact).map some else .ok none

end Cubic.Version
