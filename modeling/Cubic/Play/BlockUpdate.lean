import Cubic.Codec.Position
import Cubic.Play.Protocol

/-!
# Block updates (`v775.rs`, `world_adapter.rs`)

A single update carries a packed absolute position, a section update a packed section
position and entries with local offsets; both are adapted to the same world event.
-/

namespace Cubic

set_option autoImplicit false

open BitField

def maxSectionBlockUpdates : Nat := 4096

structure BlockUpdate where
  x : Int32
  y : Int32
  z : Int32
  stateId : UInt32
  deriving DecidableEq

structure SectionBlockUpdate where
  localX : UInt8
  localY : UInt8
  localZ : UInt8
  stateId : UInt32
  deriving DecidableEq

structure SectionBlocksUpdate where
  sectionX : Int32
  sectionY : Int32
  sectionZ : Int32
  updates : List SectionBlockUpdate
  deriving DecidableEq

/-! ### Decoding -/

def decodeBlockUpdate : PlayM BlockUpdate := do
  let position ← codec readBlockPosition
  let value ← codec readVarInt
  let stateId ← Mut.ofExcept (nonnegativeU32 value "Block Update state ID")
  requireConsumed "Block Update"
  pure ⟨position.x, position.y, position.z, stateId⟩

/-- `i32::try_from` -/
def i32TryFrom (value : Int64) (context : String) : Except BootstrapProtocolError Int32 :=
  if -(2 ^ 31) ≤ value.toInt ∧ value.toInt < 2 ^ 31 then .ok value.toInt32
  else .error (.codec (.valueOutOfRange context value.toInt (-(2 ^ 31)) i32Max))

/-- `u32::try_from` -/
def u32TryFrom (value : UInt64) (context : String) : Except BootstrapProtocolError UInt32 :=
  if value.toNat < 2 ^ 32 then .ok value.toUInt32
  else .error (.codec (.valueOutOfRange context value.toNat 0 (2 ^ 32 - 1)))

/-- `u8::try_from(..).unwrap_or(0)` -/
def u8OrZero (value : UInt64) : UInt8 := if value.toNat < 2 ^ 8 then value.toUInt8 else 0

/-- One pass of the loop over the entries. -/
def decodeSectionBlockUpdate : PlayM SectionBlockUpdate := do
  let packed ← codec readVarLong
  if packed < 0 then
    Mut.fail (.codec (.valueOutOfRange "Section Blocks Update packed state" packed.toInt 0 (2 ^ 63 - 1)))
  else do
    let packed := packed.toUInt64
    let stateId ← Mut.ofExcept (u32TryFrom (packed >>> 12) "Section Blocks Update state ID")
    pure {
      localX := u8OrZero ((packed >>> 8) &&& 0x0f)
      localY := u8OrZero (packed &&& 0x0f)
      localZ := u8OrZero ((packed >>> 4) &&& 0x0f)
      stateId }

def decodeSectionBlocksUpdate : PlayM SectionBlocksUpdate := do
  let packedSection ← codec readI64
  let sectionX ← Mut.ofExcept
    (i32TryFrom (packedSection >>> 42) "Section Blocks Update section x")
  let sectionZ ← Mut.ofExcept
    (i32TryFrom ((packedSection <<< 22) >>> 42) "Section Blocks Update section z")
  let sectionY ← Mut.ofExcept
    (i32TryFrom ((packedSection <<< 44) >>> 44) "Section Blocks Update section y")
  let count ← readCount "Section Blocks Update entries" maxSectionBlockUpdates
  let updates ← Mut.repeatCall decodeSectionBlockUpdate count
  requireConsumed "Section Blocks Update"
  pure ⟨sectionX, sectionY, sectionZ, updates⟩

/-! ### Adapting to the world -/

structure BlockCoordinates where
  x : Int32
  y : Int32
  z : Int32
  deriving DecidableEq

structure RuntimeBlockStateId where
  id : UInt32
  deriving DecidableEq

structure BlockStateUpdate where
  position : BlockCoordinates
  state : RuntimeBlockStateId
  deriving DecidableEq

def adaptBlockUpdate (update : BlockUpdate) : List BlockStateUpdate :=
  [⟨⟨update.x, update.y, update.z⟩, ⟨update.stateId⟩⟩]

/-- The result of `i32` arithmetic, unless it overflows. -/
def exactI32 (value : Int) : Option Int32 :=
  if -(2 ^ 31) ≤ value ∧ value < 2 ^ 31 then some (.ofInt value) else none

/-- No update when one of the sums or products overflows. -/
def adaptSectionBlocksUpdate (update : SectionBlocksUpdate) : Option (List BlockStateUpdate) := do
  let baseX ← exactI32 (update.sectionX.toInt * 16)
  let baseY ← exactI32 (update.sectionY.toInt * 16)
  let baseZ ← exactI32 (update.sectionZ.toInt * 16)
  update.updates.mapM fun entry => do
    let x ← exactI32 (baseX.toInt + entry.localX.toNat)
    let y ← exactI32 (baseY.toInt + entry.localY.toNat)
    let z ← exactI32 (baseZ.toInt + entry.localZ.toNat)
    pure ⟨⟨x, y, z⟩, ⟨entry.stateId⟩⟩

/-! ### The packets on the wire -/

end Cubic
