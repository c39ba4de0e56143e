import Cubic.World.State

/-!
# Block updates of the world state (`state.rs`)

Updates outside the loaded chunks or the dimension are counted and ignored.
-/

namespace Cubic.World

set_option autoImplicit false

variable {Rest : Type}

/-- Where the loaded chunks keep a block. -/
structure BlockLocation where
  coordinate : ChunkCoordinate
  sectionOffset : Nat
  localX : UInt8
  localY : UInt8
  localZ : UInt8
  deriving DecidableEq

def chunkOf (position : BlockCoordinates) : ChunkCoordinate :=
  ⟨divEuclid position.x 16, divEuclid position.z 16⟩

/-- None outside the dimension. -/
def locate (geometry : DimensionGeometry) (position : BlockCoordinates) : Option BlockLocation := do
  let relativeY ← checkedSubI32 position.y geometry.minY
  if relativeY < 0 ∨ geometry.height.toNat ≤ relativeY.toInt.toNat then none
  else
    let sectionOffset ← usizeTryFrom (relativeY / 16)
    let localX ← u8TryFrom (remEuclid position.x 16)
    let localY ← u8TryFrom (remEuclid relativeY 16)
    let localZ ← u8TryFrom (remEuclid position.z 16)
    pure ⟨chunkOf position, sectionOffset, localX, localY, localZ⟩

structure BlockUpdateProgress where
  chunks : LoadedChunks
  changed : OrderedSet ChunkCoordinate
  ignored : Nat
  deriving DecidableEq

/-- One pass of the loop over the updates. -/
def BlockUpdateProgress.next (geometry : DimensionGeometry) (progress : BlockUpdateProgress)
    (update : BlockStateUpdate) : BlockUpdateProgress :=
  match locate geometry update.position with
  | none => { progress with ignored := saturatingAdd progress.ignored 1 }
  | some l =>
    match progress.chunks.updateBlock l.coordinate l.sectionOffset l.localX l.localY l.localZ
        update.state with
    | (true, chunks) =>
      { progress with chunks := chunks, changed := progress.changed.insert l.coordinate () }
    | (false, chunks) =>
      { progress with chunks := chunks, ignored := saturatingAdd progress.ignored 1 }

namespace WorldState

/-- The revision goes up once the contents have changed. -/
def advance : WorldM Rest Unit := do
  let s ← Mut.get
  let revision ← Mut.okOr (checkedAddU64 s.revision 1) .revisionOverflow
  Mut.modify fun s => { s with revision := revision }

/-- The end of both calls: the chunks are already written when the revision is drawn. -/
def commit (chunks : LoadedChunks) (changed : List ChunkCoordinate) (ignored : Nat) :
    WorldM Rest BlockUpdateResult := do
  Mut.modify fun s => { s with chunks := chunks }
  if changed.isEmpty then pure () else advance
  let s ← Mut.get
  pure ⟨s.revision, changed, ignored⟩

def applyBlockUpdates (updates : List BlockStateUpdate) : WorldM Rest BlockUpdateResult := do
  require .active "BlockStateUpdate"
  if maxBlockUpdatesPerEvent < updates.length then
    Mut.fail (.tooManyBlockUpdates updates.length maxBlockUpdatesPerEvent)
  else do
    let s ← Mut.get
    let geometry ← Mut.okOr (s.session.map (·.dimensionGeometry))
      (.invalidLifecycle "BlockStateUpdate" s.lifecycle)
    let progress := updates.foldl (BlockUpdateProgress.next geometry) ⟨s.chunks, OrderedMap.empty, 0⟩
    commit progress.chunks progress.changed.keys progress.ignored

def applyBlockEntityUpdate (position : BlockCoordinates) (typeRawId : UInt32)
    (data : BlockEntityData) : WorldM Rest BlockUpdateResult := do
  require .active "BlockEntityData"
  let s ← Mut.get
  match u8TryFrom (remEuclid position.x 16), u8TryFrom (remEuclid position.z 16),
      i16TryFrom position.y with
  | some localX, some localZ, some y =>
    let (changed, chunks) :=
      s.chunks.updateBlockEntity (chunkOf position) localX y localZ typeRawId data
    commit chunks (if changed = some true then [chunkOf position] else [])
      (if changed.isNone then 1 else 0)
  | _, _, _ => pure ⟨s.revision, [], 1⟩

end WorldState

/-- The calls that change a world state. -/
inductive WorldCall where
  | apply (event : WorldEvent)
  | applyBlockUpdates (updates : List BlockStateUpdate)
  | applyBlockEntityUpdate (position : BlockCoordinates) (typeRawId : UInt32)
      (data : BlockEntityData)
  deriving DecidableEq

inductive WorldReply where
  | transition (transition : WorldTransition)
  | updated (result : BlockUpdateResult)
  deriving DecidableEq

def WorldCall.run (sums : FloatSums) : WorldCall → WorldM Rest WorldReply
  | apply event => do
    let transition ← WorldState.apply sums event
    pure (.transition transition)
  | applyBlockUpdates updates => do
    let result ← WorldState.applyBlockUpdates updates
    pure (.updated result)
  | applyBlockEntityUpdate position typeRawId data => do
    let result ← WorldState.applyBlockEntityUpdate position typeRawId data
    pure (.updated result)

end Cubic.World
