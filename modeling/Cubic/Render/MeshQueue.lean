import Cubic.Render.Coalescing
import Mathlib.Data.Finset.Card
import Mathlib.Data.List.MinMax

/-!
# Meshing in the background (`world.rs`)

The part of the world renderer that keeps meshes up to date: what an update marks dirty,
which jobs are handed to the workers, and which of their results are taken in.
-/

namespace Cubic.Render

open World

set_option autoImplicit false

def maxPendingMeshJobs : Nat := 32

def maxMeshDispatchesPerPrepare : Nat := 8

/-- Coordinates wrap around, as the release build's arithmetic does. -/
def neighborsIncluding (c : ChunkCoordinate) : List ChunkCoordinate :=
  [c, ⟨c.x - 1, c.z⟩, ⟨c.x + 1, c.z⟩, ⟨c.x, c.z - 1⟩, ⟨c.x, c.z + 1⟩]

def markDirtyWithNeighbors (dirty : OrderedMap ChunkCoordinate UInt64)
    (coordinate : ChunkCoordinate) (revision : UInt64) : OrderedMap ChunkCoordinate UInt64 :=
  (neighborsIncluding coordinate).foldl (fun m c => m.insert c revision) dirty

def meshPriority (coordinate : ChunkCoordinate) (origin : Option ChunkCoordinate) :
    Nat ×ₗ Int32 ×ₗ Int32 :=
  let distanceSquared := origin.elim 0 fun origin =>
    (coordinate.x.toInt - origin.x.toInt) * (coordinate.x.toInt - origin.x.toInt) +
      (coordinate.z.toInt - origin.z.toInt) * (coordinate.z.toInt - origin.z.toInt)
  toLex (distanceSquared.toNat, toLex (coordinate.x, coordinate.z))

def nextMeshCandidate (dirty : OrderedMap ChunkCoordinate UInt64)
    (pending : Finset ChunkCoordinate) (origin : Option ChunkCoordinate) :
    Option (ChunkCoordinate × UInt64) :=
  (dirty.entries.filter fun e => e.1 ∉ pending).argmin fun e => meshPriority e.1 origin

/-- A mesh without indices draws nothing. -/
inductive PreparedChunkMesh (Mesh : Type) where
  | empty
  | ready (mesh : Mesh)

structure MeshJob where
  coordinate : ChunkCoordinate
  chunks : OrderedMap ChunkCoordinate Chunk
  geometry : DimensionGeometry
  biomes : List RuntimeBiome
  generation : UInt64
  revision : UInt64

structure MeshResult (Mesh MeshError : Type) where
  coordinate : ChunkCoordinate
  generation : UInt64
  revision : UInt64
  mesh : Except MeshError (PreparedChunkMesh Mesh)

/-- Meshing one chunk with the resources at hand: what a worker makes of a job. -/
abbrev ChunkMesher (Mesh MeshError : Type) :=
  ChunkCoordinate → OrderedMap ChunkCoordinate Chunk → DimensionGeometry → List RuntimeBiome →
    Except MeshError (PreparedChunkMesh Mesh)

def MeshJob.result {Mesh MeshError : Type} (mesher : ChunkMesher Mesh MeshError) (job : MeshJob) :
    MeshResult Mesh MeshError :=
  ⟨job.coordinate, job.generation, job.revision,
    mesher job.coordinate job.chunks job.geometry job.biomes⟩

structure WorldRenderer (Mesh : Type) where
  meshes : OrderedMap ChunkCoordinate Mesh
  chunks : OrderedMap ChunkCoordinate Chunk
  biomes : List RuntimeBiome
  dirty : OrderedMap ChunkCoordinate UInt64
  pending : Finset ChunkCoordinate
  generation : UInt64
  revision : UInt64
  geometry : Option DimensionGeometry

namespace WorldRenderer
variable {Mesh MeshError Rest Target Inventory : Type}

def new : WorldRenderer Mesh :=
  ⟨OrderedMap.empty, OrderedMap.empty, [], OrderedMap.empty, ∅, 0, 0, none⟩

def markWithNeighbors (r : WorldRenderer Mesh) (coordinate : ChunkCoordinate) :
    WorldRenderer Mesh :=
  { r with
    revision := r.revision + 1
    dirty := markDirtyWithNeighbors r.dirty coordinate (r.revision + 1) }

def applyChunk (r : WorldRenderer Mesh) : ChunkRenderDelta → WorldRenderer Mesh
  | .loaded chunk =>
    markWithNeighbors { r with chunks := r.chunks.insert chunk.coordinate chunk } chunk.coordinate
  | .unloaded coordinate =>
    markWithNeighbors { r with
      chunks := r.chunks.remove coordinate
      meshes := r.meshes.remove coordinate } coordinate

/-- Whether an update starts over. -/
def StartsOver (r : WorldRenderer Mesh) (update : WorldRenderUpdate Rest Target Inventory) : Prop :=
  update.reset = true ∨ update.generation ≠ r.generation

instance (r : WorldRenderer Mesh) (update : WorldRenderUpdate Rest Target Inventory) :
    Decidable (r.StartsOver update) :=
  inferInstanceAs (Decidable (_ ∨ _))

def startOver (r : WorldRenderer Mesh) (generation : UInt64) : WorldRenderer Mesh :=
  { r with
    generation := generation
    revision := r.revision + 1
    chunks := OrderedMap.empty
    meshes := OrderedMap.empty
    dirty := OrderedMap.empty
    pending := ∅ }

def apply (r : WorldRenderer Mesh) (update : WorldRenderUpdate Rest Target Inventory) :
    WorldRenderer Mesh :=
  let r := if r.StartsOver update then r.startOver update.generation else r
  update.chunks.foldl applyChunk { r with
    geometry := update.geometry.or r.geometry
    biomes := update.biomes.getD r.biomes }

/-- The chunks a job is given. -/
def snapshot (chunks : OrderedMap ChunkCoordinate Chunk) (coordinate : ChunkCoordinate) :
    OrderedMap ChunkCoordinate Chunk :=
  OrderedMap.ofList
    ((neighborsIncluding coordinate).filterMap fun key => (chunks.lookup key).map (key, ·))

/-- One turn of the loop for each entry of `turns`, which says whether a worker has room; the
time is up with the list. A renderer without workers has no time at all. -/
def dispatchLoop (geometry : DimensionGeometry) (origin : Option ChunkCoordinate)
    (r : WorldRenderer Mesh) (dispatched : Nat) : List Bool → WorldRenderer Mesh × List MeshJob
  | [] => (r, [])
  | room :: turns =>
    if dispatched < maxMeshDispatchesPerPrepare ∧ r.pending.card < maxPendingMeshJobs then
      match nextMeshCandidate r.dirty r.pending origin with
      | none => (r, [])
      | some (coordinate, revision) =>
        if (r.chunks.lookup coordinate).isNone then
          dispatchLoop geometry origin { r with
            dirty := r.dirty.remove coordinate
            meshes := r.meshes.remove coordinate } dispatched turns
        else if room then
          let job : MeshJob := {
            coordinate := coordinate
            chunks := snapshot r.chunks coordinate
            geometry := geometry
            biomes := r.biomes
            generation := r.generation
            revision := revision }
          let next := dispatchLoop geometry origin
            { r with pending := insert coordinate r.pending } (dispatched + 1) turns
          (next.1, job :: next.2)
        else (r, [])
    else (r, [])

/-- `origin` is the chunk the player is shown in. -/
def dispatchJobs (r : WorldRenderer Mesh) (origin : Option ChunkCoordinate) (turns : List Bool) :
    WorldRenderer Mesh × List MeshJob :=
  match r.geometry with
  | none => (r, [])
  | some geometry => dispatchLoop geometry origin r 0 turns

/-- What `prepare` does with one result. -/
def integrate (r : WorldRenderer Mesh) (result : MeshResult Mesh MeshError) :
    WorldRenderer Mesh :=
  let r := { r with pending := r.pending.erase result.coordinate }
  if result.generation ≠ r.generation ∨
      r.dirty.lookup result.coordinate ≠ some result.revision then r
  else
    let r := { r with dirty := r.dirty.remove result.coordinate }
    match result.mesh with
    | .ok .empty => { r with meshes := r.meshes.remove result.coordinate }
    | .ok (.ready mesh) => { r with meshes := r.meshes.insert result.coordinate mesh }
    | .error _ => { r with meshes := r.meshes.remove result.coordinate }

end WorldRenderer

end Cubic.Render
