import Cubic.World.Chunk
import Cubic.World.Model

/-!
# The section loop of the mesher (`mesher.rs`)

What is drawn for one block is a parameter here. Of the statistics, those that the skipped
positions would have counted are kept.
-/

namespace Cubic.Render

set_option autoImplicit false

open World

/-- The part of `StateModels` that decides whether a block is drawn at all. -/
structure StateModels (Part Fluid : Type) where
  parts : List Part
  fluid : Option Fluid

namespace StateModels
variable {Part Fluid : Type}

def isBlank (models : StateModels Part Fluid) : Bool :=
  models.parts.isEmpty && models.fluid.isNone

end StateModels

structure MeshStatistics where
  positionsVisited : Nat
  airSkipped : Nat
  nonAirBlocks : Nat
  deriving DecidableEq

structure ChunkMesh (Faces : Type) where
  faces : Faces
  statistics : MeshStatistics
  deriving DecidableEq

inductive MeshError (E : Type) where
  | sectionCount (actual expected : Nat)
  | drawing (e : E)
  deriving DecidableEq

/-- A block of a chunk: its section from the lowest, and its place in there. -/
structure MeshPosition where
  sectionIndex : Nat
  x : UInt8
  y : UInt8
  z : UInt8
  deriving DecidableEq

/-- The order of the three inner loops. -/
def sectionPositions (sectionIndex : Nat) : List MeshPosition :=
  (List.range 16).flatMap fun y => (List.range 16).flatMap fun z =>
    (List.range 16).map fun x => ⟨sectionIndex, .ofNat x, .ofNat y, .ofNat z⟩

section
variable {Part Fluid Faces E : Type}
  (resources : RuntimeBlockStateId → StateModels Part Fluid)
  (draw : MeshPosition → RuntimeBlockStateId → Faces → Except E Faces)

def meshPosition (blockSection : ChunkSection) (mesh : ChunkMesh Faces) (p : MeshPosition) :
    Except E (ChunkMesh Faces) :=
  match blockSection.block p.x p.y p.z with
  | none => .ok mesh
  | some state =>
    let visited := saturatingAdd mesh.statistics.positionsVisited 1
    if (resources state).isBlank then
      .ok { mesh with
        statistics := { mesh.statistics with
          positionsVisited := visited
          airSkipped := saturatingAdd mesh.statistics.airSkipped 1 } }
    else
      (draw p state mesh.faces).map fun faces =>
        ⟨faces, { mesh.statistics with
          positionsVisited := visited
          nonAirBlocks := saturatingAdd mesh.statistics.nonAirBlocks 1 }⟩

/-- One section; a section that counts no blocks is skipped if `skip` says so. -/
def meshSection (skip : Bool) (sectionIndex : Nat) (blockSection : ChunkSection)
    (mesh : ChunkMesh Faces) : Except E (ChunkMesh Faces) :=
  if skip && blockSection.nonEmptyBlockCount = 0 then .ok mesh
  else (sectionPositions sectionIndex).foldlM (meshPosition resources draw blockSection) mesh

def meshSections (skip : Bool) : Nat → List ChunkSection → ChunkMesh Faces →
    Except E (ChunkMesh Faces)
  | _, [], mesh => .ok mesh
  | sectionIndex, blockSection :: rest, mesh => do
    let mesh ← meshSection resources draw skip sectionIndex blockSection mesh
    meshSections skip (sectionIndex + 1) rest mesh

/-- `mesh_chunk_with_debug` is this with `skip` true. -/
def meshChunkWith (skip : Bool) (coordinate : ChunkCoordinate) (chunks : LoadedChunks)
    (geometry : DimensionGeometry) (empty : Faces) : Except (MeshError E) (ChunkMesh Faces) :=
  match chunks.get coordinate with
  | none => .ok ⟨empty, ⟨0, 0, 0⟩⟩
  | some chunk =>
    if chunk.sections.length ≠ geometry.sectionCount then
      .error (.sectionCount chunk.sections.length geometry.sectionCount)
    else
      (meshSections resources draw skip 0 chunk.sections ⟨empty, ⟨0, 0, 0⟩⟩).mapError .drawing

def meshChunk (coordinate : ChunkCoordinate) (chunks : LoadedChunks)
    (geometry : DimensionGeometry) (empty : Faces) : Except (MeshError E) (ChunkMesh Faces) :=
  meshChunkWith resources draw true coordinate chunks geometry empty

/-! ### What the skip leaves out -/

/-- A section that counts no blocks holds none that is drawn. -/
def Counted (blockSection : ChunkSection) : Prop :=
  ∀ index state, blockSection.blocks.get index = some state →
    (resources state).isBlank = false → blockSection.nonEmptyBlockCount ≠ 0

variable {resources}

theorem Counted.block {blockSection : ChunkSection} (h : Counted resources blockSection)
    {x y z : UInt8} {state : RuntimeBlockStateId} (hblock : blockSection.block x y z = some state)
    (hcount : blockSection.nonEmptyBlockCount = 0) : (resources state).isBlank = true := by
  obtain ⟨index, -, hget⟩ := Option.bind_eq_some_iff.mp hblock
  by_contra hblank
  exact h index state hget (Bool.not_eq_true _ ▸ hblank) hcount

/-- Blank blocks draw nothing. -/
theorem meshPosition_blank {blockSection : ChunkSection} {p : MeshPosition}
    (h : ∀ state, blockSection.block p.x p.y p.z = some state → (resources state).isBlank = true)
    (mesh : ChunkMesh Faces) :
    ∃ statistics, meshPosition resources draw blockSection mesh p = .ok { mesh with statistics } := by
  unfold meshPosition
  cases hblock : blockSection.block p.x p.y p.z with
  | none => exact ⟨mesh.statistics, rfl⟩
  | some state =>
    dsimp only
    rw [if_pos (h state hblock)]
    exact ⟨_, rfl⟩

theorem meshPositions_blank {blockSection : ChunkSection} {positions : List MeshPosition}
    (h : ∀ p ∈ positions, ∀ state, blockSection.block p.x p.y p.z = some state →
      (resources state).isBlank = true) (mesh : ChunkMesh Faces) :
    ∃ statistics, positions.foldlM (meshPosition resources draw blockSection) mesh =
      .ok { mesh with statistics } := by
  induction positions generalizing mesh with
  | nil => exact ⟨mesh.statistics, rfl⟩
  | cons p rest ih =>
    obtain ⟨hp, hrest⟩ := List.forall_mem_cons.mp h
    obtain ⟨first, hfirst⟩ := meshPosition_blank draw hp mesh
    obtain ⟨last, hlast⟩ := ih hrest { mesh with statistics := first }
    refine ⟨last, ?_⟩
    rw [List.foldlM_cons, hfirst]
    exact hlast

/-- What is drawn for a position does not depend on what was counted before. -/
theorem meshPosition_faces {blockSection : ChunkSection} {p : MeshPosition}
    {mesh mesh' : ChunkMesh Faces} (h : mesh.faces = mesh'.faces) :
    (meshPosition resources draw blockSection mesh p).map ChunkMesh.faces =
      (meshPosition resources draw blockSection mesh' p).map ChunkMesh.faces := by
  unfold meshPosition
  cases blockSection.block p.x p.y p.z with
  | none => exact congrArg Except.ok h
  | some state =>
    dsimp only
    split
    · exact congrArg Except.ok h
    · rw [h]
      cases draw p state mesh'.faces with
      | error e => rfl
      | ok faces => rfl

/-- The faces two meshings come to. -/
def SameFaces (r r' : Except E (ChunkMesh Faces)) : Prop :=
  r.map ChunkMesh.faces = r'.map ChunkMesh.faces

/-- The same next step, which looks at the faces only. -/
theorem SameFaces.bind {r r' : Except E (ChunkMesh Faces)}
    {f f' : ChunkMesh Faces → Except E (ChunkMesh Faces)} (h : SameFaces r r')
    (hf : ∀ mesh mesh', mesh.faces = mesh'.faces → SameFaces (f mesh) (f' mesh')) :
    SameFaces (r >>= f) (r' >>= f') := by
  unfold SameFaces at h
  cases r with
  | error e =>
    cases r' with
    | error e' =>
      cases h
      rfl
    | ok mesh' => cases h
  | ok mesh =>
    cases r' with
    | error e' => cases h
    | ok mesh' => exact hf mesh mesh' (Except.ok.inj h)

theorem SameFaces.mapError {r r' : Except E (ChunkMesh Faces)} (h : SameFaces r r') :
    (r.mapError MeshError.drawing).map ChunkMesh.faces =
      (r'.mapError MeshError.drawing).map ChunkMesh.faces := by
  unfold SameFaces at h
  cases r with
  | error e =>
    cases r' with
    | error e' =>
      cases h
      rfl
    | ok mesh' => cases h
  | ok mesh =>
    cases r' with
    | error e' => cases h
    | ok mesh' => exact congrArg Except.ok (Except.ok.inj h)

theorem meshPositions_faces (blockSection : ChunkSection) (positions : List MeshPosition)
    {mesh mesh' : ChunkMesh Faces} (h : mesh.faces = mesh'.faces) :
    SameFaces (positions.foldlM (meshPosition resources draw blockSection) mesh)
      (positions.foldlM (meshPosition resources draw blockSection) mesh') := by
  induction positions generalizing mesh mesh' with
  | nil => exact congrArg Except.ok h
  | cons p rest ih =>
    rw [List.foldlM_cons, List.foldlM_cons]
    apply SameFaces.bind
    · exact meshPosition_faces draw h
    · intro next next' hnext
      exact ih hnext

theorem meshSection_skip {blockSection : ChunkSection} (hcounted : Counted resources blockSection)
    (sectionIndex : Nat) {mesh mesh' : ChunkMesh Faces} (h : mesh.faces = mesh'.faces) :
    SameFaces (meshSection resources draw true sectionIndex blockSection mesh)
      (meshSection resources draw false sectionIndex blockSection mesh') := by
  unfold meshSection
  rw [Bool.false_and, if_neg Bool.false_ne_true]
  by_cases hcount : blockSection.nonEmptyBlockCount = 0
  · rw [Bool.true_and, if_pos (decide_eq_true hcount)]
    obtain ⟨statistics, hall⟩ := meshPositions_blank draw
      (fun p (_ : p ∈ sectionPositions sectionIndex) state hblock =>
        hcounted.block hblock hcount) mesh'
    rw [hall]
    exact congrArg Except.ok h
  · rw [Bool.true_and, if_neg fun hskip => hcount (of_decide_eq_true hskip)]
    exact meshPositions_faces draw blockSection _ h

theorem meshSections_skip {sections : List ChunkSection}
    (hcounted : ∀ blockSection ∈ sections, Counted resources blockSection) (sectionIndex : Nat)
    {mesh mesh' : ChunkMesh Faces} (h : mesh.faces = mesh'.faces) :
    SameFaces (meshSections resources draw true sectionIndex sections mesh)
      (meshSections resources draw false sectionIndex sections mesh') := by
  induction sections generalizing sectionIndex mesh mesh' with
  | nil => exact congrArg Except.ok h
  | cons blockSection rest ih =>
    obtain ⟨hsection, hrest⟩ := List.forall_mem_cons.mp hcounted
    unfold meshSections
    apply SameFaces.bind
    · exact meshSection_skip draw hsection sectionIndex h
    · intro next next' hnext
      exact ih hrest (sectionIndex + 1) hnext

/-- Where every section that counts no blocks draws none, the skip draws the same faces. -/
theorem meshChunk_faces {coordinate : ChunkCoordinate} {chunks : LoadedChunks}
    (hcounted : ∀ chunk, chunks.lookup coordinate = some chunk →
      ∀ blockSection ∈ chunk.sections, Counted resources blockSection)
    (geometry : DimensionGeometry) (empty : Faces) :
    (meshChunk resources draw coordinate chunks geometry empty).map ChunkMesh.faces =
      (meshChunkWith resources draw false coordinate chunks geometry empty).map
        ChunkMesh.faces := by
  unfold meshChunk meshChunkWith LoadedChunks.get
  cases hchunk : chunks.lookup coordinate with
  | none => rfl
  | some chunk =>
    dsimp only
    split
    · rfl
    · exact (meshSections_skip draw (hcounted chunk hchunk) 0 rfl).mapError

end

end Cubic.Render
