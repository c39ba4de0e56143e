import Cubic.Render.Mesher
import Cubic.World.BlockEntities

/-!
# Sections that count no blocks

The mesher skips a section by the count that came with its chunk. Block updates write
blocks and leave the count as it is.
-/

namespace Cubic.Render

set_option autoImplicit false

open World LoadedChunks

variable {Rest Part Fluid : Type} (resources : RuntimeBlockStateId → StateModels Part Fluid)

def nonEmptyBlockCount? (chunks : LoadedChunks) (coordinate : ChunkCoordinate)
    (sectionOffset : Nat) : Option UInt16 :=
  (chunks.lookup coordinate).bind fun chunk =>
    chunk.sections[sectionOffset]?.map (·.nonEmptyBlockCount)

def AllCounted (chunk : Chunk) : Prop :=
  ∀ blockSection ∈ chunk.sections, Counted resources blockSection

/-- Every update that writes a drawn block writes it to a section that counts blocks. -/
def CountsUpdates (geometry : DimensionGeometry) (chunks : LoadedChunks)
    (updates : List BlockStateUpdate) : Prop :=
  ∀ update ∈ updates, (resources update.state).isBlank = false →
    ∀ slot, slotAt geometry update.position = some slot →
      nonEmptyBlockCount? chunks slot.coordinate slot.sectionOffset ≠ some 0

variable {resources} {chunks : LoadedChunks} {geometry : DimensionGeometry}
  {updates : List BlockStateUpdate}

/-- The count is part of the outline of a chunk. -/
theorem count?_outline (chunks : LoadedChunks) (coordinate : ChunkCoordinate)
    (sectionOffset : Nat) : nonEmptyBlockCount? chunks coordinate sectionOffset =
      (outline chunks coordinate).bind fun chunk =>
        chunk.sections[sectionOffset]?.map (·.nonEmptyBlockCount) := by
  unfold nonEmptyBlockCount? outline
  cases chunks.lookup coordinate with
  | none => rfl
  | some chunk =>
    change _ = (chunk.sections.map _)[sectionOffset]?.map _
    rw [List.getElem?_map, Option.map_map]
    rfl

theorem lastUpdate_eq_some {slot : BlockSlot} {state : RuntimeBlockStateId}
    (h : lastUpdate geometry updates slot = some state) :
    ∃ update ∈ updates, slotAt geometry update.position = some slot ∧ update.state = state := by
  obtain ⟨update, hlast, rfl⟩ := Option.map_eq_some_iff.mp h
  obtain ⟨hmem, hslot⟩ := List.mem_filter.mp (List.mem_of_getLast? hlast)
  exact ⟨update, hmem, of_decide_eq_true hslot, rfl⟩

/-- A block of the store is read in its section. -/
theorem get_of_cell? {slot : BlockSlot} {state : RuntimeBlockStateId}
    (h : cell? chunks slot = some state) : ∃ chunk blockSection,
      chunks.lookup slot.coordinate = some chunk ∧
      chunk.sections[slot.sectionOffset]? = some blockSection ∧
      blockSection.blocks.get slot.index = some state := by
  obtain ⟨blocks, hblocks, h⟩ := Option.bind_eq_some_iff.mp h
  obtain ⟨values, hvalues, hstate⟩ := Option.bind_eq_some_iff.mp h
  obtain ⟨chunk, hchunk, hblocks⟩ := Option.bind_eq_some_iff.mp hblocks
  obtain ⟨blockSection, hsection, rfl⟩ := Option.map_eq_some_iff.mp hblocks
  refine ⟨chunk, blockSection, hchunk, hsection, ?_⟩
  rw [PalettedContainer.get_of_materialize hvalues, hstate]

/-- A batch of updates that the counts allow for keeps them right. -/
theorem counted_batch {progress : BlockUpdateProgress}
    (hcounted : EveryChunk (AllCounted resources) chunks)
    (hbatch : Batch geometry chunks updates progress)
    (hupdates : CountsUpdates resources geometry chunks updates) :
    EveryChunk (AllCounted resources) progress.chunks := by
  intro coordinate chunk hchunk blockSection hmem index state hget hdrawn hzero
  obtain ⟨sectionOffset, hsection⟩ := List.mem_iff_getElem?.mp hmem
  -- The section had the same count before the batch.
  have hcount : nonEmptyBlockCount? chunks coordinate sectionOffset = some 0 := by
    rw [count?_outline, ← hbatch.outline, ← count?_outline]
    unfold nonEmptyBlockCount?
    rw [hchunk, Option.bind_some, hsection, Option.map_some, hzero]
  have hold : ∀ old, cell? chunks ⟨coordinate, sectionOffset, index⟩ = some old →
      (resources old).isBlank = true := by
    intro old hcell
    obtain ⟨chunk', section', hchunk', hsection', hget'⟩ := get_of_cell? hcell
    unfold nonEmptyBlockCount? at hcount
    rw [hchunk', Option.bind_some, hsection', Option.map_some] at hcount
    by_contra hblank
    exact hcounted _ _ hchunk' section' (List.mem_of_getElem? hsection') index old hget'
      (Bool.not_eq_true _ ▸ hblank) (Option.some.inj hcount)
  have hcontainer : container? progress.chunks coordinate sectionOffset =
      some blockSection.blocks := by
    unfold container?
    rw [hchunk, Option.bind_some, hsection]
    rfl
  rcases hbatch.touched coordinate sectionOffset with
    hsame | ⟨update, hupdate, slot, hslot, rfl, rfl, hcell⟩
  · -- No update reached the section.
    rw [hcontainer] at hsame
    obtain ⟨chunk', hchunk', hblocks⟩ := Option.bind_eq_some_iff.mp hsame.symm
    obtain ⟨section', hsection', hblocks⟩ := Option.map_eq_some_iff.mp hblocks
    unfold nonEmptyBlockCount? at hcount
    rw [hchunk', Option.bind_some, hsection', Option.map_some] at hcount
    exact hcounted _ _ hchunk' section' (List.mem_of_getElem? hsection') index state
      (hblocks ▸ hget) hdrawn (Option.some.inj hcount)
  · obtain ⟨values, hvalues⟩ := hbatch.direct update hupdate slot hslot hcell
    have hafter : cell? progress.chunks ⟨slot.coordinate, slot.sectionOffset, index⟩ =
        some state := by
      rw [cell?_direct hvalues]
      rw [hcontainer] at hvalues
      rw [Option.some.inj hvalues] at hget
      exact hget
    rw [hbatch.cell] at hafter
    obtain ⟨old, hbefore, hstate⟩ := Option.map_eq_some_iff.mp hafter
    cases hlast : lastUpdate geometry updates ⟨slot.coordinate, slot.sectionOffset, index⟩ with
    | none =>
      rw [hlast, Option.getD_none] at hstate
      rw [← hstate, hold old hbefore] at hdrawn
      cases hdrawn
    | some last =>
      rw [hlast, Option.getD_some] at hstate
      obtain ⟨update', hupdate', hslot', hnew⟩ := lastUpdate_eq_some hlast
      rw [← hstate, ← hnew] at hdrawn
      exact hupdates update' hupdate' hdrawn _ hslot' hcount

/-! ### Runs -/

/-- The sections of a chunk that is loaded count their drawn blocks. -/
def Summarized (resources : RuntimeBlockStateId → StateModels Part Fluid) : WorldCall → Prop
  | .apply event => WorldState.Loads (AllCounted resources) event
  | _ => True

def Allows (resources : RuntimeBlockStateId → StateModels Part Fluid) (s : WorldState Rest) :
    WorldCall → Prop
  | .applyBlockUpdates updates => ∀ session, s.session = some session →
    CountsUpdates resources session.dimensionGeometry s.chunks updates
  | _ => True

theorem counted_step {sums : FloatSums} {s t : WorldState Rest} {call : WorldCall}
    (h : EveryChunk (AllCounted resources) s.chunks) (hrun : (call.run sums s).state? = some t)
    (hloads : Summarized resources call) (hallows : Allows resources s call) :
    EveryChunk (AllCounted resources) t.chunks := by
  cases call with
  | apply event =>
    refine Mut.Keeps.state? (WorldState.keeps_apply sums ?_ hloads) h
      ((state?_bind_pure s).symm.trans hrun)
    exact fun _ _ _ _ hcounted => hcounted
  | applyBlockUpdates updates =>
    refine WorldState.everyChunk_blockUpdates h ?_ ((state?_bind_pure s).symm.trans hrun)
    intro session progress hsession hbatch
    exact counted_batch h hbatch (hallows session hsession)
  | applyBlockEntityUpdate position typeRawId data =>
    refine WorldState.everyChunk_blockEntityUpdate h ?_ ((state?_bind_pure s).symm.trans hrun)
    exact fun _ _ _ _ hcounted => hcounted

/-- As long as drawn blocks are only written to sections that count blocks, every section
counts its drawn blocks and the skip of the mesher hides none. -/
theorem reachable_counted (sums : FloatSums) (calls : List WorldCall) (s : WorldState Rest)
    (hrun : Run (fun s call t => ((call.run sums s).state? = some t ∧ Summarized resources call) ∧
      Allows resources s call) WorldState.new calls s) :
    (∀ coordinate chunk, s.chunks.lookup coordinate = some chunk →
      ∀ blockSection ∈ chunk.sections, Counted resources blockSection) ∧
    ∀ (Faces E : Type) (draw : MeshPosition → RuntimeBlockStateId → Faces → Except E Faces)
      (coordinate : ChunkCoordinate) (geometry : DimensionGeometry) (empty : Faces),
      (meshChunk resources draw coordinate s.chunks geometry empty).map ChunkMesh.faces =
        (meshChunkWith resources draw false coordinate s.chunks geometry empty).map
          ChunkMesh.faces := by
  have hcounted : EveryChunk (AllCounted resources) s.chunks := by
    refine Run.invariant (I := fun s => EveryChunk (AllCounted resources) s.chunks) ?_ hrun nofun
    intro s call t h hstep
    exact counted_step h hstep.1.1 hstep.1.2 hstep.2
  refine ⟨hcounted, ?_⟩
  intro Faces E draw coordinate geometry empty
  exact meshChunk_faces draw (hcounted coordinate) geometry empty

/-- State 0 is air and every other state has one part. -/
def onePartEach (state : RuntimeBlockStateId) : StateModels Unit Unit :=
  ⟨if state = ⟨0⟩ then [] else [()], none⟩

def airSection : ChunkSection := ⟨0, 0, .single ⟨0⟩ 4096, .single ⟨0⟩ 64⟩

/-- A chunk with one section, in a world of that height. -/
def loadOne (blockSection : ChunkSection) : List WorldCall :=
  [.apply .beginConfiguration, .apply (.runtimeDimensionTypes [⟨0, overworld, ⟨0, 16⟩⟩]),
    .apply (.enterWorld ⟨7, false, [overworld], 20, 10, 10, false, true, false, false,
      overworldSpawn⟩),
    .apply (.loadChunk { stoneChunk ⟨0, 0⟩ with sections := [blockSection] })]

theorem loadOne_summarized {blockSection : ChunkSection}
    (h : Counted onePartEach blockSection) :
    ∀ call ∈ loadOne blockSection, Summarized onePartEach call ∧
      ∀ s : WorldState Unit, Allows onePartEach s call := by
  have hother : ∀ event, Summarized onePartEach (.apply event) →
      Summarized onePartEach (.apply event) ∧
        ∀ s : WorldState Unit, Allows onePartEach s (.apply event) :=
    fun _ hloads => ⟨hloads, fun _ => trivial⟩
  refine List.forall_mem_cons.mpr ⟨hother _ trivial, List.forall_mem_cons.mpr ⟨hother _ trivial,
    List.forall_mem_cons.mpr ⟨hother _ trivial, List.forall_mem_singleton.mpr (hother _ ?_)⟩⟩⟩
  exact List.forall_mem_singleton.mpr h

theorem counted_airSection : Counted onePartEach airSection := by
  intro index state hget hdrawn
  change (if index < 4096 then some (⟨0⟩ : RuntimeBlockStateId) else none) = some state at hget
  split at hget
  · cases hget
    cases hdrawn
  · cases hget

/-- A stone placed into air is not drawn. -/
theorem reachable_counted_fails : ∃ s : WorldState Unit,
    Run (fun s call t => (call.run firstSum s).state? = some t ∧ Summarized onePartEach call)
      WorldState.new (loadOne airSection ++ [.applyBlockUpdates [⟨⟨1, 5, 2⟩, ⟨1⟩⟩]]) s ∧
    s.chunks.cell? ⟨⟨0, 0⟩, 0, 1313⟩ = some ⟨1⟩ ∧
    nonEmptyBlockCount? s.chunks ⟨0, 0⟩ 0 = some 0 := by
  have hruns : (List.foldlM (fun s (call : WorldCall) => (call.run firstSum s).state?)
      (WorldState.new : WorldState Unit)
      (loadOne airSection ++ [.applyBlockUpdates [⟨⟨1, 5, 2⟩, ⟨1⟩⟩]])).any
      (fun s => decide (s.chunks.cell? ⟨⟨0, 0⟩, 0, 1313⟩ = some ⟨1⟩ ∧
        nonEmptyBlockCount? s.chunks ⟨0, 0⟩ 0 = some 0)) = true := by
    decide +kernel
  obtain ⟨s, hrun, hblock⟩ := Run.exists_of_foldlM hruns
  refine ⟨s, hrun.of_forall ?_, hblock⟩
  exact List.forall_mem_append.mpr ⟨fun call hcall =>
    (loadOne_summarized counted_airSection call hcall).1, List.forall_mem_singleton.mpr trivial⟩

theorem reachable_counted_stone : ∃ s : WorldState Unit,
    (∃ chunk, s.chunks.lookup ⟨0, 0⟩ = some chunk ∧ chunk.sections = [stoneSection]) ∧
    ∀ empty : List MeshPosition,
      (meshChunk onePartEach (fun p _ faces => (.ok (p :: faces) : Except Unit _)) ⟨0, 0⟩ s.chunks
        ⟨0, 16⟩ empty).map ChunkMesh.faces =
      (meshChunkWith onePartEach (fun p _ faces => .ok (p :: faces)) false ⟨0, 0⟩ s.chunks
        ⟨0, 16⟩ empty).map ChunkMesh.faces := by
  have hruns : (List.foldlM (fun s (call : WorldCall) => (call.run firstSum s).state?)
      (WorldState.new : WorldState Unit) (loadOne stoneSection)).any
      (fun s => decide ((s.chunks.lookup ⟨0, 0⟩).map Chunk.sections = some [stoneSection])) =
      true := by
    decide +kernel
  obtain ⟨s, hrun, hchunk⟩ := Run.exists_of_foldlM hruns
  have hsteps : Run (fun s call t => ((call.run firstSum s).state? = some t ∧
      Summarized onePartEach call) ∧ Allows onePartEach s call) WorldState.new
      (loadOne stoneSection) s := by
    refine (hrun.of_forall (loadOne_summarized fun _ _ _ _ => by decide)).mono ?_
    exact fun s call t h => ⟨⟨h.1, h.2.1⟩, h.2.2 s⟩
  refine ⟨s, Option.map_eq_some_iff.mp hchunk, fun empty => ?_⟩
  exact (reachable_counted firstSum _ s hsteps).2 _ _ _ _ _ empty

end Cubic.Render
