import Cubic.World.ChunkAdapter
import Cubic.World.EveryChunk
import Cubic.World.Reachable

/-!
# The block entities of the loaded chunks

They come with a chunk that is loaded, or one at a time.
-/

namespace Cubic.World

set_option autoImplicit false

open Mut

variable {Rest : Type} {s t : WorldState Rest}

def BlockEntitySummary.place (entity : BlockEntitySummary) : EntityPlace :=
  ⟨entity.localX, entity.y, entity.localZ⟩

/-- No more than the store is meant for, and no two at one place. -/
def WellPlaced (entities : List BlockEntitySummary) : Prop :=
  entities.length ≤ maxBlockEntitiesPerChunk ∧ (entities.map BlockEntitySummary.place).Nodup

/-- The block entities of every loaded chunk are as `Q` asks. -/
def Everywhere (Q : List BlockEntitySummary → Prop) (chunks : LoadedChunks) : Prop :=
  ∀ coordinate chunk, chunks.lookup coordinate = some chunk → Q chunk.blockEntities

variable {Q : List BlockEntitySummary → Prop} {chunks : LoadedChunks}

/-! ### The chunk store -/

theorem Everywhere.batch (h : Everywhere Q chunks) {geometry : DimensionGeometry}
    {updates : List BlockStateUpdate} {progress : BlockUpdateProgress}
    (hbatch : Batch geometry chunks updates progress) : Everywhere Q progress.chunks := by
  intro coordinate chunk hlookup
  have houtline := hbatch.outline coordinate
  unfold LoadedChunks.outline at houtline
  rw [hlookup] at houtline
  obtain ⟨chunk', hchunk', hbare⟩ := Option.map_eq_some_iff.mp houtline.symm
  unfold LoadedChunks.bare at hbare
  have hentities := congrArg Chunk.blockEntities hbare
  exact hentities ▸ h coordinate chunk' hchunk'

/-! ### One more block entity -/

theorem places_putBlockEntity (localX : UInt8) (y : Int16) (localZ : UInt8) (typeRawId : UInt32)
    (data : BlockEntityData) (entities : List BlockEntitySummary) :
    (LoadedChunks.putBlockEntity localX y localZ typeRawId data entities).2.map
        BlockEntitySummary.place =
      if ⟨localX, y, localZ⟩ ∈ entities.map BlockEntitySummary.place then
        entities.map BlockEntitySummary.place
      else entities.map BlockEntitySummary.place ++ [⟨localX, y, localZ⟩] := by
  induction entities with
  | nil => rfl
  | cons entity rest ih =>
    unfold LoadedChunks.putBlockEntity
    by_cases hat : entity.localX = localX ∧ entity.y = y ∧ entity.localZ = localZ
    · obtain ⟨rfl, rfl, rfl⟩ := hat
      rw [if_pos ⟨rfl, rfl, rfl⟩, if_pos]
      · rfl
      · exact List.mem_cons_self
    · have hplace : ⟨localX, y, localZ⟩ ≠ entity.place := by
        intro heq
        cases heq
        exact hat ⟨rfl, rfl, rfl⟩
      rw [if_neg hat]
      change entity.place :: List.map BlockEntitySummary.place _ = _
      rw [ih, List.map_cons]
      by_cases hmem : ⟨localX, y, localZ⟩ ∈ rest.map BlockEntitySummary.place
      · rw [if_pos hmem, if_pos (List.mem_cons_of_mem _ hmem)]
      · rw [if_neg hmem, if_neg, List.cons_append]
        rw [List.mem_cons, not_or]
        exact ⟨hplace, hmem⟩

/-- A new block entity fits into a chunk that is not full. -/
theorem WellPlaced.put {entities : List BlockEntitySummary} (h : WellPlaced entities)
    (place : EntityPlace) (typeRawId : UInt32) (data : BlockEntityData)
    (hroom : place ∉ entities.map BlockEntitySummary.place →
      entities.length < maxBlockEntitiesPerChunk) :
    WellPlaced
      (LoadedChunks.putBlockEntity place.localX place.y place.localZ typeRawId data entities).2 := by
  obtain ⟨hlength, hnodup⟩ := h
  have hplaces := places_putBlockEntity place.localX place.y place.localZ typeRawId data entities
  unfold WellPlaced
  rw [← List.length_map BlockEntitySummary.place, hplaces]
  split
  · rw [List.length_map]
    exact ⟨hlength, hnodup⟩
  · rename_i hfree
    rw [List.length_append, List.length_map, List.length_singleton]
    refine ⟨hroom hfree, List.nodup_append.mpr ⟨hnodup, List.pairwise_singleton _ _, ?_⟩⟩
    rintro place' hmem _ hplace rfl
    obtain rfl := List.mem_singleton.mp hplace
    exact hfree hmem

/-! ### Runs -/

namespace WorldCall

/-- Chunks are loaded as the decoder hands them over. -/
def Decoded (layout : NbtLayout) : WorldCall → Prop
  | apply (.loadChunk chunk) => ∃ payload, receiveLevelChunk layout payload = some chunk
  | _ => True

/-- No chunk arrives with two block entities at one place, and none is added to a full chunk. -/
def Fits (s : WorldState Rest) : WorldCall → Prop
  | apply (.loadChunk chunk) => (chunk.blockEntities.map BlockEntitySummary.place).Nodup
  | applyBlockEntityUpdate position _ _ =>
    match entityPlace? position, s.chunks.lookup (chunkOf position) with
    | some place, some chunk => place ∈ chunk.blockEntities.map BlockEntitySummary.place ∨
        chunk.blockEntities.length < maxBlockEntitiesPerChunk
    | _, _ => True
  | _ => True

instance (s : WorldState Rest) (call : WorldCall) : Decidable (call.Fits s) := by
  unfold Fits
  split
  · infer_instance
  · split
    · infer_instance
    · infer_instance
  · infer_instance

/-- A call, and the state it leaves whether or not it succeeds. -/
def Step (layout : NbtLayout) (sums : FloatSums) (s : WorldState Rest) (call : WorldCall)
    (t : WorldState Rest) : Prop :=
  (call.run sums s).state? = some t ∧ call.Decoded layout

end WorldCall

theorem mapM_length {α β ε : Type} {f : α → Except ε β} : ∀ {xs : List α} {ys : List β},
    xs.mapM f = .ok ys → ys.length = xs.length := by
  intro xs
  induction xs with
  | nil =>
    intro ys h
    cases h
    rfl
  | cons x xs ih =>
    intro ys h
    rw [List.mapM_cons] at h
    obtain ⟨y, _, h⟩ := except_bind_eq_ok.mp h
    obtain ⟨ys', hys, h⟩ := except_bind_eq_ok.mp h
    cases h
    rw [List.length_cons, List.length_cons, ih hys]

theorem receiveLevelChunk_eq_some {layout : NbtLayout} {payload : Bytes} {chunk : Chunk}
    (h : receiveLevelChunk layout payload = some chunk) :
    ∃ wire r, Chunk.decodeLevelChunkWithLight layout (.new payload) = .ok wire r ∧
      semanticChunk wire = .ok chunk := by
  unfold receiveLevelChunk at h
  cases hdecode : Chunk.decodeLevelChunkWithLight layout (.new payload) with
  | ok wire r =>
    rw [hdecode] at h
    dsimp only at h
    split at h
    · cases hsemantic : semanticChunk wire with
      | error e =>
        rw [hsemantic] at h
        cases h
      | ok chunk' =>
        rw [hsemantic] at h
        cases h
        exact ⟨wire, r, rfl, hsemantic⟩
    · cases h
  | err e r =>
    rw [hdecode] at h
    cases h
  | panic =>
    rw [hdecode] at h
    cases h

/-- The decoder bounds the block entities of a chunk. -/
theorem length_receiveLevelChunk {layout : NbtLayout} {payload : Bytes} {chunk : Chunk}
    (h : receiveLevelChunk layout payload = some chunk) :
    chunk.blockEntities.length ≤ maxBlockEntitiesPerChunk := by
  obtain ⟨wire, r, hdecode, hsemantic⟩ := receiveLevelChunk_eq_some h
  obtain ⟨entities, hentities, hchunk⟩ := except_bind_eq_ok.mp hsemantic
  cases hchunk
  exact (mapM_length hentities).trans_le (Chunk.decodeLevelChunkWithLight_blockEntities hdecode)

theorem state?_bind_pure {σ ε α β : Type} {m : Mut σ ε α} {f : α → β} (s : σ) :
    ((m >>= fun a => pure (f a)) s).state? = (m s).state? := by
  change (Mut.andThen m _ s).state? = _
  unfold Mut.andThen
  cases m s with
  | ok a t => rfl
  | err e t => rfl
  | panic => rfl

theorem wellPlaced_step {layout : NbtLayout} {sums : FloatSums} {call : WorldCall}
    (h : Everywhere WellPlaced s.chunks) (hstep : call.Step layout sums s t)
    (hfits : call.Fits s) : Everywhere WellPlaced t.chunks := by
  obtain ⟨hrun, hdecoded⟩ := hstep
  cases call with
  | apply event =>
    refine Keeps.state? (WorldState.keeps_apply sums (fun _ _ _ _ h => h) ?_) h
      ((state?_bind_pure s).symm.trans hrun)
    cases event with
    | loadChunk chunk =>
      obtain ⟨payload, hpayload⟩ := hdecoded
      exact ⟨length_receiveLevelChunk hpayload, hfits⟩
    | _ => trivial
  | applyBlockUpdates updates =>
    exact WorldState.everyChunk_blockUpdates h (fun _ _ _ hbatch => Everywhere.batch h hbatch)
      ((state?_bind_pure s).symm.trans hrun)
  | applyBlockEntityUpdate position typeRawId data =>
    refine WorldState.everyChunk_blockEntityUpdate h ?_ ((state?_bind_pure s).symm.trans hrun)
    intro place chunk hplace hchunk hplaced
    dsimp only [WorldCall.Fits] at hfits
    rw [hplace, hchunk] at hfits
    exact hplaced.put place typeRawId data hfits.resolve_left

/-- As long as the calls fit, no loaded chunk has too many block entities or two at one place. -/
theorem reachable_wellPlaced (layout : NbtLayout) (sums : FloatSums) (calls : List WorldCall)
    (s : WorldState Rest)
    (hrun : Run (fun s call t => WorldCall.Step layout sums s call t ∧ call.Fits s)
      WorldState.new calls s) :
    ∀ coordinate chunk, s.chunks.lookup coordinate = some chunk →
      chunk.blockEntities.length ≤ maxBlockEntitiesPerChunk ∧
        (chunk.blockEntities.map BlockEntitySummary.place).Nodup := by
  have hplaced : Everywhere WellPlaced s.chunks := by
    refine Run.invariant (I := fun s => Everywhere WellPlaced s.chunks) ?_ hrun nofun
    intro s call t h hstep
    exact wellPlaced_step h hstep.1 hstep.2
  exact hplaced

/-- A player enters the overworld. -/
def enterOverworld : List WorldCall :=
  [.apply .beginConfiguration, .apply (.runtimeDimensionTypes [⟨0, overworld, ⟨-64, 384⟩⟩]),
    .apply (.enterWorld ⟨7, false, [overworld], 20, 10, 10, false, true, false, false,
      overworldSpawn⟩)]

/-- A chunk at the origin with one section of stone, as a packet, with the block entities. -/
def levelChunkPayload (blockEntities : Bytes) : Bytes :=
  [0, 0, 0, 0, 0, 0, 0, 0] ++ [0] ++ [8] ++ [0x10, 0, 0, 0, 0, 1, 0, 0] ++ blockEntities ++
    [0, 0, 0, 0, 0, 0]

/-- The chunk of the payload. -/
def levelChunk (blockEntities : List BlockEntitySummary) : Chunk :=
  { stoneChunk ⟨0, 0⟩ with blockEntities := blockEntities }

theorem enterOverworld_decoded (layout : NbtLayout) : ∀ call ∈ enterOverworld, call.Decoded layout :=
  List.forall_mem_cons.mpr ⟨trivial, List.forall_mem_cons.mpr
    ⟨trivial, List.forall_mem_singleton.mpr trivial⟩⟩

/-- One block entity comes with the chunk and another one later. -/
def twoBlockEntities : List WorldCall :=
  enterOverworld ++ [.apply (.loadChunk (levelChunk [⟨1, 5, 2, 3, false, none⟩])),
    .applyBlockEntityUpdate ⟨1, 6, 2⟩ 3 ⟨none, []⟩]

theorem reachable_wellPlaced_two : ∃ s : WorldState Unit,
    Run (fun s call t => WorldCall.Step ⟨24, 32⟩ firstSum s call t ∧ call.Fits s) WorldState.new
      twoBlockEntities s ∧
      s.chunks.lookup ⟨0, 0⟩ = some (levelChunk
        [⟨1, 5, 2, 3, false, none⟩, ⟨1, 6, 2, 3, true, some ⟨none, []⟩⟩]) ∧
      ∀ coordinate chunk, s.chunks.lookup coordinate = some chunk →
        chunk.blockEntities.length ≤ maxBlockEntitiesPerChunk ∧
          (chunk.blockEntities.map BlockEntitySummary.place).Nodup := by
  have hdecoded : receiveLevelChunk ⟨24, 32⟩ (levelChunkPayload [1, 0x12, 0, 5, 3, 0]) =
      some (levelChunk [⟨1, 5, 2, 3, false, none⟩]) := by
    decide +kernel
  have hruns : (List.foldlM (fun s (call : WorldCall) =>
      if call.Fits s then (call.run firstSum s).state? else none) (WorldState.new : WorldState Unit)
      twoBlockEntities).any
      (fun s => decide (s.chunks.lookup ⟨0, 0⟩ = some (levelChunk
        [⟨1, 5, 2, 3, false, none⟩, ⟨1, 6, 2, 3, true, some ⟨none, []⟩⟩]))) = true := by
    decide +kernel
  obtain ⟨s, hrun, hchunk⟩ := Run.exists_of_foldlM hruns
  have hsteps : Run (fun s call t => WorldCall.Step ⟨24, 32⟩ firstSum s call t ∧ call.Fits s)
      WorldState.new twoBlockEntities s := by
    refine (hrun.of_forall (p := WorldCall.Decoded ⟨24, 32⟩) ?_).mono ?_
    · refine List.forall_mem_append.mpr ⟨enterOverworld_decoded _, ?_⟩
      exact List.forall_mem_cons.mpr ⟨⟨_, hdecoded⟩, List.forall_mem_singleton.mpr trivial⟩
    · rintro s call t ⟨hnext, hdecoded⟩
      split at hnext
      · rename_i hfits
        exact ⟨⟨hnext, hdecoded⟩, hfits⟩
      · cases hnext
  exact ⟨s, hsteps, hchunk, reachable_wellPlaced ⟨24, 32⟩ firstSum _ s hsteps⟩

/-- Two block entities at one place of a chunk are loaded. -/
theorem reachable_wellPlaced_fails : ∃ (calls : List WorldCall) (s : WorldState Unit),
    Run (WorldCall.Step ⟨24, 32⟩ firstSum) WorldState.new calls s ∧
      ∃ coordinate chunk, s.chunks.lookup coordinate = some chunk ∧
        ¬ (chunk.blockEntities.map BlockEntitySummary.place).Nodup := by
  have hdecoded : receiveLevelChunk ⟨24, 32⟩
      (levelChunkPayload [2, 0x12, 0, 5, 3, 0, 0x12, 0, 5, 3, 0]) =
      some (levelChunk [⟨1, 5, 2, 3, false, none⟩, ⟨1, 5, 2, 3, false, none⟩]) := by
    decide +kernel
  have hruns : (List.foldlM (fun s (call : WorldCall) => (call.run firstSum s).state?)
      (WorldState.new : WorldState Unit) (enterOverworld ++
        [.apply (.loadChunk (levelChunk [⟨1, 5, 2, 3, false, none⟩, ⟨1, 5, 2, 3, false, none⟩]))])).any
      (fun s => decide (s.chunks.lookup ⟨0, 0⟩ =
        some (levelChunk [⟨1, 5, 2, 3, false, none⟩, ⟨1, 5, 2, 3, false, none⟩]))) = true := by
    decide +kernel
  obtain ⟨s, hrun, hchunk⟩ := Run.exists_of_foldlM hruns
  refine ⟨_, s, hrun.of_forall (List.forall_mem_append.mpr ⟨enterOverworld_decoded _, ?_⟩), ⟨0, 0⟩,
    _, hchunk, by decide⟩
  exact List.forall_mem_singleton.mpr ⟨_, hdecoded⟩

end Cubic.World
