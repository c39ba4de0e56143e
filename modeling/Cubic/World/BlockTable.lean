import Cubic.World.BlockEntities
import Cubic.World.BlockReads

/-!
# The loaded blocks as a table

What the events that carry blocks make of the blocks that are read.
-/

namespace Cubic.World

set_option autoImplicit false

open Mut

/-- The blocks of the loaded chunks. -/
abbrev LoadedBlocks := BlockCoordinates → Option RuntimeBlockStateId

variable {Rest : Type} {s t : WorldState Rest} {session : WorldSession}

/-- A chunk that the decoder hands over can be read. -/
theorem readable_receiveLevelChunk {layout : NbtLayout} {payload : Bytes} {chunk : Chunk}
    (h : receiveLevelChunk layout payload = some chunk) : chunk.Readable := by
  obtain ⟨wire, r, hdecode, hsemantic⟩ := receiveLevelChunk_eq_some h
  obtain ⟨⟨bytes, r', hsections⟩, _⟩ := Chunk.decodeLevelChunkWithLight_parts hdecode
  obtain ⟨datas, _, hfaithful⟩ := Chunk.decodeSections_faithful hsections
  obtain ⟨entities, _, hchunk⟩ := except_bind_eq_ok.mp hsemantic
  cases hchunk
  intro s hs
  obtain ⟨wireSection, hmem, rfl⟩ := List.mem_map.mp hs
  obtain ⟨data, hblocks, _⟩ : ∃ data, Chunk.FaithfulSection data wireSection := by
    obtain ⟨i, hi, rfl⟩ := List.getElem_of_mem hmem
    exact ⟨_, hfaithful.get (hfaithful.length_eq ▸ hi) hi⟩
  refine ⟨(len_mapPalette wireSection.blocks _).trans hblocks.1, ?_⟩
  intro i hi
  obtain ⟨value, _, hlookup⟩ := hblocks.2 i hi
  change ((mapPalette wireSection.blocks RuntimeBlockStateId.mk).get i).isSome
  rw [get_mapPalette, hlookup]
  rfl

theorem sections_receiveLevelChunk {layout : NbtLayout} {payload : Bytes} {chunk : Chunk}
    (h : receiveLevelChunk layout payload = some chunk) :
    chunk.sections.length ≤ maxChunkSections := by
  obtain ⟨wire, r, hdecode, hsemantic⟩ := receiveLevelChunk_eq_some h
  obtain ⟨⟨bytes, r', hsections⟩, _⟩ := Chunk.decodeLevelChunkWithLight_parts hdecode
  obtain ⟨entities, _, hchunk⟩ := except_bind_eq_ok.mp hsemantic
  cases hchunk
  exact (List.length_map _).trans_le (Chunk.decodeSections_length hsections)

namespace WorldState

/-- The ray and the placement read alike. -/
theorem raycast_read_eq (hsession : s.session = some session)
    (hvalid : session.dimensionGeometry.Valid) (p : BlockCoordinates) :
    BlockLookup.raycast.read s p = s.worldBlockState p := by
  unfold BlockLookup.read
  rw [hsession, worldBlockState_eq hsession hvalid]
  exact Raycast.blockStateAt_eq hvalid p

/-- A batch writes where a chunk is loaded. -/
theorem worldBlockState_applyBlockUpdates (hsession : s.session = some session)
    (hvalid : session.dimensionGeometry.Valid) (hreadable : Readable s.chunks)
    {updates : List BlockStateUpdate} {result : BlockUpdateResult}
    (hrun : applyBlockUpdates updates s = .ok result t) :
    t.session = some session ∧ Readable t.chunks ∧ ∀ p,
      t.worldBlockState p = (s.worldBlockState p).map (lastStateAt updates p).getD := by
  obtain ⟨progress, hbatch, hsession', hchunks, _⟩ := applyBlockUpdates_eq_ok hsession hrun
  have hreadable' : Readable t.chunks := by
    rw [hchunks]
    exact hreadable.batch hbatch
  refine ⟨hsession', hreadable', ?_⟩
  intro p
  rw [worldBlockState_eq hsession' hvalid, worldBlockState_eq hsession hvalid]
  by_cases hp : session.dimensionGeometry.Contains p.y
  · rw [if_pos hp, if_pos hp, hreadable'.read_eq_cell?, hreadable.read_eq_cell?, hchunks,
      hbatch.cell, lastUpdate_slotOf hvalid hp]
  · rw [if_neg hp, if_neg hp]
    rfl

/-- What a chunk holds, read as if it were the only one. -/
def chunkBlocks (s : WorldState Rest) (chunk : Chunk) : LoadedBlocks :=
  { s with chunks := OrderedMap.empty.insert chunk.coordinate chunk }.worldBlockState

theorem worldBlockState_congr (hsession : t.session = s.session) {p : BlockCoordinates}
    (hchunk : t.chunks.lookup (chunkOf p) = s.chunks.lookup (chunkOf p)) :
    t.worldBlockState p = s.worldBlockState p := by
  unfold worldBlockState LoadedChunks.get
  rw [hsession, hchunk]

theorem worldBlockState_unloaded {p : BlockCoordinates}
    (hunloaded : s.chunks.lookup (chunkOf p) = none) : s.worldBlockState p = none := by
  cases hread : s.worldBlockState p with
  | none => rfl
  | some state =>
    unfold worldBlockState at hread
    obtain ⟨session, _, hread⟩ := Option.bind_eq_some_iff.mp hread
    obtain ⟨height, _, hread⟩ := Option.bind_eq_some_iff.mp hread
    split at hread
    · cases hread
    · obtain ⟨top, _, hread⟩ := Option.bind_eq_some_iff.mp hread
      split at hread
      · cases hread
      · obtain ⟨chunk, hchunk, _⟩ := Option.bind_eq_some_iff.mp hread
        cases hunloaded.symm.trans hchunk

/-- An event that is accepted changes the state as its handler does, up to the revision. -/
theorem apply_eq_ok {sums : FloatSums} {event : WorldEvent} {transition : WorldTransition}
    (hrun : apply sums event s = .ok transition t) :
    ∃ a u, handle sums event s = .ok a u ∧ t.session = u.session ∧ t.chunks = u.chunks := by
  unfold apply at hrun
  rw [get_bind] at hrun
  obtain ⟨revision, s₁, hrevision, hrun₁⟩ := bind_eq_ok.mp hrun
  obtain ⟨_, rfl⟩ := okOr_eq_ok.mp hrevision
  obtain ⟨a, u, hhandle, hrun₂⟩ := bind_eq_ok.mp hrun₁
  cases hrun₂
  exact ⟨a, u, hhandle, rfl, rfl⟩

theorem apply_loadChunk_eq_ok {sums : FloatSums} {chunk : Chunk} {transition : WorldTransition}
    (hrun : apply sums (.loadChunk chunk) s = .ok transition t) :
    t.session = s.session ∧ t.chunks = OrderedMap.insert s.chunks chunk.coordinate chunk := by
  obtain ⟨a, u, hhandle, hsession, hchunks⟩ := apply_eq_ok hrun
  rw [hsession, hchunks]
  obtain ⟨_, s₁, hrequire, hrun₁⟩ := bind_eq_ok.mp hhandle
  obtain ⟨_, rfl⟩ := require_eq_ok.mp hrequire
  rw [get_bind] at hrun₁
  obtain ⟨chunks, s₂, hinsert, hrun₂⟩ := bind_eq_ok.mp hrun₁
  obtain ⟨hroom, rfl⟩ := ofExcept_eq_ok.mp (mapErr_eq_ok.mp hinsert)
  cases hrun₂
  unfold LoadedChunks.insert at hroom
  split at hroom
  · cases hroom
  · cases hroom
    exact ⟨rfl, rfl⟩

theorem apply_unloadChunk_eq_ok {sums : FloatSums} {coordinate : ChunkCoordinate}
    {transition : WorldTransition}
    (hrun : apply sums (.unloadChunk coordinate) s = .ok transition t) :
    t.session = s.session ∧ t.chunks = OrderedMap.remove s.chunks coordinate := by
  obtain ⟨a, u, hhandle, hsession, hchunks⟩ := apply_eq_ok hrun
  rw [hsession, hchunks]
  obtain ⟨_, s₁, hrequire, hrun₁⟩ := bind_eq_ok.mp hhandle
  obtain ⟨_, rfl⟩ := require_eq_ok.mp hrequire
  cases hrun₁
  exact ⟨rfl, rfl⟩

/-- A chunk replaces what was loaded in its place. -/
theorem worldBlockState_loadChunk {sums : FloatSums} {chunk : Chunk} {transition : WorldTransition}
    (hrun : apply sums (.loadChunk chunk) s = .ok transition t) (p : BlockCoordinates) :
    t.worldBlockState p =
      if chunkOf p = chunk.coordinate then s.chunkBlocks chunk p else s.worldBlockState p := by
  obtain ⟨hsession, hchunks⟩ := apply_loadChunk_eq_ok hrun
  split
  · rename_i hp
    have hsession' : t.session = { s with
        chunks := OrderedMap.empty.insert chunk.coordinate chunk : WorldState Rest }.session := hsession
    apply worldBlockState_congr hsession'
    rw [hchunks, OrderedMap.lookup_insert, OrderedMap.lookup_insert, if_pos hp, if_pos hp]
  · rename_i hp
    apply worldBlockState_congr hsession
    rw [hchunks, OrderedMap.lookup_insert, if_neg hp]

theorem worldBlockState_unloadChunk {sums : FloatSums} {coordinate : ChunkCoordinate}
    {transition : WorldTransition}
    (hrun : apply sums (.unloadChunk coordinate) s = .ok transition t) (p : BlockCoordinates) :
    t.worldBlockState p = if chunkOf p = coordinate then none else s.worldBlockState p := by
  obtain ⟨hsession, hchunks⟩ := apply_unloadChunk_eq_ok hrun
  split
  · rename_i hp
    apply worldBlockState_unloaded
    rw [hchunks, OrderedMap.lookup_remove, if_pos hp]
  · rename_i hp
    apply worldBlockState_congr hsession
    rw [hchunks, OrderedMap.lookup_remove, if_neg hp]

end WorldState

end Cubic.World
