import Cubic.Render.Freshness
import Cubic.Render.Snapshot

/-!
# When the snapshot is enough

A lookup that falls outside the five chunks of a job finds nothing there. It is answered as on
the full map unless the full map knows more, which takes a loaded chunk on a diagonal and a
block within two of that corner.
-/

namespace Cubic.Render

open World

set_option autoImplicit false

/-! ### Answers -/

/-- The chunk a lookup falls in. -/
def Lookup.chunk (q : Lookup) : ChunkCoordinate := chunkOf q.position

section
variable {chunks chunks' : LoadedChunks} {geometry : DimensionGeometry}

theorem locate_coordinate {position : BlockCoordinates} {l : BlockLocation}
    (h : locate geometry position = some l) : l.coordinate = chunkOf position := by
  unfold locate at h
  obtain ⟨relativeY, _, h⟩ := Option.bind_eq_some_iff.mp h
  split at h
  · cases h
  · obtain ⟨_, _, h⟩ := Option.bind_eq_some_iff.mp h
    obtain ⟨_, _, h⟩ := Option.bind_eq_some_iff.mp h
    obtain ⟨_, _, h⟩ := Option.bind_eq_some_iff.mp h
    obtain ⟨_, _, h⟩ := Option.bind_eq_some_iff.mp h
    cases h
    rfl

/-- A reading depends on one chunk, and there is none without it. -/
theorem readAt_eq {α : Type} (position : BlockCoordinates)
    (read : Chunk → BlockLocation → Option α) : ∃ f : Chunk → Option α,
      ∀ chunks : LoadedChunks, readAt chunks geometry position read =
        (chunks.lookup (chunkOf position)).bind f := by
  unfold readAt
  cases hlocate : locate geometry position with
  | none =>
    refine ⟨fun _ => none, ?_⟩
    intro chunks
    cases chunks.lookup (chunkOf position) <;> rfl
  | some l =>
    refine ⟨fun chunk => read chunk l, ?_⟩
    intro chunks
    rw [← locate_coordinate hlocate]
    rfl

theorem answer_eq (geometry : DimensionGeometry) (q : Lookup) : ∃ f : Chunk → q.Answer,
    ∀ chunks : LoadedChunks, answer chunks geometry q = (chunks.lookup q.chunk).bind f := by
  cases q with
  | block position => exact readAt_eq position _
  | biome position => exact readAt_eq position _
  | light position => exact readAt_eq position _

theorem answer_congr (geometry : DimensionGeometry) {q : Lookup}
    (h : chunks.lookup q.chunk = chunks'.lookup q.chunk) :
    answer chunks geometry q = answer chunks' geometry q := by
  obtain ⟨f, hf⟩ := answer_eq geometry q
  rw [hf, hf, h]

theorem answer_unloaded (geometry : DimensionGeometry) {q : Lookup}
    (h : chunks.lookup q.chunk = none) : answer chunks geometry q = none := by
  obtain ⟨f, hf⟩ := answer_eq geometry q
  rw [hf, h]
  rfl

theorem lookup_snapshot (chunks : LoadedChunks) (c d : ChunkCoordinate) :
    (WorldRenderer.snapshot chunks c).lookup d =
      if d ∈ neighborsIncluding c then chunks.lookup d else none :=
  OrderedMap.lookup_filterMap chunks (neighborsIncluding c) d

/-- The snapshot answers as the full map does, except where it knows nothing and the map does. -/
theorem answer_snapshot_iff (chunks : LoadedChunks) (geometry : DimensionGeometry)
    (c : ChunkCoordinate) (q : Lookup) :
    answer (WorldRenderer.snapshot chunks c) geometry q = answer chunks geometry q ↔
      (q.chunk ∉ neighborsIncluding c → answer chunks geometry q = none) := by
  by_cases hnear : q.chunk ∈ neighborsIncluding c
  · refine iff_of_true ?_ fun hfar => absurd hnear hfar
    apply answer_congr
    rw [lookup_snapshot, if_pos hnear]
  · have hnone : answer (WorldRenderer.snapshot chunks c) geometry q = none := by
      apply answer_unloaded
      rw [lookup_snapshot, if_neg hnear]
    rw [hnone]
    exact ⟨fun h _ => h.symm, fun h => (h hnear).symm⟩

end

/-! ### Meshing -/

section
variable {Part Fluid Faces E : Type} {models : RuntimeBlockStateId → StateModels Part Fluid}
  {draw draw' : MeshPosition → RuntimeBlockStateId → Faces → Except E Faces}

/-- A block of a section that is not skipped and not blank. -/
def DrawnIn (models : RuntimeBlockStateId → StateModels Part Fluid) (blockSection : ChunkSection)
    (p : MeshPosition) (state : RuntimeBlockStateId) : Prop :=
  blockSection.nonEmptyBlockCount ≠ 0 ∧ blockSection.block p.x p.y p.z = some state ∧
    (models state).isBlank = false

theorem meshPositions_congr {blockSection : ChunkSection} {positions : List MeshPosition}
    (hcount : blockSection.nonEmptyBlockCount ≠ 0)
    (h : ∀ p ∈ positions, ∀ state, DrawnIn models blockSection p state →
      ∀ faces, draw p state faces = draw' p state faces) (mesh : ChunkMesh Faces) :
    positions.foldlM (meshPosition models draw blockSection) mesh =
      positions.foldlM (meshPosition models draw' blockSection) mesh := by
  induction positions generalizing mesh with
  | nil => rfl
  | cons p rest ih =>
    obtain ⟨hp, hrest⟩ := List.forall_mem_cons.mp h
    have hsame : meshPosition models draw blockSection mesh p =
        meshPosition models draw' blockSection mesh p := by
      unfold meshPosition
      cases hblock : blockSection.block p.x p.y p.z with
      | none => rfl
      | some state =>
        dsimp only
        by_cases hblank : (models state).isBlank = true
        · rw [if_pos hblank, if_pos hblank]
        · rw [if_neg hblank, if_neg hblank,
            hp state ⟨hcount, hblock, Bool.not_eq_true _ ▸ hblank⟩]
    rw [List.foldlM_cons, List.foldlM_cons, hsame]
    exact congrArg _ (funext fun next => ih hrest next)

theorem sectionIndex_of_mem {sectionIndex : Nat} {p : MeshPosition}
    (h : p ∈ sectionPositions sectionIndex) : p.sectionIndex = sectionIndex := by
  unfold sectionPositions at h
  obtain ⟨y, _, h⟩ := List.mem_flatMap.mp h
  obtain ⟨z, _, h⟩ := List.mem_flatMap.mp h
  obtain ⟨x, _, rfl⟩ := List.mem_map.mp h
  rfl

theorem meshSections_congr {sections : List ChunkSection} {first : Nat}
    (h : ∀ i blockSection p state, sections[i]? = some blockSection →
      p.sectionIndex = first + i → DrawnIn models blockSection p state →
        ∀ faces, draw p state faces = draw' p state faces) (mesh : ChunkMesh Faces) :
    meshSections models draw true first sections mesh =
      meshSections models draw' true first sections mesh := by
  induction sections generalizing first mesh with
  | nil => rfl
  | cons blockSection rest ih =>
    have hsection : meshSection models draw true first blockSection mesh =
        meshSection models draw' true first blockSection mesh := by
      unfold meshSection
      by_cases hcount : blockSection.nonEmptyBlockCount = 0
      · rw [Bool.true_and, if_pos (decide_eq_true hcount), if_pos (decide_eq_true hcount)]
      · have hnot : ¬ (true && decide (blockSection.nonEmptyBlockCount = 0)) = true := by
          rw [Bool.true_and]
          exact fun hskip => hcount (of_decide_eq_true hskip)
        rw [if_neg hnot, if_neg hnot]
        apply meshPositions_congr hcount
        exact fun p hp state => h 0 blockSection p state rfl (sectionIndex_of_mem hp)
    unfold meshSections
    rw [hsection]
    refine congrArg _ (funext fun next => ih ?_ next)
    intro i blockSection' p state hi hp
    apply h (i + 1) blockSection' p state hi
    omega

end

/-! ### Where lookups fall -/

/-- Far enough from the ends of the coordinates that no block position wraps around. -/
def InRange (a : Int32) : Prop := -2 ^ 27 < a.toInt ∧ a.toInt < 2 ^ 27 - 1

theorem toInt_local {n : Nat} (hn : n < 16) : n.toInt32.toInt = n := by
  change (Int32.ofNat n).toInt = n
  rw [← Int32.ofInt_eq_ofNat]
  apply Int32.toInt_ofInt_of_le <;> omega

theorem toInt_saturatingMul_sixteen (a : Int32) :
    (saturatingMulI32 a 16).toInt = max (-2 ^ 31) (min (a.toInt * 16) (2 ^ 31 - 1)) := by
  have hsixteen : (16 : Int32).toInt = 16 := rfl
  unfold saturatingMulI32
  rw [hsixteen]
  apply Int32.toInt_ofInt_of_le <;> omega

theorem toInt_worldAxis {a dx : Int32} (h : InRange a) {n : Nat} (hn : n < 16)
    (hdx : dx ∈ reach) :
    (saturatingMulI32 a 16 + n.toInt32 + dx).toInt = a.toInt * 16 + n + dx.toInt := by
  obtain ⟨hlow, hhigh⟩ := h
  have hbound := toInt_reach hdx
  have hbase : (saturatingMulI32 a 16).toInt = a.toInt * 16 := by
    rw [toInt_saturatingMul_sixteen]
    omega
  have hlocal := toInt_local hn
  have hfirst : (saturatingMulI32 a 16 + n.toInt32).toInt = a.toInt * 16 + n := by
    rw [Int32.toInt_add, hbase, hlocal]
    apply Int.bmod_eq_of_le <;> omega
  rw [Int32.toInt_add, hfirst]
  apply Int.bmod_eq_of_le <;> omega

theorem chunkAxis_cases {a dx : Int32} (h : InRange a) {n : Nat} (hn : n < 16)
    (hdx : dx ∈ reach) :
    divEuclid (saturatingMulI32 a 16 + n.toInt32 + dx) 16 = a ∨
      divEuclid (saturatingMulI32 a 16 + n.toInt32 + dx) 16 = a - 1 ∧ n ≤ 1 ∨
      divEuclid (saturatingMulI32 a 16 + n.toInt32 + dx) 16 = a + 1 ∧ 14 ≤ n := by
  have hchunk := toInt_divEuclid_sixteen (saturatingMulI32 a 16 + n.toInt32 + dx)
  rw [toInt_worldAxis h hn hdx] at hchunk
  obtain ⟨hlow, hhigh⟩ := h
  have hbound := toInt_reach hdx
  have hone : (1 : Int32).toInt = 1 := rfl
  have hsub : (a - 1).toInt = a.toInt - 1 := by
    rw [Int32.toInt_sub, hone]
    apply Int.bmod_eq_of_le <;> omega
  have hadd : (a + 1).toInt = a.toInt + 1 := by
    rw [Int32.toInt_add, hone]
    apply Int.bmod_eq_of_le <;> omega
  rw [← Int32.toInt_inj, ← Int32.toInt_inj, ← Int32.toInt_inj, hsub, hadd, hchunk]
  omega

/-- The four chunks a job is not given. -/
def diagonals (c : ChunkCoordinate) : List ChunkCoordinate :=
  [⟨c.x - 1, c.z - 1⟩, ⟨c.x - 1, c.z + 1⟩, ⟨c.x + 1, c.z - 1⟩, ⟨c.x + 1, c.z + 1⟩]

/-- Within two blocks of the border, on one axis. -/
def AtBorder (a : UInt8) : Prop := a.toNat ≤ 1 ∨ 14 ≤ a.toNat

theorem outside_cases {c : ChunkCoordinate} (hx : InRange c.x) (hz : InRange c.z)
    {geometry : DimensionGeometry} {p : MeshPosition} (hpx : p.x.toNat < 16)
    (hpz : p.z.toNat < 16) {q : Lookup} (hq : Within (worldPosition geometry c p) q)
    (hfar : q.chunk ∉ neighborsIncluding c) :
    q.chunk ∈ diagonals c ∧ AtBorder p.x ∧ AtBorder p.z := by
  obtain ⟨dx, hdx, dz, hdz, hqx, hqz⟩ := hq
  have hchunk : q.chunk = ⟨divEuclid q.position.x 16, divEuclid q.position.z 16⟩ := rfl
  have hxs := chunkAxis_cases hx hpx hdx
  have hzs := chunkAxis_cases hz hpz hdz
  change q.position.x = saturatingMulI32 c.x 16 + p.x.toNat.toInt32 + dx at hqx
  change q.position.z = saturatingMulI32 c.z 16 + p.z.toNat.toInt32 + dz at hqz
  rw [← hqx] at hxs
  rw [← hqz] at hzs
  rw [mem_neighborsIncluding] at hfar
  rw [hchunk] at hfar ⊢
  unfold diagonals AtBorder
  rcases hxs with hxs | ⟨hxs, hnx⟩ | ⟨hxs, hnx⟩
  · refine absurd ?_ hfar
    rw [hxs]
    rcases hzs with hzs | ⟨hzs, _⟩ | ⟨hzs, _⟩ <;> rw [hzs] <;> simp
  · rcases hzs with hzs | ⟨hzs, hnz⟩ | ⟨hzs, hnz⟩
    · exact absurd (by rw [hxs, hzs]; simp) hfar
    · exact ⟨by rw [hxs, hzs]; simp, Or.inl hnx, Or.inl hnz⟩
    · exact ⟨by rw [hxs, hzs]; simp, Or.inl hnx, Or.inr hnz⟩
  · rcases hzs with hzs | ⟨hzs, hnz⟩ | ⟨hzs, hnz⟩
    · exact absurd (by rw [hxs, hzs]; simp) hfar
    · exact ⟨by rw [hxs, hzs]; simp, Or.inr hnx, Or.inl hnz⟩
    · exact ⟨by rw [hxs, hzs]; simp, Or.inr hnx, Or.inr hnz⟩

theorem block_local_lt {blockSection : ChunkSection} {x y z : UInt8} {state : RuntimeBlockStateId}
    (h : blockSection.block x y z = some state) :
    x.toNat < 16 ∧ y.toNat < 16 ∧ z.toNat < 16 := by
  obtain ⟨index, hindex, _⟩ := Option.bind_eq_some_iff.mp h
  unfold sectionIndex at hindex
  split at hindex
  · cases hindex
  · rename_i hlocal
    omega

/-! ### The job of a chunk -/

section
variable {Part FaceRest ModelRest Quad Faces E : Type}
  (resources : RuntimeBlockStateId → BlockModels Part)
  (draft : Draft Part FaceRest ModelRest Quad Faces E) (biomes : List RuntimeBiome)
  (geometry : DimensionGeometry) (coordinate : ChunkCoordinate) (chunk : Chunk)

/-- A block of the chunk that is drawn. -/
def Drawn (p : MeshPosition) (state : RuntimeBlockStateId) : Prop :=
  chunk.sections.length = geometry.sectionCount ∧
    ∃ blockSection, chunk.sections[p.sectionIndex]? = some blockSection ∧
      DrawnIn (fun state => (resources state).toStateModels) blockSection p state

/-- The lookups of the job of a chunk for one of its blocks. -/
def jobLookups (chunks : LoadedChunks) (p : MeshPosition) (state : RuntimeBlockStateId)
    (faces : Faces) : List Lookup :=
  (drawAt resources draft biomes geometry coordinate chunk p state faces).asked
    (answer (WorldRenderer.snapshot chunks coordinate) geometry)

/-- The lookups find nothing on the full map outside the five chunks of the job. -/
def FindsNothingOutside (chunks : LoadedChunks) (lookups : List Lookup) : Prop :=
  ∀ q ∈ lookups, q.chunk ∉ neighborsIncluding coordinate → answer chunks geometry q = none

variable {resources draft biomes geometry coordinate chunk} {chunks : LoadedChunks}

theorem mesh_snapshot (hchunk : chunks.lookup coordinate = some chunk)
    (h : ∀ p state faces, Drawn resources geometry chunk p state →
      FindsNothingOutside geometry coordinate chunks
        (jobLookups resources draft biomes geometry coordinate chunk chunks p state faces))
    (empty : Faces) :
    meshAmong resources draft biomes geometry coordinate
        (WorldRenderer.snapshot chunks coordinate) empty =
      meshAmong resources draft biomes geometry coordinate chunks empty := by
  have hsnapshot : LoadedChunks.get (WorldRenderer.snapshot chunks coordinate) coordinate =
      some chunk := by
    unfold LoadedChunks.get
    rw [lookup_snapshot, if_pos (self_mem_neighborsIncluding coordinate), hchunk]
  have hfull : chunks.get coordinate = some chunk := hchunk
  unfold meshAmong
  rw [hsnapshot, hfull]
  unfold meshChunk meshChunkWith
  rw [hsnapshot, hfull]
  dsimp only
  split
  · rfl
  · rename_i hcount
    congr 1
    apply meshSections_congr
    intro i blockSection p state hsection hp hdrawn faces
    apply Query.run_congr
    intro q hq
    rw [Nat.zero_add] at hp
    have hdrawn : Drawn resources geometry chunk p state :=
      ⟨not_not.mp hcount, blockSection, hp.symm ▸ hsection, hdrawn⟩
    exact (answer_snapshot_iff chunks geometry coordinate q).mpr (h p state faces hdrawn q hq)

/-- For each block that is drawn, the lookups are answered on the snapshot as on the full map exactly
when they find nothing outside it; where that is so of all blocks, the mesh is that against the
whole world; a chunk that changes without marking another leaves the job of the other as it
was; and only lookups near a corner fall outside, into the chunk on the diagonal. -/
theorem snapshot_suffices_iff (resources : RuntimeBlockStateId → BlockModels Part)
    (draft : Draft Part FaceRest ModelRest Quad Faces E) (biomes : List RuntimeBiome)
    (geometry : DimensionGeometry) (coordinate : ChunkCoordinate) (chunk : Chunk)
    (chunks : LoadedChunks) (hchunk : chunks.lookup coordinate = some chunk) :
    (∀ p state faces, Drawn resources geometry chunk p state →
      ((∀ q ∈ jobLookups resources draft biomes geometry coordinate chunk chunks p state faces,
          answer (WorldRenderer.snapshot chunks coordinate) geometry q =
            answer chunks geometry q) ↔
        FindsNothingOutside geometry coordinate chunks
          (jobLookups resources draft biomes geometry coordinate chunk chunks p state faces))) ∧
    ((∀ p state faces, Drawn resources geometry chunk p state →
        FindsNothingOutside geometry coordinate chunks
          (jobLookups resources draft biomes geometry coordinate chunk chunks p state faces)) →
      ∀ empty, meshAmong resources draft biomes geometry coordinate
          (WorldRenderer.snapshot chunks coordinate) empty =
        meshAmong resources draft biomes geometry coordinate chunks empty) ∧
    (∀ changed value, coordinate ∉ neighborsIncluding changed →
      WorldRenderer.snapshot (chunks.put changed value) coordinate =
        WorldRenderer.snapshot chunks coordinate) ∧
    (InRange coordinate.x → InRange coordinate.z →
      ∀ p state faces, Drawn resources geometry chunk p state →
        ∀ q ∈ jobLookups resources draft biomes geometry coordinate chunk chunks p state faces,
          q.chunk ∉ neighborsIncluding coordinate →
            q.chunk ∈ diagonals coordinate ∧ AtBorder p.x ∧ AtBorder p.z) := by
  refine ⟨?_, mesh_snapshot hchunk, ?_, ?_⟩
  · intro p state faces _
    exact forall₂_congr fun q _ => answer_snapshot_iff chunks geometry coordinate q
  · intro changed value hfar
    apply WorldRenderer.snapshot_congr
    intro d hd
    rw [OrderedMap.lookup_put, if_neg]
    rintro rfl
    exact hfar (neighborsIncluding_comm hd)
  · intro hx hz p state faces hdrawn q hq hfar
    obtain ⟨_, blockSection, _, _, hblock, _⟩ := hdrawn
    obtain ⟨hpx, _, hpz⟩ := block_local_lt hblock
    exact outside_cases hx hz hpx hpz ((asks_drawBlock _ _ _).of_asked q hq) hfar

end

/-! ### A lawn -/

/-- One face to a block, tinted like grass. -/
def grassModel : ModelApplication Unit Unit :=
  ⟨[⟨.up, #v[⟨F32.zero, F32.one, F32.zero⟩, ⟨F32.zero, F32.one, F32.one⟩,
    ⟨F32.one, F32.one, F32.one⟩, ⟨F32.one, F32.one, F32.zero⟩], some .up, .grass, ()⟩],
    0, 0, true, ()⟩

/-- A draft that counts faces. -/
def countingDraft : Draft Unit Unit Unit Unit Nat Unit where
  selectModels parts _ := parts.map fun _ => grassModel
  rotateDirection d _ _ := d
  rotateCorner corner _ _ := corner
  bannerPatternFaces _ _ := .ok []
  checkRoom _ := .ok ()
  pushFace faces _ _ _ _ _ _ := faces + 1
  topQuads _ _ _ _ := [()]
  sideQuads _ _ _ _ _ _ := [()]
  bottomQuad _ := ()
  pushQuad faces _ _ _ _ _ := faces + 1
  sideCovered _ _ _ _ := false
  ownHeight _ := F64.zero
  weightedFluidHeight _ := F64.zero
  maxHeight a _ := a
  brightness _ := F32.one
  maxBrightness a _ := a
  ambientOcclusionFactor _ _ _ := F32.one
  biomeColor _ biome _ _ := biome.waterColor

/-- State 1 is a grass block, all others are air. -/
def lawnResources (state : RuntimeBlockStateId) : BlockModels Unit :=
  if state = ⟨1⟩ then ⟨⟨[()], none⟩, false, false, false, .none⟩
  else ⟨⟨[], none⟩, false, false, false, .none⟩

def lawnGeometry : DimensionGeometry := ⟨0, 16⟩

def lawnSection : ChunkSection := ⟨4096, 0, .single ⟨1⟩ 4096, .single ⟨0⟩ 64⟩

def lawn (coordinate : ChunkCoordinate) : Chunk :=
  ⟨coordinate, [lawnSection], [], [], ⟨[], [], [], [], 0, 0, [], []⟩⟩

def oneLawn : LoadedChunks := OrderedMap.empty.insert ⟨0, 0⟩ (lawn ⟨0, 0⟩)

def diagonalLawns : LoadedChunks := OrderedMap.insert oneLawn ⟨1, 1⟩ (lawn ⟨1, 1⟩)

/-- A single chunk is meshed as against the whole world. -/
theorem snapshot_suffices_iff_oneLawn :
    meshAmong lawnResources countingDraft [] lawnGeometry ⟨0, 0⟩
        (WorldRenderer.snapshot oneLawn ⟨0, 0⟩) 0 =
      meshAmong lawnResources countingDraft [] lawnGeometry ⟨0, 0⟩ oneLawn 0 := by
  obtain ⟨_, hmesh, _⟩ := snapshot_suffices_iff lawnResources countingDraft [] lawnGeometry ⟨0, 0⟩
    (lawn ⟨0, 0⟩) oneLawn rfl
  apply hmesh
  intro p state faces _ q _ hfar
  apply answer_unloaded
  have hne : q.chunk ≠ ⟨0, 0⟩ := by
    intro heq
    exact hfar (heq ▸ self_mem_neighborsIncluding _)
  exact (OrderedMap.lookup_insert _ _ _ _).trans (if_neg hne)

/-- The blend at the corner of a chunk misses the biome on the diagonal. -/
theorem snapshot_misses_diagonal : ∃ p state faces,
    Drawn lawnResources lawnGeometry (lawn ⟨0, 0⟩) p state ∧
      ∃ q ∈ jobLookups lawnResources countingDraft [] lawnGeometry ⟨0, 0⟩ (lawn ⟨0, 0⟩)
          diagonalLawns p state faces,
        answer (WorldRenderer.snapshot diagonalLawns ⟨0, 0⟩) lawnGeometry q ≠
          answer diagonalLawns lawnGeometry q := by
  refine ⟨⟨0, 15, 0, 15⟩, ⟨1⟩, 0, ⟨rfl, lawnSection, rfl, by decide, by decide, rfl⟩,
    .biome ⟨16, 0, 16⟩, ?_, ?_⟩
  · decide +kernel
  · decide +kernel

end Cubic.Render
