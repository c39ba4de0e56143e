import Cubic.Render.Sufficiency
import Cubic.World.BlockEntities
import Cubic.World.BlockTable

/-!
# Chunks at the ends of the coordinates

What the renderer adds, subtracts and multiplies on account of a chunk, with every overflow
noticed: its neighbours when it is marked dirty and when its job is made, the positions of its
blocks and of all that drawing them looks up, and its middle when the meshes are sorted.
-/

namespace Cubic.Render

open World

set_option autoImplicit false

/-! ### Checked arithmetic -/

/-- `neighbors_including` -/
def checkedNeighborsIncluding (c : ChunkCoordinate) : Option (List ChunkCoordinate) := do
  let west ← checkedSubI32 c.x 1
  let east ← checkedAddI32 c.x 1
  let north ← checkedSubI32 c.z 1
  let south ← checkedAddI32 c.z 1
  some [c, ⟨west, c.z⟩, ⟨east, c.z⟩, ⟨c.x, north⟩, ⟨c.x, south⟩]

/-- The middle of a chunk along one axis: `coordinate * 16 + 8`. -/
def checkedMiddle (a : Int32) : Option Int32 := do
  let corner ← checkedMulI32 a 16
  checkedAddI32 corner 8

/-- The position of a block along one axis: the product saturates, the sum does not. -/
def checkedWorldAxis (a : Int32) (n : UInt8) : Option Int32 :=
  checkedAddI32 (saturatingMulI32 a 16) n.toNat.toInt32

def checkedWorldPosition (geometry : DimensionGeometry) (coordinate : ChunkCoordinate)
    (p : MeshPosition) : Option BlockCoordinates := do
  let x ← checkedWorldAxis coordinate.x p.x
  let bottom ← checkedAddI32 geometry.minY (saturatingMulI32 (i32OfLength p.sectionIndex) 16)
  let y ← checkedAddI32 bottom p.y.toNat.toInt32
  let z ← checkedWorldAxis coordinate.z p.z
  some ⟨x, y, z⟩

/-- The sums that lead from a block to what is looked up do not overflow. -/
def Exact (p : BlockCoordinates) (q : Lookup) : Prop :=
  (∃ dx ∈ reach, checkedAddI32 p.x dx = some q.position.x) ∧
    (∃ dy ∈ reach, checkedAddI32 p.y dy = some q.position.y) ∧
    ∃ dz ∈ reach, checkedAddI32 p.z dz = some q.position.z

instance (p : BlockCoordinates) (q : Lookup) : Decidable (Exact p q) :=
  inferInstanceAs (Decidable (_ ∧ _ ∧ _))

/-- How drawing with checks ends early. -/
inductive CheckedError (E : Type) where
  | overflow
  | drawing (e : E)

section
variable {Part FaceRest ModelRest Quad Faces E : Type}
  (resources : RuntimeBlockStateId → BlockModels Part)
  (draft : Draft Part FaceRest ModelRest Quad Faces E) (biomes : List RuntimeBiome)
  (geometry : DimensionGeometry) (coordinate : ChunkCoordinate)

/-- Drawing a block up to the first sum that overflows. -/
def checkedDrawAt (chunk : Chunk) (chunks : LoadedChunks) (p : MeshPosition)
    (state : RuntimeBlockStateId) (faces : Faces) : Except (CheckedError E) Faces :=
  match checkedWorldPosition geometry coordinate p with
  | none => .error .overflow
  | some position =>
    let drawing := (drawBlock resources draft biomes position state
      (bannerPatterns chunk p position.y) faces).run
    if ∀ q ∈ drawing.asked (answer chunks geometry), Exact position q then
      (drawing.run (answer chunks geometry)).mapError .drawing
    else .error .overflow

/-- `meshAmong` with checks. -/
def checkedMeshAmong (chunks : LoadedChunks) (empty : Faces) :
    Except (MeshError (CheckedError E)) (ChunkMesh Faces) :=
  match chunks.get coordinate with
  | none => .ok ⟨empty, ⟨0, 0, 0⟩⟩
  | some chunk =>
    meshChunk (fun state => (resources state).toStateModels)
      (checkedDrawAt resources draft biomes geometry coordinate chunk chunks) coordinate chunks
      geometry empty

end

/-- Nothing overflows while the renderer has the chunk, whatever it is drawn with. -/
structure LoadsInRange (chunk : Chunk) : Prop where
  neighbors : (checkedNeighborsIncluding chunk.coordinate).isSome
  mesh : ∀ {Part FaceRest ModelRest Quad Faces E : Type}
    (resources : RuntimeBlockStateId → BlockModels Part)
    (draft : Draft Part FaceRest ModelRest Quad Faces E) (biomes : List RuntimeBiome)
    (geometry : DimensionGeometry) (chunks : LoadedChunks) (empty : Faces),
    validateDimensionGeometry geometry = .ok () → chunks.get chunk.coordinate = some chunk →
      checkedMeshAmong resources draft biomes geometry chunk.coordinate chunks empty ≠
        .error (.drawing .overflow)
  sort : ∀ {Part FaceRest ModelRest Quad Faces E : Type}
    (resources : RuntimeBlockStateId → BlockModels Part)
    (draft : Draft Part FaceRest ModelRest Quad Faces E) (biomes : List RuntimeBiome)
    (geometry : DimensionGeometry) (chunks : LoadedChunks) (empty : Faces)
    (mesh : ChunkMesh Faces),
    validateDimensionGeometry geometry = .ok () → chunks.get chunk.coordinate = some chunk →
      meshAmong resources draft biomes geometry chunk.coordinate chunks empty = .ok mesh →
      mesh.faces ≠ empty →
        (checkedMiddle chunk.coordinate.x).isSome ∧ (checkedMiddle chunk.coordinate.z).isSome

/-! ### What does not overflow is as before -/

theorem eq_add_of_checked {a b c : Int32} (h : checkedAddI32 a b = some c) : c = a + b := by
  unfold checkedAddI32 at h
  split at h
  · exact (Option.some.inj h).symm
  · cases h

theorem eq_sub_of_checked {a b c : Int32} (h : checkedSubI32 a b = some c) : c = a - b := by
  unfold checkedSubI32 at h
  split at h
  · exact (Option.some.inj h).symm
  · cases h

theorem checkedNeighborsIncluding_eq {c : ChunkCoordinate} {cs : List ChunkCoordinate}
    (h : checkedNeighborsIncluding c = some cs) : cs = neighborsIncluding c := by
  obtain ⟨west, hwest, h⟩ := Option.bind_eq_some_iff.mp h
  obtain ⟨east, heast, h⟩ := Option.bind_eq_some_iff.mp h
  obtain ⟨north, hnorth, h⟩ := Option.bind_eq_some_iff.mp h
  obtain ⟨south, hsouth, h⟩ := Option.bind_eq_some_iff.mp h
  cases h
  rw [eq_sub_of_checked hwest, eq_add_of_checked heast, eq_sub_of_checked hnorth,
    eq_add_of_checked hsouth]
  rfl

theorem checkedWorldPosition_eq_some {geometry : DimensionGeometry} {c : ChunkCoordinate}
    {p : MeshPosition} {position : BlockCoordinates}
    (h : checkedWorldPosition geometry c p = some position) :
    checkedWorldAxis c.x p.x = some position.x ∧ checkedWorldAxis c.z p.z = some position.z ∧
      position = worldPosition geometry c p := by
  obtain ⟨x, hx, h⟩ := Option.bind_eq_some_iff.mp h
  obtain ⟨bottom, hbottom, h⟩ := Option.bind_eq_some_iff.mp h
  obtain ⟨y, hy, h⟩ := Option.bind_eq_some_iff.mp h
  obtain ⟨z, hz, h⟩ := Option.bind_eq_some_iff.mp h
  cases h
  refine ⟨hx, hz, ?_⟩
  rw [eq_add_of_checked hx, eq_add_of_checked hy, eq_add_of_checked hbottom,
    eq_add_of_checked hz]
  rfl

/-- Drawing with checks does the same as without, unless it overflows. -/
theorem checkedDrawAt_eq {Part FaceRest ModelRest Quad Faces E : Type}
    {resources : RuntimeBlockStateId → BlockModels Part}
    {draft : Draft Part FaceRest ModelRest Quad Faces E} {biomes : List RuntimeBiome}
    {geometry : DimensionGeometry} {c : ChunkCoordinate} {chunk : Chunk} {chunks : LoadedChunks}
    {p : MeshPosition} {state : RuntimeBlockStateId} {faces : Faces}
    (h : checkedDrawAt resources draft biomes geometry c chunk chunks p state faces ≠
      .error .overflow) :
    checkedDrawAt resources draft biomes geometry c chunk chunks p state faces =
      ((drawAt resources draft biomes geometry c chunk p state faces).run
        (answer chunks geometry)).mapError .drawing := by
  unfold checkedDrawAt at h ⊢
  cases hposition : checkedWorldPosition geometry c p with
  | none =>
    rw [hposition] at h
    exact absurd rfl h
  | some position =>
    rw [hposition] at h
    dsimp only at h ⊢
    obtain ⟨-, -, rfl⟩ := checkedWorldPosition_eq_some hposition
    split at h
    · rename_i hexact
      exact if_pos hexact
    · exact absurd rfl h

/-! ### Within the range -/

/-- Two blocks from either end. -/
def Roomy (a : Int32) : Prop := -2 ^ 31 + 2 ≤ a.toInt ∧ a.toInt < 2 ^ 31 - 2

theorem checkedAdd_of_roomy {a d : Int32} (h : Roomy a) (hd : d ∈ reach) :
    checkedAddI32 a d = some (a + d) := by
  obtain ⟨hlow, hhigh⟩ := h
  have hbound := toInt_reach hd
  rw [checkedAddI32_eq_some, Int32.toInt_add]
  apply Int.bmod_eq_of_le <;> omega

theorem exact_of_around {p : BlockCoordinates} (hx : Roomy p.x) (hy : Roomy p.y) (hz : Roomy p.z)
    {q : Lookup} (h : Around p q) : Exact p q := by
  obtain ⟨dx, hdx, dy, hdy, dz, hdz, hq⟩ := h
  unfold Exact
  rw [hq]
  exact ⟨⟨dx, hdx, checkedAdd_of_roomy hx hdx⟩, ⟨dy, hdy, checkedAdd_of_roomy hy hdy⟩,
    dz, hdz, checkedAdd_of_roomy hz hdz⟩

theorem checkedWorldAxis_of_inRange {a : Int32} (h : InRange a) {n : UInt8} (hn : n.toNat < 16) :
    ∃ w, checkedWorldAxis a n = some w ∧ Roomy w := by
  have hbase := toInt_saturatingMul_sixteen a
  have hlocal := toInt_local hn
  have hsum := toInt_worldAxis h hn (show (0 : Int32) ∈ reach by decide)
  rw [Int32.add_zero] at hsum
  have hzero : (0 : Int32).toInt = 0 := rfl
  obtain ⟨hlow, hhigh⟩ := h
  refine ⟨saturatingMulI32 a 16 + n.toNat.toInt32, ?_, ?_⟩
  · unfold checkedWorldAxis
    rw [checkedAddI32_eq_some, hsum, hbase, hlocal, hzero]
    omega
  · unfold Roomy
    omega

theorem checkedHeight_of_valid {geometry : DimensionGeometry} (hvalid : geometry.Valid)
    {i : Nat} (hi : i < geometry.sectionCount) {n : UInt8} (hn : n.toNat < 16) :
    ∃ bottom y, checkedAddI32 geometry.minY (saturatingMulI32 (i32OfLength i) 16) = some bottom ∧
      checkedAddI32 bottom n.toNat.toInt32 = some y ∧ Roomy y := by
  have hlow := hvalid.bottom
  have hhigh := hvalid.top
  unfold DimensionGeometry.sectionCount at hi
  have hindex : (i32OfLength i).toInt = i := by
    unfold i32OfLength i32Max
    rw [Int32.toInt_ofInt_of_le] <;> omega
  have hbase := toInt_saturatingMul_sixteen (i32OfLength i)
  have hlocal := toInt_local hn
  have hbottom : (geometry.minY + saturatingMulI32 (i32OfLength i) 16).toInt =
      geometry.minY.toInt + i * 16 := by
    rw [Int32.toInt_add, hbase, hindex, min_eq_left (by omega), max_eq_right (by omega)]
    apply Int.bmod_eq_of_le <;> omega
  have hy : (geometry.minY + saturatingMulI32 (i32OfLength i) 16 + n.toNat.toInt32).toInt =
      geometry.minY.toInt + i * 16 + n.toNat := by
    rw [Int32.toInt_add, hbottom, hlocal]
    apply Int.bmod_eq_of_le <;> omega
  have hbottom' : (geometry.minY + saturatingMulI32 (i32OfLength i) 16).toInt =
      geometry.minY.toInt + (saturatingMulI32 (i32OfLength i) 16).toInt := by
    omega
  have hy' : (geometry.minY + saturatingMulI32 (i32OfLength i) 16 + n.toNat.toInt32).toInt =
      (geometry.minY + saturatingMulI32 (i32OfLength i) 16).toInt + n.toNat.toInt32.toInt := by
    omega
  have hroomy : Roomy (geometry.minY + saturatingMulI32 (i32OfLength i) 16 + n.toNat.toInt32) := by
    unfold Roomy
    omega
  exact ⟨_, _, checkedAddI32_eq_some.mpr hbottom', checkedAddI32_eq_some.mpr hy', hroomy⟩

section
variable {Part FaceRest ModelRest Quad Faces E : Type}
  {resources : RuntimeBlockStateId → BlockModels Part}
  {draft : Draft Part FaceRest ModelRest Quad Faces E} {biomes : List RuntimeBiome}
  {geometry : DimensionGeometry} {c : ChunkCoordinate} {chunk : Chunk} {chunks : LoadedChunks}

/-- Drawing a block of a chunk within the range does not overflow. -/
theorem checkedDrawAt_ne_overflow (hx : InRange c.x) (hz : InRange c.z) (hvalid : geometry.Valid)
    {p : MeshPosition} (hsection : p.sectionIndex < geometry.sectionCount)
    (hp : p.x.toNat < 16 ∧ p.y.toNat < 16 ∧ p.z.toNat < 16) (state : RuntimeBlockStateId)
    (faces : Faces) :
    checkedDrawAt resources draft biomes geometry c chunk chunks p state faces ≠
      .error .overflow := by
  obtain ⟨x, hxsum, hxroom⟩ := checkedWorldAxis_of_inRange hx hp.1
  obtain ⟨z, hzsum, hzroom⟩ := checkedWorldAxis_of_inRange hz hp.2.2
  obtain ⟨bottom, y, hbottom, hysum, hyroom⟩ := checkedHeight_of_valid hvalid hsection hp.2.1
  have hposition : checkedWorldPosition geometry c p = some ⟨x, y, z⟩ := by
    unfold checkedWorldPosition
    simp only [hxsum, hbottom, hysum, hzsum, Option.bind_eq_bind, Option.bind_some]
  have hexact : ∀ q ∈ (drawBlock resources draft biomes ⟨x, y, z⟩ state
      (bannerPatterns chunk p y) faces).run.asked (answer chunks geometry),
      Exact ⟨x, y, z⟩ q := fun q hq =>
    exact_of_around hxroom hyroom hzroom ((asks_drawBlock_around _ _ _).of_asked q hq)
  unfold checkedDrawAt
  rw [hposition]
  dsimp only
  rw [if_pos hexact]
  cases Query.run (answer chunks geometry) (drawBlock resources draft biomes ⟨x, y, z⟩ state
    (bannerPatterns chunk p y) faces).run with
  | ok faces' => exact fun h => by cases h
  | error e => exact fun h => by cases h

end

/-! ### Where an error comes from -/

theorem mapError_eq_error {α ε ε' : Type} {r : Except ε α} {g : ε → ε'} {e' : ε'}
    (h : r.mapError g = .error e') : ∃ e, r = .error e ∧ g e = e' := by
  cases r with
  | ok a => cases h
  | error e =>
    cases h
    exact ⟨e, rfl, rfl⟩

theorem foldlM_eq_error {α β ε : Type} {f : β → α → Except ε β} {xs : List α} {e : ε} :
    ∀ {b : β}, xs.foldlM f b = .error e → ∃ x ∈ xs, ∃ b', f b' x = .error e := by
  induction xs with
  | nil =>
    intro b h
    cases h
  | cons x rest ih =>
    intro b h
    rw [List.foldlM_cons] at h
    cases hfirst : f b x with
    | error e' =>
      rw [hfirst] at h
      cases h
      exact ⟨x, List.mem_cons_self, b, hfirst⟩
    | ok b' =>
      rw [hfirst] at h
      obtain ⟨y, hy, b'', herr⟩ := ih h
      exact ⟨y, List.mem_cons_of_mem x hy, b'', herr⟩

/-- If no step fails in another way, one that fails whatever came before fails the fold. -/
theorem foldlM_eq_error_of_mem {α β ε : Type} {f : β → α → Except ε β} {xs : List α} {e : ε}
    (hall : ∀ x b, f b x = .error e ∨ ∃ b', f b x = .ok b') {x : α} (hx : x ∈ xs)
    (herr : ∀ b, f b x = .error e) : ∀ b, xs.foldlM f b = .error e := by
  induction xs with
  | nil => exact absurd hx List.not_mem_nil
  | cons y rest ih =>
    intro b
    rw [List.foldlM_cons]
    rcases List.mem_cons.mp hx with rfl | hx
    · rw [herr]
      rfl
    · rcases hall y b with hy | ⟨b', hy⟩
      · rw [hy]
        rfl
      · rw [hy]
        exact ih hx b'

theorem foldlM_cases {α β ε : Type} {f : β → α → Except ε β} {xs : List α} {e : ε}
    (hall : ∀ x b, f b x = .error e ∨ ∃ b', f b x = .ok b') :
    ∀ b, xs.foldlM f b = .error e ∨ ∃ b', xs.foldlM f b = .ok b' := by
  induction xs with
  | nil => exact fun b => .inr ⟨b, rfl⟩
  | cons x rest ih =>
    intro b
    rw [List.foldlM_cons]
    rcases hall x b with hx | ⟨b', hx⟩
    · rw [hx]
      exact .inl rfl
    · rw [hx]
      exact ih b'

section
variable {Part Fluid Faces E : Type} {models : RuntimeBlockStateId → StateModels Part Fluid}
  {draw : MeshPosition → RuntimeBlockStateId → Faces → Except E Faces} {e : E}

theorem meshPosition_eq_error {blockSection : ChunkSection} {mesh : ChunkMesh Faces}
    {p : MeshPosition} (h : meshPosition models draw blockSection mesh p = .error e) :
    ∃ state, blockSection.block p.x p.y p.z = some state ∧ draw p state mesh.faces = .error e := by
  unfold meshPosition at h
  cases hblock : blockSection.block p.x p.y p.z with
  | none =>
    rw [hblock] at h
    cases h
  | some state =>
    rw [hblock] at h
    dsimp only at h
    split at h
    · cases h
    · refine ⟨state, rfl, ?_⟩
      cases hdraw : draw p state mesh.faces with
      | ok faces =>
        rw [hdraw] at h
        cases h
      | error e' =>
        rw [hdraw] at h
        cases h
        rfl

/-- An error of the mesher is one of drawing a block in a section that counts blocks. -/
theorem meshSections_eq_error {sections : List ChunkSection} : ∀ {first : Nat}
    {mesh : ChunkMesh Faces}, meshSections models draw true first sections mesh = .error e →
    ∃ i blockSection p state faces, sections[i]? = some blockSection ∧
      p.sectionIndex = first + i ∧ blockSection.nonEmptyBlockCount ≠ 0 ∧
      blockSection.block p.x p.y p.z = some state ∧ draw p state faces = .error e := by
  induction sections with
  | nil =>
    intro first mesh h
    cases h
  | cons blockSection rest ih =>
    intro first mesh h
    unfold meshSections at h
    cases hsection : meshSection models draw true first blockSection mesh with
    | ok next =>
      rw [hsection] at h
      obtain ⟨i, blockSection', p, state, faces, hi, hp, hrest⟩ := ih h
      exact ⟨i + 1, blockSection', p, state, faces, hi, by omega, hrest⟩
    | error e' =>
      rw [hsection] at h
      cases h
      unfold meshSection at hsection
      split at hsection
      · cases hsection
      · rename_i hskip
        obtain ⟨p, hp, mesh', herr⟩ := foldlM_eq_error hsection
        obtain ⟨state, hblock, hdraw⟩ := meshPosition_eq_error herr
        refine ⟨0, blockSection, p, state, mesh'.faces, rfl, sectionIndex_of_mem hp, ?_, hblock,
          hdraw⟩
        rw [Bool.true_and, decide_eq_true_iff] at hskip
        exact hskip

/-- Sections that count no blocks are skipped. -/
theorem meshSections_uncounted {sections : List ChunkSection} : ∀ {first : Nat}
    {mesh : ChunkMesh Faces}, (∀ s ∈ sections, s.nonEmptyBlockCount = 0) →
      meshSections models draw true first sections mesh = .ok mesh := by
  induction sections with
  | nil => exact fun _ => rfl
  | cons blockSection rest ih =>
    intro first mesh h
    obtain ⟨hcount, hrest⟩ := List.forall_mem_cons.mp h
    unfold meshSections meshSection
    rw [Bool.true_and, if_pos (decide_eq_true hcount)]
    exact ih hrest

/-- The other way round: an error that no other one can forestall. -/
theorem meshSections_eq_error_of_mem
    (hall : ∀ p state faces, draw p state faces = .error e ∨ ∃ faces', draw p state faces = .ok faces')
    {p : MeshPosition} {state : RuntimeBlockStateId} {i : Nat}
    (herr : ∀ faces, draw p state faces = .error e) (hdrawn : (models state).isBlank = false)
    {sections : List ChunkSection} : ∀ {first j : Nat} {blockSection : ChunkSection}
    {mesh : ChunkMesh Faces}, sections[j]? = some blockSection → first + j = i →
      p ∈ sectionPositions i → blockSection.nonEmptyBlockCount ≠ 0 →
      blockSection.block p.x p.y p.z = some state →
        meshSections models draw true first sections mesh = .error e := by
  have hposition : ∀ (s : ChunkSection) (q : MeshPosition) (mesh : ChunkMesh Faces),
      meshPosition models draw s mesh q = .error e ∨
        ∃ next, meshPosition models draw s mesh q = .ok next := by
    intro s q mesh
    unfold meshPosition
    cases s.block q.x q.y q.z with
    | none => exact .inr ⟨_, rfl⟩
    | some state' =>
      dsimp only
      split
      · exact .inr ⟨_, rfl⟩
      · rcases hall q state' mesh.faces with h | ⟨faces', h⟩
        · rw [h]
          exact .inl rfl
        · rw [h]
          exact .inr ⟨_, rfl⟩
  induction sections with
  | nil =>
    intro first j blockSection mesh hj
    cases hj
  | cons s rest ih =>
    intro first j blockSection mesh hj hi hp hcount hblock
    unfold meshSections
    cases j with
    | zero =>
      cases hj
      have hsection : meshSection models draw true first s mesh = .error e := by
        unfold meshSection
        rw [Bool.true_and, if_neg fun h => hcount (of_decide_eq_true h)]
        refine foldlM_eq_error_of_mem (fun q m => hposition s q m) (hi ▸ hp) ?_ mesh
        intro m
        unfold meshPosition
        rw [hblock]
        dsimp only
        rw [if_neg (by rw [hdrawn]; exact Bool.false_ne_true), herr]
        rfl
      rw [hsection]
      rfl
    | succ j =>
      have hsection : meshSection models draw true first s mesh = .error e ∨
          ∃ next, meshSection models draw true first s mesh = .ok next := by
        unfold meshSection
        split
        · exact .inr ⟨_, rfl⟩
        · exact foldlM_cases (fun q m => hposition s q m) mesh
      rcases hsection with h | ⟨next, h⟩
      · rw [h]
        rfl
      · rw [h]
        exact ih hj (by omega) hp hcount hblock

end

/-! ### At the ends -/

/-- Every block is a full opaque cube. -/
def opaqueCubes (_ : RuntimeBlockStateId) : BlockModels Unit where
  parts := [()]
  fluid := none
  fullOpaqueCube := true
  fluidSurfaceSolid := false
  emissive := false
  modelOffset := .none

/-- Nothing comes of what is drawn. -/
def blankDraft : Draft Unit Unit Unit Unit Unit Unit where
  selectModels _ _ := []
  rotateDirection d _ _ := d
  rotateCorner corner _ _ := corner
  bannerPatternFaces _ _ := .ok []
  checkRoom _ := .ok ()
  pushFace _ _ _ _ _ _ _ := ()
  topQuads _ _ _ _ := []
  sideQuads _ _ _ _ _ _ := []
  bottomQuad _ := ()
  pushQuad _ _ _ _ _ _ := ()
  sideCovered _ _ _ _ := false
  ownHeight _ := F64.zero
  weightedFluidHeight _ := F64.zero
  maxHeight a _ := a
  brightness _ := F32.zero
  maxBrightness a _ := a
  ambientOcclusionFactor _ _ _ := F32.zero
  biomeColor _ _ _ _ := 0

section
variable {biomes : List RuntimeBiome} {geometry : DimensionGeometry} {c : ChunkCoordinate}
  {chunk : Chunk} {chunks : LoadedChunks}

theorem run_drawBlock_cubes (position : BlockCoordinates) (state : RuntimeBlockStateId)
    (patterns : Option (List BannerPatternLayer)) (faces : Unit) :
    (drawBlock opaqueCubes blankDraft biomes position state patterns faces).run.run
      (answer chunks geometry) = .ok () := by
  unfold drawBlock
  dsimp only
  rw [ExceptT.run_bind_lift, Query.run_bind]
  generalize Query.run (answer chunks geometry) (if (opaqueCubes state).fullOpaqueCube = true then
    some <$> List.mapM (neighborFullyOccludes opaqueCubes position) Direction.all
    else pure none) = occlusion
  split
  · rfl
  · rfl

/-- A cube looks at all its neighbours. -/
theorem mem_asked_drawBlock_cubes (d : Direction) (position : BlockCoordinates)
    (state : RuntimeBlockStateId) (patterns : Option (List BannerPatternLayer)) (faces : Unit) :
    Lookup.block (d.neighbor position) ∈
      (drawBlock opaqueCubes blankDraft biomes position state patterns faces).run.asked
        (answer chunks geometry) := by
  have hall : d ∈ Direction.all := by cases d <;> decide
  unfold drawBlock
  dsimp only
  rw [ExceptT.run_bind_lift]
  apply Query.mem_asked_bind
  apply Query.mem_asked_bind
  exact Query.mem_asked_mapM hall List.mem_cons_self

theorem checkedDrawAt_cubes (p : MeshPosition) (state : RuntimeBlockStateId) (faces : Unit) :
    checkedDrawAt opaqueCubes blankDraft biomes geometry c chunk chunks p state faces =
        .error .overflow ∨
      ∃ faces', checkedDrawAt opaqueCubes blankDraft biomes geometry c chunk chunks p state faces =
        .ok faces' := by
  unfold checkedDrawAt
  cases checkedWorldPosition geometry c p with
  | none => exact .inl rfl
  | some position =>
    dsimp only
    split
    · rw [run_drawBlock_cubes]
      exact .inr ⟨_, rfl⟩
    · exact .inl rfl

/-- A neighbour whose position overflows fails the drawing. -/
theorem checkedDrawAt_cubes_overflow {p : MeshPosition} (d : Direction)
    (h : ∀ position, checkedWorldPosition geometry c p = some position →
      ¬ Exact position (.block (d.neighbor position))) (state : RuntimeBlockStateId)
    (faces : Unit) :
    checkedDrawAt opaqueCubes blankDraft biomes geometry c chunk chunks p state faces =
      .error .overflow := by
  unfold checkedDrawAt
  cases hposition : checkedWorldPosition geometry c p with
  | none => rfl
  | some position =>
    dsimp only
    rw [if_neg]
    intro hall
    exact h position hposition (hall _ (mem_asked_drawBlock_cubes d position state _ faces))

end

/-- A step over either end of the coordinates. -/
def StepsOver (w d : Int32) : Prop :=
  w.toInt = -2 ^ 31 ∧ d = -1 ∨ w.toInt = 2 ^ 31 - 1 ∧ d = 1

theorem StepsOver.not_exact {w d : Int32} (h : StepsOver w d) :
    ¬ ∃ e ∈ reach, checkedAddI32 w e = some (w + d) := by
  rintro ⟨e, he, hadd⟩
  have hbound := toInt_reach he
  rw [checkedAddI32_eq_some] at hadd
  have hlow := (w + d).le_toInt
  have hhigh := (w + d).toInt_lt
  rcases h with ⟨hw, rfl⟩ | ⟨hw, rfl⟩
  · have hwrapped : w + -1 = Int32.maxValue := by
      rw [show w = Int32.minValue from Int32.toInt_inj.mp hw]
      decide
    have hmax : Int32.maxValue.toInt = 2 ^ 31 - 1 := rfl
    rw [hwrapped] at hadd
    omega
  · have hwrapped : w + 1 = Int32.minValue := by
      rw [show w = Int32.maxValue from Int32.toInt_inj.mp hw]
      decide
    have hmin : Int32.minValue.toInt = -2 ^ 31 := rfl
    rw [hwrapped] at hadd
    omega

/-- Outside the range, a block on one side of a chunk has a neighbour over the end. -/
theorem exists_stepsOver {a : Int32} (h : ¬ InRange a) : ∃ n : UInt8, n.toNat < 16 ∧
    ∃ d : Int32, (d = -1 ∨ d = 1) ∧ ∀ w, checkedWorldAxis a n = some w → StepsOver w d := by
  have hbase := toInt_saturatingMul_sixteen a
  have hlow := a.le_toInt
  have hhigh := a.toInt_lt
  unfold InRange at h
  by_cases hend : a.toInt ≤ -2 ^ 27
  · refine ⟨0, by decide, -1, .inl rfl, fun w hw => .inl ⟨?_, rfl⟩⟩
    have hlocal : (UInt8.toNat 0).toInt32.toInt = 0 := rfl
    unfold checkedWorldAxis at hw
    rw [checkedAddI32_eq_some, hbase, hlocal] at hw
    omega
  · refine ⟨15, by decide, 1, .inr rfl, fun w hw => .inr ⟨?_, rfl⟩⟩
    have hlocal : (UInt8.toNat 15).toInt32.toInt = 15 := rfl
    have hlt := w.toInt_lt
    unfold checkedWorldAxis at hw
    rw [checkedAddI32_eq_some, hbase, hlocal] at hw
    omega

/-- Outside the range, some place of a chunk has a neighbour whose position overflows. -/
theorem exists_overflowing {c : ChunkCoordinate} (h : ¬ (InRange c.x ∧ InRange c.z)) :
    ∃ x z : UInt8, x.toNat < 16 ∧ z.toNat < 16 ∧ ∃ d : Direction,
      ∀ (geometry : DimensionGeometry) (i : Nat) (position : BlockCoordinates),
        checkedWorldPosition geometry c ⟨i, x, 0, z⟩ = some position →
          ¬ Exact position (.block (d.neighbor position)) := by
  by_cases hx : InRange c.x
  · obtain ⟨n, hn, step, hstep, hover⟩ := exists_stepsOver fun hz => h ⟨hx, hz⟩
    rcases hstep with rfl | rfl
    · refine ⟨0, n, by decide, hn, .north, fun geometry i position hposition hexact => ?_⟩
      exact (hover _ (checkedWorldPosition_eq_some hposition).2.1).not_exact hexact.2.2
    · refine ⟨0, n, by decide, hn, .south, fun geometry i position hposition hexact => ?_⟩
      exact (hover _ (checkedWorldPosition_eq_some hposition).2.1).not_exact hexact.2.2
  · obtain ⟨n, hn, step, hstep, hover⟩ := exists_stepsOver hx
    rcases hstep with rfl | rfl
    · refine ⟨n, 0, hn, by decide, .west, fun geometry i position hposition hexact => ?_⟩
      exact (hover _ (checkedWorldPosition_eq_some hposition).1).not_exact hexact.1
    · refine ⟨n, 0, hn, by decide, .east, fun geometry i position hposition hexact => ?_⟩
      exact (hover _ (checkedWorldPosition_eq_some hposition).1).not_exact hexact.1

theorem mem_sectionPositions {i : Nat} {x y z : UInt8} (hx : x.toNat < 16) (hy : y.toNat < 16)
    (hz : z.toNat < 16) : (⟨i, x, y, z⟩ : MeshPosition) ∈ sectionPositions i := by
  unfold sectionPositions
  refine List.mem_flatMap.mpr ⟨y.toNat, List.mem_range.mpr hy, ?_⟩
  refine List.mem_flatMap.mpr ⟨z.toNat, List.mem_range.mpr hz, ?_⟩
  refine List.mem_map.mpr ⟨x.toNat, List.mem_range.mpr hx, ?_⟩
  rw [UInt8.ofNat_toNat, UInt8.ofNat_toNat, UInt8.ofNat_toNat]

theorem exists_block_of_readable {chunk : Chunk} (h : chunk.Readable) {s : ChunkSection}
    (hs : s ∈ chunk.sections) {x y z : UInt8} (hx : x.toNat < 16) (hy : y.toNat < 16)
    (hz : z.toNat < 16) : ∃ state, s.block x y z = some state := by
  obtain ⟨hindex, hlt⟩ := sectionIndex_of_lt hx hy hz (Nat.le_refl 16)
  have hsome := (h s hs).2 _ hlt
  obtain ⟨state, hstate⟩ := Option.isSome_iff_exists.mp hsome
  refine ⟨state, ?_⟩
  unfold ChunkSection.block
  rw [hindex]
  exact hstate

/-! ### Loading -/

/-- One of the two last coordinates. -/
def AtEnd (a : Int32) : Prop := a.toInt = -2 ^ 31 ∨ a.toInt = 2 ^ 31 - 1

theorem checkedNeighborsIncluding_isSome (c : ChunkCoordinate) :
    (checkedNeighborsIncluding c).isSome ↔ ¬ AtEnd c.x ∧ ¬ AtEnd c.z := by
  have hstep : ∀ a : Int32, ¬ AtEnd a ↔
      (∃ b, checkedSubI32 a 1 = some b) ∧ ∃ b, checkedAddI32 a 1 = some b := by
    intro a
    have hlow := a.le_toInt
    have hhigh := a.toInt_lt
    have hone : (1 : Int32).toInt = 1 := rfl
    simp only [checkedSubI32_eq_some, checkedAddI32_eq_some, hone]
    unfold AtEnd
    constructor
    · intro hend
      exact ⟨⟨.ofInt (a.toInt - 1), Int32.toInt_ofInt_of_le (by omega) (by omega)⟩,
        .ofInt (a.toInt + 1), Int32.toInt_ofInt_of_le (by omega) (by omega)⟩
    · rintro ⟨⟨b, hb⟩, b', hb'⟩
      have hblow := b.le_toInt
      have hbhigh := b'.toInt_lt
      omega
  rw [hstep, hstep, Option.isSome_iff_exists]
  constructor
  · rintro ⟨cs, h⟩
    obtain ⟨west, hwest, h⟩ := Option.bind_eq_some_iff.mp h
    obtain ⟨east, heast, h⟩ := Option.bind_eq_some_iff.mp h
    obtain ⟨north, hnorth, h⟩ := Option.bind_eq_some_iff.mp h
    obtain ⟨south, hsouth, h⟩ := Option.bind_eq_some_iff.mp h
    exact ⟨⟨⟨west, hwest⟩, east, heast⟩, ⟨north, hnorth⟩, south, hsouth⟩
  · rintro ⟨⟨⟨west, hwest⟩, east, heast⟩, ⟨north, hnorth⟩, south, hsouth⟩
    refine ⟨[c, ⟨west, c.z⟩, ⟨east, c.z⟩, ⟨c.x, north⟩, ⟨c.x, south⟩], ?_⟩
    unfold checkedNeighborsIncluding
    simp only [hwest, heast, hnorth, hsouth, Option.bind_eq_bind, Option.bind_some]

theorem checkedMiddle_isSome {a : Int32} (h : InRange a) : (checkedMiddle a).isSome := by
  obtain ⟨hlow, hhigh⟩ := h
  have hsixteen : (16 : Int32).toInt = 16 := rfl
  have height : (8 : Int32).toInt = 8 := rfl
  have hcorner : checkedMulI32 a 16 = some (.ofInt (a.toInt * 16)) := by
    rw [checkedMulI32_eq_some, hsixteen]
    apply Int32.toInt_ofInt_of_le <;> omega
  have hmiddle : checkedAddI32 (.ofInt (a.toInt * 16)) 8 = some (.ofInt (a.toInt * 16 + 8)) := by
    rw [checkedAddI32_eq_some, Int32.toInt_ofInt_of_le (by omega) (by omega),
      Int32.toInt_ofInt_of_le (by omega) (by omega), height]
  unfold checkedMiddle
  rw [hcorner, Option.bind_eq_bind, Option.bind_some, hmiddle]
  rfl

/-- A geometry with as many sections as a chunk can have. -/
def geometryOf (sections : Nat) : DimensionGeometry := ⟨-2032, .ofNat (16 * sections)⟩

theorem geometryOf_valid {n : Nat} (hpos : 0 < n) (hmax : n ≤ maxChunkSections) :
    validateDimensionGeometry (geometryOf n) = .ok () ∧ (geometryOf n).sectionCount = n := by
  unfold maxChunkSections at hmax
  have hheight : (UInt32.ofNat (16 * n)).toNat = 16 * n := by
    apply UInt32.toNat_ofNat_of_lt'
    unfold UInt32.size
    omega
  have hbottom : (-2032 : Int32).toInt = -2032 := rfl
  refine ⟨if_neg ?_, ?_⟩
  · unfold geometryOf
    rw [UInt32.lt_iff_toNat_lt, UInt32.lt_iff_toNat_lt, ← UInt32.toNat_inj.ne, UInt32.toNat_mod,
      hheight, hbottom]
    rintro (h | h | h | h | h | h)
    · change 16 * n < 16 at h
      omega
    · change 4064 < 16 * n at h
      omega
    · exact h (Nat.mul_mod_right 16 n)
    · change remEuclid (-2032) 16 ≠ 0 at h
      exact h (by decide)
    · change (-2032 : Int32) < -2032 at h
      exact absurd h (by decide)
    · omega
  · unfold DimensionGeometry.sectionCount geometryOf
    rw [hheight]
    omega

variable {layout : NbtLayout} {payload : Bytes} {chunk : Chunk}

/-- A chunk with counted blocks outside the range overflows when it is meshed. -/
theorem checkedMeshAmong_overflow (h : receiveLevelChunk layout payload = some chunk)
    (hcounted : ∃ s ∈ chunk.sections, s.nonEmptyBlockCount ≠ 0)
    (hout : ¬ (InRange chunk.coordinate.x ∧ InRange chunk.coordinate.z)) :
    ∃ geometry, validateDimensionGeometry geometry = .ok () ∧
      checkedMeshAmong opaqueCubes blankDraft [] geometry chunk.coordinate
        (OrderedMap.empty.insert chunk.coordinate chunk) () = .error (.drawing .overflow) := by
  obtain ⟨s, hs, hcount⟩ := hcounted
  obtain ⟨i, hi, hsection⟩ := List.getElem_of_mem hs
  obtain ⟨x, z, hx, hz, d, hover⟩ := exists_overflowing hout
  obtain ⟨state, hblock⟩ := exists_block_of_readable (readable_receiveLevelChunk h) hs hx
    (show (0 : UInt8).toNat < 16 by decide) hz
  obtain ⟨hgeometry, hlength⟩ := geometryOf_valid (Nat.zero_lt_of_lt hi)
    (sections_receiveLevelChunk h)
  have hchunk : LoadedChunks.get (OrderedMap.empty.insert chunk.coordinate chunk)
      chunk.coordinate = some chunk := by
    unfold LoadedChunks.get
    rw [OrderedMap.lookup_insert, if_pos rfl]
  refine ⟨geometryOf chunk.sections.length, hgeometry, ?_⟩
  unfold checkedMeshAmong
  rw [hchunk]
  unfold meshChunk meshChunkWith
  rw [hchunk]
  dsimp only
  rw [if_neg (not_not.mpr hlength.symm)]
  rw [meshSections_eq_error_of_mem (fun p state faces => checkedDrawAt_cubes p state faces)
    (fun faces => checkedDrawAt_cubes_overflow d (hover _ i) state faces) rfl
    ((List.getElem?_eq_getElem hi).trans (congrArg some hsection)) (Nat.zero_add i)
    (mem_sectionPositions hx (by decide) hz) hcount hblock]
  rfl

/-- Loading a chunk overflows nowhere exactly if it is not at the very end of the coordinates and,
in case it counts blocks, all of them are two blocks away from the end. -/
theorem loadsInRange_iff (h : receiveLevelChunk layout payload = some chunk) :
    LoadsInRange chunk ↔ (¬ AtEnd chunk.coordinate.x ∧ ¬ AtEnd chunk.coordinate.z) ∧
      ((∃ s ∈ chunk.sections, s.nonEmptyBlockCount ≠ 0) →
        InRange chunk.coordinate.x ∧ InRange chunk.coordinate.z) := by
  constructor
  · intro hload
    refine ⟨(checkedNeighborsIncluding_isSome _).mp hload.neighbors, fun hcounted => ?_⟩
    by_contra hout
    obtain ⟨geometry, hgeometry, hoverflow⟩ := checkedMeshAmong_overflow h hcounted hout
    refine hload.mesh opaqueCubes blankDraft [] geometry _ () hgeometry ?_ hoverflow
    unfold LoadedChunks.get
    rw [OrderedMap.lookup_insert, if_pos rfl]
  · rintro ⟨hends, hrange⟩
    refine ⟨(checkedNeighborsIncluding_isSome _).mpr hends, ?_, ?_⟩
    · intro Part FaceRest ModelRest Quad Faces E resources draft biomes geometry chunks empty
        hgeometry hchunk hoverflow
      have hvalid := DimensionGeometry.valid_of_validate hgeometry
      unfold checkedMeshAmong at hoverflow
      rw [hchunk] at hoverflow
      unfold meshChunk meshChunkWith at hoverflow
      rw [hchunk] at hoverflow
      dsimp only at hoverflow
      split at hoverflow
      · cases hoverflow
      · rename_i hlength
        obtain ⟨e, herror, he⟩ := mapError_eq_error hoverflow
        cases he
        obtain ⟨i, s, p, state, faces, hi, hp, hcount, hblock, hdraw⟩ :=
          meshSections_eq_error herror
        obtain ⟨hx, hz⟩ := hrange ⟨s, List.mem_of_getElem? hi, hcount⟩
        have hsection : p.sectionIndex < geometry.sectionCount := by
          have hlt := (List.getElem?_eq_some_iff.mp hi).1
          rw [not_not] at hlength
          omega
        exact checkedDrawAt_ne_overflow hx hz hvalid hsection (block_local_lt hblock) state faces
          hdraw
    · intro Part FaceRest ModelRest Quad Faces E resources draft biomes geometry chunks empty mesh
        hgeometry hchunk hmesh hfaces
      by_cases hcounted : ∃ s ∈ chunk.sections, s.nonEmptyBlockCount ≠ 0
      · obtain ⟨hx, hz⟩ := hrange hcounted
        exact ⟨checkedMiddle_isSome hx, checkedMiddle_isSome hz⟩
      · have hskipped : ∀ s ∈ chunk.sections, s.nonEmptyBlockCount = 0 := fun s hs =>
          not_not.mp fun hcount => hcounted ⟨s, hs, hcount⟩
        unfold meshAmong at hmesh
        rw [hchunk] at hmesh
        unfold meshChunk meshChunkWith at hmesh
        rw [hchunk] at hmesh
        dsimp only at hmesh
        split at hmesh
        · cases hmesh
        · rw [meshSections_uncounted hskipped] at hmesh
          cases hmesh
          exact absurd rfl hfaces

theorem loadsInRange_iff_origin : LoadsInRange (levelChunk []) := by
  have hdecoded : receiveLevelChunk ⟨24, 32⟩ (levelChunkPayload [0]) = some (levelChunk []) := by
    decide +kernel
  have hend : ¬ AtEnd 0 := by
    unfold AtEnd
    decide
  have hrange : InRange 0 := by
    unfold InRange
    decide
  exact (loadsInRange_iff hdecoded).mpr ⟨⟨hend, hend⟩, fun _ => ⟨hrange, hrange⟩⟩

/-- A chunk of stone whose eastern neighbour has no coordinate. -/
theorem loadsInRange_fails :
    receiveLevelChunk ⟨24, 32⟩ ([0x7f, 0xff, 0xff, 0xff] ++ (levelChunkPayload [0]).drop 4) =
        some { levelChunk [] with coordinate := ⟨Int32.maxValue, 0⟩ } ∧
      checkedNeighborsIncluding ⟨Int32.maxValue, 0⟩ = none ∧
      ¬ LoadsInRange { levelChunk [] with coordinate := ⟨Int32.maxValue, 0⟩ } := by
  have hnone : checkedNeighborsIncluding ⟨Int32.maxValue, 0⟩ = none := by decide
  refine ⟨by decide +kernel, hnone, fun hload => ?_⟩
  have hsome := hload.neighbors
  change (checkedNeighborsIncluding ⟨Int32.maxValue, 0⟩).isSome = true at hsome
  rw [hnone] at hsome
  cases hsome

end Cubic.Render
