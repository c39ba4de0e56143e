import Cubic.Render.MeshQueue
import Cubic.Render.Sampling

/-!
# What a mesh job is given, and what it looks up

A job gets the chunk and its four horizontal neighbours. The samplers reach two blocks to each
side, so at the corners of a chunk they also look into the chunks on the diagonals, which
the job takes to be unloaded.
-/

namespace Cubic.Render

open World

set_option autoImplicit false

/-! ### Within two blocks -/

def reach : List Int32 := [-2, -1, 0, 1, 2]

theorem toInt_reach {d : Int32} (h : d ∈ reach) : -2 ≤ d.toInt ∧ d.toInt ≤ 2 := by
  have hall : reach.all (fun d => -2 ≤ d.toInt ∧ d.toInt ≤ 2) = true := by decide
  exact of_decide_eq_true (List.all_eq_true.mp hall d h)

/-- The offsets of a table that are tested to stay within reach do. -/
theorem offsets_reach {offsets : List (Int32 × Int32)}
    (hall : offsets.all (fun o => o.1 ∈ reach ∧ o.2 ∈ reach) = true) {o : Int32 × Int32}
    (h : o ∈ offsets) : o.1 ∈ reach ∧ o.2 ∈ reach :=
  of_decide_eq_true (List.all_eq_true.mp hall o h)

/-- At most two blocks away on each horizontal axis. -/
def Near (p q : BlockCoordinates) : Prop :=
  ∃ dx ∈ reach, ∃ dz ∈ reach, q.x = p.x + dx ∧ q.z = p.z + dz

/-- At most two blocks away on each axis. -/
def Close (p q : BlockCoordinates) : Prop :=
  ∃ dx ∈ reach, ∃ dy ∈ reach, ∃ dz ∈ reach, q = p.offset dx dy dz

theorem Close.near {p q : BlockCoordinates} (h : Close p q) : Near p q := by
  obtain ⟨dx, hdx, _, _, dz, hdz, rfl⟩ := h
  exact ⟨dx, hdx, dz, hdz, rfl, rfl⟩

theorem close_offset (p : BlockCoordinates) {dx dy dz : Int32} (hdx : dx ∈ reach)
    (hdy : dy ∈ reach) (hdz : dz ∈ reach) : Close p (p.offset dx dy dz) :=
  ⟨dx, hdx, dy, hdy, dz, hdz, rfl⟩

theorem offset_zero (p : BlockCoordinates) : p.offset 0 0 0 = p := by
  unfold BlockCoordinates.offset
  rw [Int32.add_zero, Int32.add_zero, Int32.add_zero]

theorem close_self (p : BlockCoordinates) : Close p p :=
  ⟨0, by decide, 0, by decide, 0, by decide, (offset_zero p).symm⟩

theorem close_above (p : BlockCoordinates) {dx dz : Int32} (hdx : dx ∈ reach) (hdz : dz ∈ reach) :
    Close p ((p.offset dx 0 dz).offset 0 1 0) := by
  refine ⟨dx, hdx, 1, by decide, dz, hdz, ?_⟩
  unfold BlockCoordinates.offset
  rw [Int32.add_zero, Int32.add_zero, Int32.add_zero]

theorem close_neighbor (d : Direction) (p : BlockCoordinates) : Close p (d.neighbor p) := by
  apply close_offset
  · cases d <;> decide
  · cases d <;> decide
  · cases d <;> decide

def signs : List Int32 := [-1, 1]

theorem cornerSign_mem (value : F32) : cornerSign value ∈ signs := by
  unfold cornerSign
  split <;> decide

theorem cornerAxes_reach (d : Direction) {x y z : Int32} (hx : x ∈ signs) (hy : y ∈ signs)
    (hz : z ∈ signs) {first second : Int32 × Int32 × Int32}
    (hfirst : first ∈ [(0, 0, 0), (cornerAxes d x y z).1, (cornerAxes d x y z).2])
    (hsecond : second ∈ [(0, 0, 0), (cornerAxes d x y z).2]) :
    d.offset.1 + first.1 + second.1 ∈ reach ∧ d.offset.2.1 + first.2.1 + second.2.1 ∈ reach ∧
      d.offset.2.2 + first.2.2 + second.2.2 ∈ reach := by
  have hall : signs.all (fun x => signs.all fun y => signs.all fun z =>
      [(0, 0, 0), (cornerAxes d x y z).1, (cornerAxes d x y z).2].all fun first =>
      [(0, 0, 0), (cornerAxes d x y z).2].all fun second =>
        d.offset.1 + first.1 + second.1 ∈ reach ∧
          d.offset.2.1 + first.2.1 + second.2.1 ∈ reach ∧
          d.offset.2.2 + first.2.2 + second.2.2 ∈ reach) = true := by
    cases d <;> decide +kernel
  have hx := List.all_eq_true.mp hall x hx
  have hy := List.all_eq_true.mp hx y hy
  have hz := List.all_eq_true.mp hy z hz
  have hfirst := List.all_eq_true.mp hz first hfirst
  exact of_decide_eq_true (List.all_eq_true.mp hfirst second hsecond)

/-- The samples in front of a face lie one block to each side. -/
theorem close_faceSample (p : BlockCoordinates) (d : Direction) (corner : Corner)
    {first second : Int32 × Int32 × Int32}
    (hfirst : first ∈ [(0, 0, 0), (cornerOffsets d corner).1, (cornerOffsets d corner).2])
    (hsecond : second ∈ [(0, 0, 0), (cornerOffsets d corner).2]) :
    Close p (faceSample p d first second) := by
  obtain ⟨hx, hy, hz⟩ := cornerAxes_reach d (cornerSign_mem corner.1) (cornerSign_mem corner.2.1)
    (cornerSign_mem corner.2.2) hfirst hsecond
  exact close_offset p hx hy hz

/-! ### What the samplers ask -/

section
variable {Part FaceRest ModelRest Quad Faces E : Type}
  {resources : RuntimeBlockStateId → BlockModels Part}
  {draft : Draft Part FaceRest ModelRest Quad Faces E} {p q : BlockCoordinates}

/-- A lookup within two blocks. -/
def Within (p : BlockCoordinates) (q : Lookup) : Prop := Near p q.position

/-- A lookup within two blocks on each axis. -/
def Around (p : BlockCoordinates) (q : Lookup) : Prop := Close p q.position

theorem asks_block (h : Close p q) : (Sampler.block q).Asks (Around p) := Query.asks_lookup h

theorem asks_fullyOccludes (h : Close p q) : (fullyOccludes resources q).Asks (Around p) :=
  (asks_block h).bind fun _ => Query.asks_pure _

theorem asks_neighborFullyOccludes (d : Direction) :
    (neighborFullyOccludes resources p d).Asks (Around p) :=
  asks_fullyOccludes (close_neighbor d p)

theorem asks_vertexAmbientOcclusion (d : Direction) (corner : Corner) :
    (vertexAmbientOcclusion resources draft p d corner).Asks (Around p) := by
  unfold vertexAmbientOcclusion
  dsimp only
  apply Query.Asks.bind
  · apply asks_fullyOccludes
    exact close_faceSample p d corner (by simp) (by simp)
  intro _
  apply Query.Asks.bind
  · apply asks_fullyOccludes
    exact close_faceSample p d corner (by simp) (by simp)
  intro _
  apply Query.Asks.bind
  · apply asks_fullyOccludes
    exact close_faceSample p d corner (by simp) (by simp)
  exact fun _ => Query.asks_pure _

theorem asks_sampleLight (h : Close p q) : (sampleLight draft q).Asks (Around p) :=
  Query.Asks.bind (m := Sampler.light q) (Query.asks_lookup h) fun _ => Query.asks_pure _

theorem asks_vertexFaceLight (d : Direction) (corner : Corner) :
    (vertexFaceLight draft p d corner).Asks (Around p) := by
  unfold vertexFaceLight
  dsimp only
  apply Query.Asks.bind
  · apply Query.asks_mapM
    intro o ho
    apply asks_sampleLight
    simp only [List.mem_cons, List.not_mem_nil, or_false] at ho
    rcases ho with rfl | rfl | rfl | rfl
    · exact close_faceSample p d corner (by simp) (by simp)
    · exact close_faceSample p d corner (by simp) (by simp)
    · exact close_faceSample p d corner (by simp) (by simp)
    · exact close_faceSample p d corner (by simp) (by simp)
  · exact fun _ => Query.asks_pure _

theorem asks_blendBiomes (biomes : List RuntimeBiome) (kind : TintKind) :
    (blendBiomes draft biomes kind p).Asks (Around p) := by
  unfold blendBiomes
  apply Query.Asks.bind
  · apply Query.asks_mapM
    intro o ho
    have hreach := offsets_reach (by decide +kernel) ho
    apply Query.Asks.bind (m := Sampler.biome (p.offset o.1 0 o.2))
    · exact Query.asks_lookup (close_offset p hreach.1 (by decide) hreach.2)
    · exact fun _ => Query.asks_pure _
  · intro colors
    split <;> exact Query.asks_pure _

theorem asks_tintAt (biomes : List RuntimeBiome) (kind : TintKind) :
    (tintAt draft biomes kind p).Asks (Around p) := by
  unfold tintAt
  split
  · exact Query.asks_pure _
  · exact Query.asks_pure _
  · exact asks_blendBiomes biomes _

theorem asks_fluidOf (kind : FluidKind) (h : Close p q) :
    (fluidOf resources kind q).Asks (Around p) := by
  have hfluid : (fluidAt resources q).Asks (Around p) :=
    (asks_block h).bind fun _ => Query.asks_pure _
  exact hfluid.bind fun _ => Query.asks_pure _

theorem asks_sameFluid (kind : FluidKind) (h : Close p q) :
    (sameFluid resources kind q).Asks (Around p) :=
  (asks_fluidOf kind h).bind fun _ => Query.asks_pure _

theorem asks_fluidSampleHeight (kind : FluidKind) (h : Close p q)
    (habove : Close p (q.offset 0 1 0)) :
    (fluidSampleHeight resources draft kind q).Asks (Around p) := by
  unfold fluidSampleHeight
  apply (asks_fluidOf kind h).bind
  intro fluid
  cases fluid with
  | some fluid => exact (asks_sameFluid kind habove).bind fun _ => Query.asks_pure _
  | none => exact (asks_block h).bind fun _ => Query.asks_pure _

theorem asks_fluidCornerHeight (kind : FluidKind) {dx dz : Int32} (hdx : dx ∈ reach)
    (hdz : dz ∈ reach) : (fluidCornerHeight resources draft kind p dx dz).Asks (Around p) := by
  have hzero : (0 : Int32) ∈ reach := by decide
  have hone : (1 : Int32) ∈ reach := by decide
  unfold fluidCornerHeight
  apply (asks_fluidSampleHeight kind (close_self p) (close_offset p hzero hone hzero)).bind
  intro center
  apply (asks_fluidSampleHeight kind (close_offset p hdx hzero hzero)
    (close_above p hdx hzero)).bind
  intro alongX
  apply (asks_fluidSampleHeight kind (close_offset p hzero hzero hdz)
    (close_above p hzero hdz)).bind
  intro alongZ
  split
  · exact Query.asks_pure _
  · split
    · apply (asks_fluidSampleHeight kind (close_offset p hdx hzero hdz)
        (close_above p hdx hdz)).bind
      exact fun _ => Query.asks_pure _
    · exact Query.asks_pure _

theorem asks_fluidSurfaceHeights (kind : FluidKind) :
    (fluidSurfaceHeights resources draft kind p).Asks (Around p) := by
  unfold fluidSurfaceHeights
  apply (asks_fluidSampleHeight kind (close_self p)
    (close_offset p (by decide) (by decide) (by decide))).bind
  intro center
  split
  · exact Query.asks_pure _
  · apply (asks_fluidCornerHeight kind (by decide) (by decide)).bind
    intro northWest
    apply (asks_fluidCornerHeight kind (by decide) (by decide)).bind
    intro southWest
    apply (asks_fluidCornerHeight kind (by decide) (by decide)).bind
    intro southEast
    apply (asks_fluidCornerHeight kind (by decide) (by decide)).bind
    exact fun _ => Query.asks_pure _

theorem asks_flowNeighbor (kind : FluidKind) {dx dz : Int32} (hdx : dx ∈ reach)
    (hdz : dz ∈ reach) : (flowNeighbor resources kind p dx dz).Asks (Around p) := by
  unfold flowNeighbor
  apply (asks_fluidOf kind (close_offset p hdx (by decide) hdz)).bind
  intro neighbor
  cases neighbor with
  | some neighbor => exact Query.asks_pure _
  | none =>
    apply (asks_fullyOccludes (close_offset p hdx (by decide) hdz)).bind
    intro occluded
    cases occluded with
    | true => exact Query.asks_pure _
    | false =>
      apply (asks_fluidOf kind (close_offset p hdx (by decide) hdz)).bind
      exact fun _ => Query.asks_pure _

theorem asks_fluidSurfaceFlow (kind : FluidKind) :
    (fluidSurfaceFlow resources kind p).Asks (Around p) := by
  unfold fluidSurfaceFlow
  apply (asks_fluidOf kind (close_self p)).bind
  intro center
  cases center with
  | none => exact Query.asks_pure _
  | some center =>
    apply Query.Asks.bind
    · apply Query.asks_mapM
      intro o ho
      have hreach := offsets_reach (by decide) ho
      exact asks_flowNeighbor kind hreach.1 hreach.2
    · exact fun _ => Query.asks_pure _

theorem asks_neighborFullyOccludesFluidSide (d : Direction) (maximumHeight : F64) :
    (neighborFullyOccludesFluidSide resources draft p d maximumHeight).Asks (Around p) := by
  unfold neighborFullyOccludesFluidSide
  split
  · exact Query.asks_pure _
  · apply (asks_block (close_neighbor d p)).bind
    intro state
    cases state with
    | none => exact Query.asks_pure _
    | some state => exact Query.asks_pure _

/-! ### What drawing asks -/

variable {biomes : List RuntimeBiome}

/-- What needs no lookup. -/
theorem asks_except {α : Type} (result : Except E α) :
    Query.Asks (Around p) (ExceptT.mk (pure result) : ExceptT E (Query Lookup.Answer) α).run :=
  Query.asks_pure result

theorem asks_pushFluidQuad (kind : FluidKind) (faces : Faces) (quad : Quad) :
    Query.Asks (Around p) (pushFluidQuad draft biomes p kind faces quad).run := by
  unfold pushFluidQuad
  apply (asks_except _).bindE
  intro _
  apply (Query.asks_lift (asks_tintAt biomes _)).bindE
  intro tint
  apply Query.Asks.bindE
  · apply Query.asks_lift
    split
    · exact Query.asks_pure _
    · apply (asks_sampleLight (close_self p)).bind
      intro here
      apply (asks_sampleLight (close_offset p (by decide) (by decide) (by decide))).bind
      exact fun _ => Query.asks_pure _
  · exact fun _ => asks_except _

theorem asks_pushFluidSide (kind : FluidKind)
    (models : List (ModelApplication FaceRest ModelRest)) (heights : Heights) (renderBottom : Bool)
    (faces : Faces) (d : Direction) : Query.Asks (Around p)
      (pushFluidSide resources draft biomes p kind models heights renderBottom faces d).run := by
  unfold pushFluidSide
  apply (Query.asks_lift (asks_sameFluid kind (close_neighbor d p))).bindE
  intro shared
  apply Query.Asks.bindE
  · apply Query.asks_lift
    cases shared with
    | true => exact Query.asks_pure _
    | false => exact asks_neighborFullyOccludesFluidSide d _
  · intro occludes
    apply Query.asks_foldlM
    exact fun quad _ faces => asks_pushFluidQuad kind faces quad

theorem asks_pushFluid (fluid : FluidState) (models : List (ModelApplication FaceRest ModelRest))
    (faces : Faces) : Query.Asks (Around p)
      (pushFluid resources draft biomes p fluid models faces).run := by
  unfold pushFluid
  apply (Query.asks_lift (asks_fluidSurfaceHeights fluid.kind)).bindE
  intro heights
  apply (Query.asks_lift (asks_fluidSurfaceFlow fluid.kind)).bindE
  intro flow
  apply (Query.asks_lift (asks_sameFluid fluid.kind (close_offset p (by decide) (by decide) (by decide)))).bindE
  intro sameBelow
  apply (Query.asks_lift (asks_sameFluid fluid.kind (close_offset p (by decide) (by decide) (by decide)))).bindE
  intro sameAbove
  apply Query.Asks.bindE
  · apply Query.asks_foldlM
    exact fun quad _ faces => asks_pushFluidQuad fluid.kind faces quad
  intro faces
  apply Query.Asks.bindE
  · apply Query.asks_foldlM
    exact fun d _ faces => asks_pushFluidSide fluid.kind models heights _ faces d
  intro faces
  apply Query.asks_foldlM
  exact fun quad _ faces => asks_pushFluidQuad fluid.kind faces quad

theorem asks_vertexShade (model : ModelApplication FaceRest ModelRest)
    (face : ModelFace FaceRest) (emissive : Bool) (corner : Corner) :
    (vertexShade resources draft p model face emissive corner).Asks (Around p) := by
  unfold vertexShade
  apply Query.Asks.bind
  · split
    · exact Query.asks_pure _
    · exact asks_vertexAmbientOcclusion _ _
  intro ambientOcclusion
  apply Query.Asks.bind
  · split
    · exact Query.asks_pure _
    · split
      · exact asks_sampleLight (close_self p)
      · exact asks_vertexFaceLight _ _
  exact fun _ => Query.asks_pure _

theorem asks_modelsAt : (modelsAt resources p).Asks (Around p) :=
  (asks_block (close_self p)).bind fun _ => Query.asks_pure _

theorem asks_pushModelFace (model : ModelApplication FaceRest ModelRest) (faces : Faces)
    (face : ModelFace FaceRest) : Query.Asks (Around p)
      (pushModelFace resources draft biomes p model faces face).run := by
  unfold pushModelFace
  apply (asks_except _).bindE
  intro _
  apply (Query.asks_lift (asks_tintAt biomes _)).bindE
  intro tint
  apply (Query.asks_lift asks_modelsAt).bindE
  intro models
  apply (Query.asks_lift asks_modelsAt).bindE
  intro offset
  apply Query.Asks.bindE
  · apply Query.asks_lift
    apply Query.asks_mapM
    exact fun corner _ => asks_vertexShade model face _ corner
  exact fun _ => asks_except _

theorem asks_pushCulledFace (occlusion : Option (List Bool))
    (model : ModelApplication FaceRest ModelRest) (faces : Faces) (face : ModelFace FaceRest) :
    Query.Asks (Around p)
      (pushCulledFace resources draft biomes p occlusion model faces face).run := by
  unfold pushCulledFace
  apply Query.Asks.bindE
  · apply Query.asks_lift
    split
    · exact Query.asks_pure _
    · split
      · exact Query.asks_pure _
      · exact asks_neighborFullyOccludes _
  · intro occluded
    cases occluded with
    | true => exact asks_except _
    | false => exact asks_pushModelFace model faces face

theorem asks_pushModel (occlusion : Option (List Bool))
    (patterns : Option (List BannerPatternLayer)) (faces : Faces)
    (model : ModelApplication FaceRest ModelRest) : Query.Asks (Around p)
      (pushModel resources draft biomes p occlusion patterns faces model).run := by
  unfold pushModel
  apply Query.Asks.bindE
  · apply Query.asks_foldlM
    exact fun face _ faces => asks_pushCulledFace occlusion model faces face
  intro faces
  cases patterns with
  | none => exact asks_except _
  | some patterns =>
    apply (asks_except _).bindE
    intro patternFaces
    apply Query.asks_foldlM
    exact fun face _ faces => asks_pushModelFace model faces face

theorem asks_drawBlock_around (state : RuntimeBlockStateId)
    (patterns : Option (List BannerPatternLayer)) (faces : Faces) : Query.Asks (Around p)
      (drawBlock resources draft biomes p state patterns faces).run := by
  unfold drawBlock
  apply Query.Asks.bindE
  · apply Query.asks_lift
    split
    · apply Query.Asks.map
      apply Query.asks_mapM
      exact fun d _ => asks_neighborFullyOccludes d
    · exact Query.asks_pure _
  intro occlusion
  split
  · exact asks_except _
  · apply Query.Asks.bindE
    · split
      · exact asks_pushFluid _ _ _
      · exact asks_except _
    intro faces
    apply Query.asks_foldlM
    exact fun model _ faces => asks_pushModel occlusion patterns faces model

/-- Drawing a block looks at most two blocks to each side. -/
theorem asks_drawBlock (state : RuntimeBlockStateId)
    (patterns : Option (List BannerPatternLayer)) (faces : Faces) : Query.Asks (Within p)
      (drawBlock resources draft biomes p state patterns faces).run :=
  (asks_drawBlock_around state patterns faces).mono fun _ h => h.near

end

end Cubic.Render
