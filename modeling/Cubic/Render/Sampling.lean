import Cubic.Lib.Query
import Cubic.Render.Mesher
import Cubic.World.BlockUpdates

/-!
# What drawing a block looks up (`mesher.rs`)

The samplers of the mesher as computations that look up blocks, biomes and light. What is
computed of vertices, colours and heights, and looks nothing up, is a parameter: the `Draft`.
Coordinates wrap around, as the release build's arithmetic does. Diagnostics are left out.
-/

namespace Cubic.World.ChunkLightSummary

set_option autoImplicit false

def lightValue (layers : List LightLayerData) (maskIndex : Nat) (x y z : UInt8) : Option UInt8 :=
  if x ≥ 16 ∨ y ≥ 16 ∨ z ≥ 16 then none
  else do
    let layer ← layers.find? fun layer => layer.maskIndex = maskIndex
    let index := y.toNat * 256 + z.toNat * 16 + x.toNat
    let byte ← layer.data[index / 2]?
    some (if index % 2 = 0 then byte &&& 0x0f else byte >>> 4)

def maskContains (words : List UInt64) (index : Nat) : Bool :=
  words[index / 64]?.any fun word => word &&& (1 <<< UInt64.ofNat (index % 64)) ≠ 0

def sky (light : ChunkLightSummary) (sectionOffset : Nat) (x y z : UInt8) : Option UInt8 := do
  let index ← checkedAdd sectionOffset 1
  (lightValue light.skyLayers index x y z).or
    (if maskContains light.emptySkyMask index then some 0 else none)

def block (light : ChunkLightSummary) (sectionOffset : Nat) (x y z : UInt8) : Option UInt8 := do
  let index ← checkedAdd sectionOffset 1
  (lightValue light.blockLayers index x y z).or
    (if maskContains light.emptyBlockMask index then some 0 else none)

end Cubic.World.ChunkLightSummary

namespace Cubic.BlockCoordinates

set_option autoImplicit false

def offset (p : BlockCoordinates) (dx dy dz : Int32) : BlockCoordinates :=
  ⟨p.x + dx, p.y + dy, p.z + dz⟩

end Cubic.BlockCoordinates

namespace Cubic.Render

open World

set_option autoImplicit false

/-! ### Lookups -/

inductive Lookup where
  | block (position : BlockCoordinates)
  | biome (position : BlockCoordinates)
  | light (position : BlockCoordinates)
  deriving DecidableEq

namespace Lookup

def position : Lookup → BlockCoordinates
  | block position => position
  | biome position => position
  | light position => position

abbrev Value : Lookup → Type
  | block _ => RuntimeBlockStateId
  | biome _ => RuntimeBiomeId
  | light _ => UInt8

/-- None where no chunk is loaded. -/
abbrev Answer (q : Lookup) : Type := Option q.Value

end Lookup

/-- The three samplers go to the loaded chunk alike. -/
def readAt {α : Type} (chunks : LoadedChunks) (geometry : DimensionGeometry)
    (position : BlockCoordinates) (read : Chunk → BlockLocation → Option α) : Option α := do
  let l ← locate geometry position
  let chunk ← chunks.get l.coordinate
  read chunk l

def blockAt (chunks : LoadedChunks) (geometry : DimensionGeometry) (position : BlockCoordinates) :
    Option RuntimeBlockStateId :=
  readAt chunks geometry position fun chunk l => do
    let blockSection ← chunk.sections[l.sectionOffset]?
    blockSection.block l.localX l.localY l.localZ

def biomeAt (chunks : LoadedChunks) (geometry : DimensionGeometry) (position : BlockCoordinates) :
    Option RuntimeBiomeId :=
  readAt chunks geometry position fun chunk l => do
    let blockSection ← chunk.sections[l.sectionOffset]?
    blockSection.biome (l.localX / 4) (l.localY / 4) (l.localZ / 4)

/-- The light `sample_light` turns into a brightness. -/
def lightAt (chunks : LoadedChunks) (geometry : DimensionGeometry) (position : BlockCoordinates) :
    Option UInt8 :=
  readAt chunks geometry position fun chunk l =>
    let sky := chunk.light.sky l.sectionOffset l.localX l.localY l.localZ
    let block := chunk.light.block l.sectionOffset l.localX l.localY l.localZ
    if sky.isNone ∧ block.isNone then none else some (max (sky.getD 0) (block.getD 0))

def answer (chunks : LoadedChunks) (geometry : DimensionGeometry) : (q : Lookup) → q.Answer
  | .block position => blockAt chunks geometry position
  | .biome position => biomeAt chunks geometry position
  | .light position => lightAt chunks geometry position

/-- A computation over the loaded chunks. -/
abbrev Sampler (α : Type) := Query Lookup.Answer α

namespace Sampler

def block (p : BlockCoordinates) : Sampler (Option RuntimeBlockStateId) := Query.lookup (Lookup.block p)
def biome (p : BlockCoordinates) : Sampler (Option RuntimeBiomeId) := Query.lookup (Lookup.biome p)
def light (p : BlockCoordinates) : Sampler (Option UInt8) := Query.lookup (Lookup.light p)

end Sampler

/-! ### Resources -/

inductive Direction where
  | down
  | up
  | north
  | south
  | west
  | east
  deriving DecidableEq

namespace Direction

def all : List Direction := [down, up, north, south, west, east]

def offset : Direction → Int32 × Int32 × Int32
  | down => (0, -1, 0)
  | up => (0, 1, 0)
  | north => (0, 0, -1)
  | south => (0, 0, 1)
  | west => (-1, 0, 0)
  | east => (1, 0, 0)

def index : Direction → Nat
  | down => 0
  | up => 1
  | north => 2
  | south => 3
  | west => 4
  | east => 5

def neighbor (d : Direction) (p : BlockCoordinates) : BlockCoordinates :=
  p.offset d.offset.1 d.offset.2.1 d.offset.2.2

end Direction

inductive FluidKind where
  | water
  | lava
  deriving DecidableEq

structure FluidState where
  kind : FluidKind
  level : UInt8
  falling : Bool
  deriving DecidableEq

inductive TintKind where
  | none
  | grass
  | foliage
  | dryFoliage
  | water
  | fixed (color : UInt32)
  deriving DecidableEq

inductive ModelOffset where
  | none
  | xz
  | xyz
  deriving DecidableEq

/-- What the resources say of a block state. -/
structure BlockModels (Part : Type) extends StateModels Part FluidState where
  fullOpaqueCube : Bool
  fluidSurfaceSolid : Bool
  emissive : Bool
  modelOffset : ModelOffset

abbrev Corner := F32 × F32 × F32

/-- `rest` is the texture and what goes with it. -/
structure ModelFace (FaceRest : Type) where
  direction : Direction
  corners : Vector Corner 4
  cullface : Option Direction
  tintKind : TintKind
  rest : FaceRest

/-- `rest` is the boxes a fluid is clipped at, and whether textures are locked. -/
structure ModelApplication (FaceRest ModelRest : Type) where
  faces : List (ModelFace FaceRest)
  xRotation : UInt16
  yRotation : UInt16
  ambientOcclusion : Bool
  rest : ModelRest

/-- What the flow at a fluid's surface is computed from: its neighbours, beside it or one below. -/
inductive FlowNeighbor where
  | beside (fluid : FluidState)
  | below (fluid : FluidState)
  deriving DecidableEq

structure FluidFlow where
  center : FluidState
  neighbors : List (Int32 × Int32 × FlowNeighbor)
  deriving DecidableEq

abbrev Heights := Vector F64 4

/-- The computations that look nothing up. `Faces` is the mesh as it grows. -/
structure Draft (Part FaceRest ModelRest Quad Faces E : Type) where
  /-- `select_model` for each part, with the random numbers of the position. -/
  selectModels : List Part → BlockCoordinates → List (ModelApplication FaceRest ModelRest)
  rotateDirection : Direction → UInt16 → UInt16 → Direction
  rotateCorner : Corner → UInt16 → UInt16 → Corner
  bannerPatternFaces : ModelApplication FaceRest ModelRest → List BannerPatternLayer →
    Except E (List (ModelFace FaceRest))
  /-- The limits on faces and indices. -/
  checkRoom : Faces → Except E Unit
  pushFace : Faces → BlockCoordinates → ModelApplication FaceRest ModelRest → ModelFace FaceRest →
    Option UInt32 → ModelOffset → List (F32 × F32) → Faces
  /-- The clipped top of a fluid. -/
  topQuads : FluidKind → Heights → Option FluidFlow →
    List (ModelApplication FaceRest ModelRest) → List Quad
  /-- A clipped side of a fluid: whether its bottom and its outer boundary are drawn. -/
  sideQuads : FluidKind → Direction → Heights → Bool → Bool →
    List (ModelApplication FaceRest ModelRest) → List Quad
  bottomQuad : FluidKind → Quad
  pushQuad : Faces → BlockCoordinates → FluidKind → Quad → Option UInt32 → F32 → Faces
  /-- Whether the parts of a neighbour cover the side of a fluid up to a height. -/
  sideCovered : Direction → BlockCoordinates → List Part → F64 → Bool
  ownHeight : FluidState → F64
  weightedFluidHeight : List (Option F64) → F64
  maxHeight : F64 → F64 → F64
  brightness : UInt8 → F32
  maxBrightness : F32 → F32 → F32
  ambientOcclusionFactor : Bool → Bool → Bool → F32
  biomeColor : TintKind → RuntimeBiome → Int32 → Int32 → UInt32

section
variable {Part FaceRest ModelRest Quad Faces E : Type}
  (resources : RuntimeBlockStateId → BlockModels Part)
  (draft : Draft Part FaceRest ModelRest Quad Faces E)

/-! ### Faces and light -/

def fullyOccludes (p : BlockCoordinates) : Sampler Bool := do
  let state ← Sampler.block p
  pure (state.any fun state => (resources state).fullOpaqueCube)

def neighborFullyOccludes (p : BlockCoordinates) (d : Direction) : Sampler Bool :=
  fullyOccludes resources (d.neighbor p)

def cornerSign (value : F32) : Int32 := if value.lt F32.half then -1 else 1

def cornerAxes (d : Direction) (x y z : Int32) :
    (Int32 × Int32 × Int32) × (Int32 × Int32 × Int32) :=
  match d with
  | .up => ((x, 0, 0), (0, 0, z))
  | .down => ((x, 0, 0), (0, 0, z))
  | .north => ((x, 0, 0), (0, y, 0))
  | .south => ((x, 0, 0), (0, y, 0))
  | .east => ((0, 0, z), (0, y, 0))
  | .west => ((0, 0, z), (0, y, 0))

/-- The two ways along a face to its neighbours at a corner. -/
def cornerOffsets (d : Direction) (corner : Corner) :
    (Int32 × Int32 × Int32) × (Int32 × Int32 × Int32) :=
  cornerAxes d (cornerSign corner.1) (cornerSign corner.2.1) (cornerSign corner.2.2)

/-- In front of a face, shifted by two offsets. -/
def faceSample (p : BlockCoordinates) (d : Direction) (first second : Int32 × Int32 × Int32) :
    BlockCoordinates :=
  p.offset (d.offset.1 + first.1 + second.1) (d.offset.2.1 + first.2.1 + second.2.1)
    (d.offset.2.2 + first.2.2 + second.2.2)

def vertexAmbientOcclusion (p : BlockCoordinates) (d : Direction) (corner : Corner) :
    Sampler F32 := do
  let first := (cornerOffsets d corner).1
  let second := (cornerOffsets d corner).2
  let firstOccupied ← fullyOccludes resources (faceSample p d first (0, 0, 0))
  let secondOccupied ← fullyOccludes resources (faceSample p d second (0, 0, 0))
  let cornerOccupied ← fullyOccludes resources (faceSample p d first second)
  pure (draft.ambientOcclusionFactor firstOccupied secondOccupied cornerOccupied)

def sampleLight (p : BlockCoordinates) : Sampler F32 := do
  let light ← Sampler.light p
  pure (light.elim F32.one draft.brightness)

def vertexFaceLight (p : BlockCoordinates) (d : Direction) (corner : Corner) : Sampler F32 := do
  let first := (cornerOffsets d corner).1
  let second := (cornerOffsets d corner).2
  let samples ← [((0, 0, 0), (0, 0, 0)), (first, (0, 0, 0)), (second, (0, 0, 0)),
    (first, second)].mapM fun o => sampleLight draft (faceSample p d o.1 o.2)
  pure (samples.foldl draft.maxBrightness F32.zero)

/-! ### Biomes -/

def biomeBlendOffsets : List (Int32 × Int32) :=
  [-2, -1, 0, 1, 2].flatMap fun dz => [-2, -1, 0, 1, 2].map fun dx => (dx, dz)

/-- The colour without a biome to ask. -/
def TintKind.defaultColor : TintKind → Option UInt32
  | .water => some 0x3f76e4
  | .foliage => some 0x48b518
  | .dryFoliage => some 0x9e814d
  | .grass => some 0x7fb238
  | .none => Option.none
  | .fixed color => some color

def averageColor (colors : List UInt32) : UInt32 :=
  let channel (shift : UInt32) :=
    (colors.map fun color => ((color >>> shift) &&& 0xff).toNat).sum / colors.length
  .ofNat ((channel 16) <<< 16 ||| (channel 8) <<< 8 ||| channel 0)

/-- The colour blended over the biomes within two blocks. -/
def blendBiomes (biomes : List RuntimeBiome) (kind : TintKind) (p : BlockCoordinates) :
    Sampler (Option UInt32) := do
  let colors ← biomeBlendOffsets.mapM fun o => do
    let rawId ← Sampler.biome (p.offset o.1 0 o.2)
    pure do
      let rawId ← rawId
      let biome ← biomes[rawId.id.toNat]?.filter fun biome => biome.rawId = rawId.id
      some (draft.biomeColor kind biome (p.x + o.1) (p.z + o.2))
  match colors.filterMap id with
  | [] => pure kind.defaultColor
  | colors => pure (some (averageColor colors))

/-- The tint of a face; `none` leaves it white. -/
def tintAt (biomes : List RuntimeBiome) (kind : TintKind) (p : BlockCoordinates) :
    Sampler (Option UInt32) :=
  match kind with
  | .none => pure none
  | .fixed color => pure (some color)
  | kind => blendBiomes draft biomes kind p

/-! ### Fluids -/

def fluidAt (p : BlockCoordinates) : Sampler (Option FluidState) := do
  let state ← Sampler.block p
  pure (state.bind fun state => (resources state).fluid)

/-- The fluid at a position if it is of a kind. -/
def fluidOf (kind : FluidKind) (p : BlockCoordinates) : Sampler (Option FluidState) := do
  let fluid ← fluidAt resources p
  pure (fluid.filter fun fluid => fluid.kind = kind)

def sameFluid (kind : FluidKind) (p : BlockCoordinates) : Sampler Bool := do
  let fluid ← fluidOf resources kind p
  pure fluid.isSome

def fluidSampleHeight (kind : FluidKind) (p : BlockCoordinates) : Sampler F64 := do
  match ← fluidOf resources kind p with
  | some fluid =>
    let above ← sameFluid resources kind (p.offset 0 1 0)
    pure (if above then F64.one else draft.ownHeight fluid)
  | none =>
    let state ← Sampler.block p
    pure (if state.any fun state => (resources state).fluidSurfaceSolid then F64.minusOne
      else F64.zero)

def fluidCornerHeight (kind : FluidKind) (p : BlockCoordinates) (dx dz : Int32) :
    Sampler F64 := do
  let center ← fluidSampleHeight resources draft kind p
  let alongX ← fluidSampleHeight resources draft kind (p.offset dx 0 0)
  let alongZ ← fluidSampleHeight resources draft kind (p.offset 0 0 dz)
  if F64.one.le alongX || F64.one.le alongZ then pure F64.one
  else if F64.zero.lt alongX || F64.zero.lt alongZ then
    let diagonal ← fluidSampleHeight resources draft kind (p.offset dx 0 dz)
    pure (draft.weightedFluidHeight [some center, some alongX, some alongZ, some diagonal])
  else pure (draft.weightedFluidHeight [some center, some alongX, some alongZ, none])

def fluidSurfaceHeights (kind : FluidKind) (p : BlockCoordinates) : Sampler Heights := do
  let center ← fluidSampleHeight resources draft kind p
  if F64.one.le center then pure #v[F64.one, F64.one, F64.one, F64.one]
  else
    let northWest ← fluidCornerHeight resources draft kind p (-1) (-1)
    let southWest ← fluidCornerHeight resources draft kind p (-1) 1
    let southEast ← fluidCornerHeight resources draft kind p 1 1
    let northEast ← fluidCornerHeight resources draft kind p 1 (-1)
    pure #v[northWest, southWest, southEast, northEast]

def flowNeighbor (kind : FluidKind) (p : BlockCoordinates) (dx dz : Int32) :
    Sampler (Option (Int32 × Int32 × FlowNeighbor)) := do
  match ← fluidOf resources kind (p.offset dx 0 dz) with
  | some neighbor => pure (some (dx, dz, .beside neighbor))
  | none =>
    if ← fullyOccludes resources (p.offset dx 0 dz) then pure none
    else
      let below ← fluidOf resources kind (p.offset dx (-1) dz)
      pure (below.map fun below => (dx, dz, .below below))

/-- The flow, before the sum over the neighbours is taken. -/
def fluidSurfaceFlow (kind : FluidKind) (p : BlockCoordinates) : Sampler (Option FluidFlow) := do
  match ← fluidOf resources kind p with
  | none => pure none
  | some center =>
    let neighbors ← [(-1, 0), (1, 0), (0, -1), (0, 1)].mapM fun o =>
      flowNeighbor resources kind p o.1 o.2
    pure (some ⟨center, neighbors.filterMap id⟩)

def fluidSideHeights (d : Direction) (heights : Heights) : F64 × F64 :=
  match d with
  | .north => (heights[0], heights[3])
  | .south => (heights[1], heights[2])
  | .west => (heights[0], heights[1])
  | .east => (heights[2], heights[3])
  | .down => (heights[0], heights[0])
  | .up => (heights[0], heights[0])

def neighborFullyOccludesFluidSide (p : BlockCoordinates) (d : Direction) (maximumHeight : F64) :
    Sampler Bool :=
  if maximumHeight.le F64.zero then pure true
  else do
    match ← Sampler.block (d.neighbor p) with
    | none => pure false
    | some state =>
      pure ((resources state).fullOpaqueCube ||
        draft.sideCovered d (d.neighbor p) (resources state).parts maximumHeight)

/-! ### Drawing -/

variable (biomes : List RuntimeBiome)

def pushFluidQuad (p : BlockCoordinates) (kind : FluidKind) (faces : Faces) (quad : Quad) :
    ExceptT E (Query Lookup.Answer) Faces := do
  ExceptT.mk (pure (draft.checkRoom faces))
  let tint ← ExceptT.lift (tintAt draft biomes (if kind = .water then .water else .none) p)
  let light ← ExceptT.lift <|
    if kind = .lava then pure F32.one
    else do
      let here ← sampleLight draft p
      let above ← sampleLight draft (p.offset 0 1 0)
      pure (draft.maxBrightness here above)
  pure (draft.pushQuad faces p kind quad tint light)

def pushFluidSide (p : BlockCoordinates) (kind : FluidKind)
    (models : List (ModelApplication FaceRest ModelRest)) (heights : Heights)
    (renderBottom : Bool) (faces : Faces) (d : Direction) :
    ExceptT E (Query Lookup.Answer) Faces := do
  let shared ← ExceptT.lift (sameFluid resources kind (d.neighbor p))
  let (left, right) := fluidSideHeights d heights
  let occludes ← ExceptT.lift <|
    if shared then pure false
    else neighborFullyOccludesFluidSide resources draft p d (draft.maxHeight left right)
  (draft.sideQuads kind d heights renderBottom (!shared && !occludes) models).foldlM
    (pushFluidQuad draft biomes p kind) faces

def pushFluid (p : BlockCoordinates) (fluid : FluidState)
    (models : List (ModelApplication FaceRest ModelRest)) (faces : Faces) :
    ExceptT E (Query Lookup.Answer) Faces := do
  let kind := fluid.kind
  let heights ← ExceptT.lift (fluidSurfaceHeights resources draft kind p)
  let flow ← ExceptT.lift (fluidSurfaceFlow resources kind p)
  let sameBelow ← ExceptT.lift (sameFluid resources kind (p.offset 0 (-1) 0))
  let sameAbove ← ExceptT.lift (sameFluid resources kind (p.offset 0 1 0))
  let faces ← (if sameAbove then [] else draft.topQuads kind heights flow models).foldlM
    (pushFluidQuad draft biomes p kind) faces
  let faces ← [Direction.north, .south, .west, .east].foldlM
    (pushFluidSide resources draft biomes p kind models heights (!sameBelow)) faces
  (if sameBelow then [] else [draft.bottomQuad kind]).foldlM
    (pushFluidQuad draft biomes p kind) faces

/-- The ambient occlusion and the light at one corner of a face. -/
def vertexShade (p : BlockCoordinates) (model : ModelApplication FaceRest ModelRest)
    (face : ModelFace FaceRest) (emissive : Bool) (corner : Corner) : Sampler (F32 × F32) := do
  let corner := draft.rotateCorner corner model.xRotation model.yRotation
  let ambientOcclusion ← (
    if emissive || !model.ambientOcclusion then pure F32.one
    else vertexAmbientOcclusion resources draft p face.direction corner)
  let light ← (
    if emissive then pure F32.one
    else if face.cullface.isNone then sampleLight draft p
    else vertexFaceLight draft p face.direction corner)
  pure (ambientOcclusion, light)

/-- What the resources say of the block at a position; `u32::MAX` stands for none. -/
def modelsAt (p : BlockCoordinates) : Sampler (BlockModels Part) := do
  let state ← Sampler.block p
  pure (resources (state.getD ⟨0xffffffff⟩))

def pushModelFace (p : BlockCoordinates) (model : ModelApplication FaceRest ModelRest)
    (faces : Faces) (face : ModelFace FaceRest) : ExceptT E (Query Lookup.Answer) Faces := do
  ExceptT.mk (pure (draft.checkRoom faces))
  let tint ← ExceptT.lift (tintAt draft biomes face.tintKind p)
  let models ← ExceptT.lift (modelsAt resources p)
  let offset ← ExceptT.lift (modelsAt resources p)
  let shades ← ExceptT.lift
    (face.corners.toList.mapM (vertexShade resources draft p model face models.emissive))
  pure (draft.pushFace faces p model face tint offset.modelOffset shades)

/-- A face of a model, unless its neighbour hides it. `occlusion` is known of full cubes. -/
def pushCulledFace (p : BlockCoordinates) (occlusion : Option (List Bool))
    (model : ModelApplication FaceRest ModelRest) (faces : Faces) (face : ModelFace FaceRest) :
    ExceptT E (Query Lookup.Answer) Faces := do
  let occluded ← ExceptT.lift <|
    match face.cullface with
    | none => pure false
    | some cullface =>
      let d := draft.rotateDirection cullface model.xRotation model.yRotation
      match occlusion with
      | some occlusion => pure (occlusion[d.index]?.getD false)
      | none => neighborFullyOccludes resources p d
  if occluded then pure faces else pushModelFace resources draft biomes p model faces face

def pushModel (p : BlockCoordinates) (occlusion : Option (List Bool))
    (patterns : Option (List BannerPatternLayer)) (faces : Faces)
    (model : ModelApplication FaceRest ModelRest) : ExceptT E (Query Lookup.Answer) Faces := do
  let faces ← model.faces.foldlM (pushCulledFace resources draft biomes p occlusion model) faces
  match patterns with
  | none => pure faces
  | some patterns =>
    let patternFaces ← ExceptT.mk (pure (draft.bannerPatternFaces model patterns))
    patternFaces.foldlM (pushModelFace resources draft biomes p model) faces

/-- The faces of one block that is not blank. -/
def drawBlock (p : BlockCoordinates) (state : RuntimeBlockStateId)
    (patterns : Option (List BannerPatternLayer)) (faces : Faces) :
    ExceptT E (Query Lookup.Answer) Faces := do
  let models := resources state
  let occlusion ← ExceptT.lift <|
    if models.fullOpaqueCube then some <$> Direction.all.mapM (neighborFullyOccludes resources p)
    else pure none
  if occlusion.any (·.all id) then pure faces
  else
    let selected := draft.selectModels models.parts p
    let faces ← (match models.fluid with
      | some fluid => pushFluid resources draft biomes p fluid selected faces
      | none => pure faces)
    selected.foldlM (pushModel resources draft biomes p occlusion patterns) faces

end

/-! ### One position of a chunk -/

/-- `i32::try_from` of a length, at most `i32::MAX`. -/
def i32OfLength (n : Nat) : Int32 := .ofInt (min n i32Max)

def worldPosition (geometry : DimensionGeometry) (coordinate : ChunkCoordinate)
    (p : MeshPosition) : BlockCoordinates where
  x := saturatingMulI32 coordinate.x 16 + p.x.toNat.toInt32
  y := geometry.minY + saturatingMulI32 (i32OfLength p.sectionIndex) 16 + p.y.toNat.toInt32
  z := saturatingMulI32 coordinate.z 16 + p.z.toNat.toInt32

def bannerPatterns (chunk : Chunk) (p : MeshPosition) (y : Int32) :
    Option (List BannerPatternLayer) := do
  let y ← i16TryFrom y
  let entity ← chunk.blockEntities.find? fun entity =>
    entity.localX = p.x ∧ entity.y = y ∧ entity.localZ = p.z
  let data ← entity.data
  some data.bannerPatterns

section
variable {Part FaceRest ModelRest Quad Faces E : Type}
  (resources : RuntimeBlockStateId → BlockModels Part)
  (draft : Draft Part FaceRest ModelRest Quad Faces E) (biomes : List RuntimeBiome)
  (geometry : DimensionGeometry) (coordinate : ChunkCoordinate) (chunk : Chunk)

/-- Drawing the block at a position of a chunk. -/
def drawAt (p : MeshPosition) (state : RuntimeBlockStateId) (faces : Faces) :
    Sampler (Except E Faces) :=
  let position := worldPosition geometry coordinate p
  (drawBlock resources draft biomes position state (bannerPatterns chunk p position.y) faces).run

/-- Meshing a chunk among others. -/
def meshAmong (chunks : LoadedChunks) (empty : Faces) :
    Except (MeshError E) (ChunkMesh Faces) :=
  match chunks.get coordinate with
  | none => .ok ⟨empty, ⟨0, 0, 0⟩⟩
  | some chunk =>
    meshChunk (fun state => (resources state).toStateModels)
      (fun p state faces => (drawAt resources draft biomes geometry coordinate chunk p state
        faces).run (answer chunks geometry))
      coordinate chunks geometry empty

end

end Cubic.Render
