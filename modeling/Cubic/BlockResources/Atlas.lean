import Cubic.BlockResources.Error
import Cubic.Lib.Binary32
import Cubic.Lib.Cells
import Cubic.Lib.OrderedMap
import Cubic.Lib.Shelf
import Mathlib.Data.Nat.Log
import Mathlib.Order.Lattice.Nat

/-!
# The texture atlas (`block_resources.rs`)

A region's bounds are the exact values of the `f32`.
-/

namespace Cubic.BlockResources

set_option autoImplicit false

def maxAtlasSide : Nat := 4096

def atlasGutter : Nat := 1

/-- The width that `pack_atlas` starts from. -/
def atlasWidth : Nat := 2048

structure AnimationStep where
  frame : Nat
  ticks : UInt32
  deriving DecidableEq

structure DecodedAnimation where
  sequence : List AnimationStep
  interpolate : Bool
  deriving DecidableEq

structure DecodedImage where
  width : UInt32
  height : UInt32
  rgba : List UInt8
  cutout : Bool
  frames : List (List UInt8)
  animation : Option DecodedAnimation
  deriving DecidableEq

inductive RenderLayer where
  | opaqueLayer
  | cutout
  | translucent
  | layeredTranslucent
  deriving DecidableEq

structure AtlasRegion where
  min : ℚ × ℚ
  max : ℚ × ℚ
  layer : RenderLayer
  deriving DecidableEq

structure TextureAnimationData where
  origin : Nat × Nat
  width : Nat
  height : Nat
  frames : List (List UInt8)
  sequence : List AnimationStep
  interpolate : Bool
  deriving DecidableEq

structure TextureAtlasData where
  width : Nat
  height : Nat
  rgba : List UInt8
  regions : OrderedMap String AtlasRegion
  animations : List TextureAnimationData
  deriving DecidableEq

def asF32 (n : Nat) : ℚ := Binary32.nearest n

def divF32 (a b : ℚ) : ℚ := Binary32.nearest (a / b)

def saturatingMulU32 (a b : Nat) : Nat := min (a * b) (2 ^ 32 - 1)

def checkedMulU32 (a b : Nat) : Option Nat := if a * b < 2 ^ 32 then some (a * b) else none

def checkedAddU32 (a b : Nat) : Option Nat := if a + b < 2 ^ 32 then some (a + b) else none

/-- What `pack_atlas` turns down. -/
def DecodedImage.Unfit (image : DecodedImage) : Prop :=
  image.width = 0 ∨ image.height = 0 ∨ atlasWidth - atlasGutter * 2 < image.width.toNat ∨
    maxAtlasSide < image.height.toNat ∨
    image.rgba.length ≠
      saturatingMulU32 (saturatingMulU32 image.width.toNat image.height.toNat) 4

instance (image : DecodedImage) : Decidable image.Unfit :=
  inferInstanceAs (Decidable (_ ∨ _ ∨ _ ∨ _ ∨ _))

/-! ### Placing -/

section
variable {σ ε : Type}

/-- A shelf goes on above where an image would pass the right border. -/
def turnShelf (shelf : Packing.Shelf) (right : Nat) :
    Mut σ (BlockResourceError ε) Packing.Shelf :=
  if atlasWidth < right then do
    let up ← Mut.addU32 shelf.row (atlasGutter * 2)
    let y ← Mut.addU32 shelf.y up
    pure ⟨atlasGutter, y, 0⟩
  else pure shelf

def placeImages : List (String × DecodedImage) → Packing.Shelf → OrderedMap String (Nat × Nat) →
    Mut σ (BlockResourceError ε) (OrderedMap String (Nat × Nat) × Packing.Shelf)
  | [], shelf, placements => pure (placements, shelf)
  | (name, image) :: rest, shelf, placements =>
    if image.Unfit then Mut.fail (.atlasTooLarge maxAtlasSide)
    else do
      let right ← Mut.addU32 shelf.x image.width.toNat
      let border ← Mut.addU32 right atlasGutter
      let shelf ← turnShelf shelf border
      let step ← Mut.addU32 image.width.toNat (atlasGutter * 2)
      let x ← Mut.addU32 shelf.x step
      placeImages rest ⟨x, shelf.y, max shelf.row image.height.toNat⟩
        (placements.insert name (shelf.x, shelf.y))

/-- `u32::next_power_of_two`, which overflows above `2 ^ 31`. -/
def nextPowerOfTwo (n : Nat) : Mut σ (BlockResourceError ε) Nat :=
  if 2 ^ 31 < n then Mut.fault else pure (2 ^ Nat.clog 2 n)

end

/-! ### Copying -/

/-- What is written while the images are copied. -/
structure Canvas where
  rgba : List UInt8
  regions : OrderedMap String AtlasRegion
  animations : List TextureAnimationData

section
variable {ε : Type}

def pixelOffset (rowWidth x y : Nat) : Option Nat := do
  let row ← checkedMulU32 y rowWidth
  let pixel ← checkedAddU32 row x
  checkedMulU32 pixel 4

/-- The four bytes from an offset on. -/
def pixelAt (rgba : List UInt8) (offset : Nat) : Option (List UInt8) :=
  if offset + 4 ≤ rgba.length then some ((rgba.drop offset).take 4) else none

def copyFromSlice (rgba : List UInt8) (offset : Nat) (source : List UInt8) : List UInt8 :=
  rgba.take offset ++ (source ++ rgba.drop (offset + 4))

def malformedAtlas (name reason : String) : BlockResourceError ε :=
  malformed "texture atlas" name reason

def copyPixel (name : String) (image : DecodedImage) (px py atlasX atlasY : Nat) :
    Mut Canvas (BlockResourceError ε) Unit := do
  let lastX ← Mut.subU32 image.width.toNat 1
  let lastY ← Mut.subU32 image.height.toNat 1
  let sourceX := min (atlasX - px) lastX
  let sourceY := min (atlasY - py) lastY
  let sourceOffset ← Mut.okOr (pixelOffset image.width.toNat sourceX sourceY)
    (malformedAtlas name "source pixel overflow")
  let destinationOffset ← Mut.okOr (pixelOffset atlasWidth atlasX atlasY)
    (malformedAtlas name "destination pixel overflow")
  let source ← Mut.okOr (pixelAt image.rgba sourceOffset)
    (malformedAtlas name "source pixel is missing")
  let canvas ← Mut.get
  let _destination ← Mut.okOr (pixelAt canvas.rgba destinationOffset)
    (malformedAtlas name "destination pixel is outside atlas")
  Mut.set { canvas with rgba := copyFromSlice canvas.rgba destinationOffset source }

/-- The numbers from one gutter to the other. -/
def guttered (origin size : Nat) : Mut Canvas (BlockResourceError ε) (List Nat) := do
  let first ← Mut.subU32 origin atlasGutter
  let last ← Mut.addU32 origin size
  let stop ← Mut.addU32 last atlasGutter
  pure (List.range' first (stop - first))

def copyRow (name : String) (image : DecodedImage) (px py atlasY : Nat) :
    Mut Canvas (BlockResourceError ε) Unit := do
  let columns ← guttered px image.width.toNat
  columns.forM fun atlasX => copyPixel name image px py atlasX atlasY

def copyImage (name : String) (image : DecodedImage) (px py : Nat) :
    Mut Canvas (BlockResourceError ε) Unit := do
  let rows ← guttered py image.height.toNat
  rows.forM fun atlasY => copyRow name image px py atlasY

def DecodedImage.layer (image : DecodedImage) : RenderLayer :=
  if image.cutout then .cutout else .opaqueLayer

def animationData (image : DecodedImage) (px py : Nat) : List TextureAnimationData :=
  match image.animation with
  | some animation =>
    [⟨(px, py), image.width.toNat, image.height.toNat, image.frames, animation.sequence,
      animation.interpolate⟩]
  | none => []

def packImage (placements : OrderedMap String (Nat × Nat)) (height : Nat)
    (entry : String × DecodedImage) : Mut Canvas (BlockResourceError ε) Unit := do
  let name := entry.1
  let image := entry.2
  let (px, py) ← Mut.ofOption (placements.lookup name)
  copyImage name image px py
  let right ← Mut.addU32 px image.width.toNat
  let lower ← Mut.addU32 py image.height.toNat
  let region : AtlasRegion :=
    ⟨(divF32 (asF32 px) (asF32 atlasWidth), divF32 (asF32 py) (asF32 height)),
      (divF32 (asF32 right) (asF32 atlasWidth), divF32 (asF32 lower) (asF32 height)), image.layer⟩
  Mut.modify fun canvas => { canvas with
    animations := canvas.animations ++ animationData image px py
    regions := canvas.regions.insert name region }

def fillAtlas (images : OrderedMap String DecodedImage) (placements : OrderedMap String (Nat × Nat))
    (height : Nat) : Mut Canvas (BlockResourceError ε) TextureAtlasData := do
  images.entries.forM (packImage placements height)
  let canvas ← Mut.get
  pure ⟨atlasWidth, height, canvas.rgba, canvas.regions, canvas.animations⟩

def packAtlas (images : OrderedMap String DecodedImage) :
    Mut Unit (BlockResourceError ε) TextureAtlasData := do
  let (placements, shelf) ← placeImages images.entries ⟨atlasGutter, atlasGutter, 0⟩ .empty
  let top ← Mut.addU32 shelf.y shelf.row
  let needed ← Mut.addU32 top atlasGutter
  let height ← nextPowerOfTwo needed
  if maxAtlasSide < height then Mut.fail (.atlasTooLarge maxAtlasSide)
  else do
    let area ← Mut.ofOption (checkedMulU32 atlasWidth height)
    let length ← Mut.ofOption (checkedMulU32 area 4)
    Mut.zoom (fun _ => ⟨List.replicate length 0, .empty, []⟩) (fun _ outer => outer)
      (fillAtlas images placements height)

end

/-! ### What is turned down -/

structure DecodedImage.Fits (image : DecodedImage) : Prop where
  wide : 0 < image.width.toNat
  high : 0 < image.height.toNat
  notTooWide : image.width.toNat + 2 * atlasGutter ≤ atlasWidth
  notTooHigh : image.height.toNat ≤ maxAtlasSide
  bytes : image.rgba.length = 4 * (image.height.toNat * image.width.toNat)

/-- The products of an image within the limits do not saturate. -/
theorem DecodedImage.not_unfit_iff {image : DecodedImage} : ¬ image.Unfit ↔ image.Fits := by
  have hwide : image.width = 0 ↔ image.width.toNat = 0 := UInt32.toNat_inj.symm
  have hhigh : image.height = 0 ↔ image.height.toNat = 0 := UInt32.toNat_inj.symm
  have hbytes (hw : image.width.toNat ≤ 2046) (hh : image.height.toNat ≤ 4096) :
      saturatingMulU32 (saturatingMulU32 image.width.toNat image.height.toNat) 4 =
        4 * (image.height.toNat * image.width.toNat) := by
    have hproduct := Nat.mul_le_mul hw hh
    rw [Nat.mul_comm image.height.toNat]
    unfold saturatingMulU32
    omega
  unfold DecodedImage.Unfit
  simp only [atlasWidth, atlasGutter, maxAtlasSide, hwide, hhigh, not_or, not_lt, not_not]
  constructor
  · intro h
    obtain ⟨hw, hh, hw', hh', hlength⟩ := h
    refine ⟨Nat.pos_of_ne_zero hw, Nat.pos_of_ne_zero hh, ?_, hh', ?_⟩
    · unfold atlasWidth atlasGutter
      omega
    · exact hlength.trans (hbytes hw' hh')
  · intro h
    have hw : image.width.toNat ≤ 2046 := Nat.le_of_add_le_add_right h.notTooWide
    exact ⟨h.wide.ne', h.high.ne', hw, h.notTooHigh, h.bytes.trans (hbytes hw h.notTooHigh).symm⟩

/-! ### Copying one image -/

section
variable {ε : Type}

/-- On a canvas of so many pixels the call does the writes and nothing else. -/
structure Paints (area : Nat) (call : Mut Canvas (BlockResourceError ε) Unit)
    (writes : List (Nat × List UInt8)) : Prop where
  inside : ∀ w ∈ writes, w.2.length = 4 ∧ 4 * w.1 + 4 ≤ 4 * area
  run : ∀ canvas : Canvas, canvas.rgba.length = 4 * area →
    call canvas = .ok () { canvas with rgba := Cells.paint 4 canvas.rgba writes }

theorem paints_forM {α : Type} {area : Nat}
    {call : α → Mut Canvas (BlockResourceError ε) Unit}
    {writes : α → List (Nat × List UInt8)} {xs : List α}
    (h : ∀ a ∈ xs, Paints area (call a) (writes a)) :
    Paints area (xs.forM call) (xs.flatMap writes) := by
  induction xs with
  | nil => exact ⟨fun _ hw => absurd hw List.not_mem_nil, fun _ _ => rfl⟩
  | cons a rest ih =>
    obtain ⟨hfirst, hrest⟩ := List.forall_mem_cons.mp h
    have hthen := ih hrest
    refine ⟨?_, fun canvas hcanvas => ?_⟩
    · intro w hw
      rw [List.flatMap_cons] at hw
      rcases List.mem_append.mp hw with hw | hw
      · exact hfirst.inside w hw
      · exact hthen.inside w hw
    · have hlength : (Cells.paint 4 canvas.rgba (writes a)).length = 4 * area :=
        (Cells.length_paint fun w hw => hcanvas.symm ▸ hfirst.inside w hw).trans hcanvas
      change (call a >>= fun _ => rest.forM call) canvas = _
      rw [Mut.bind_of_ok (hfirst.run canvas hcanvas), hthen.run _ hlength, List.flatMap_cons,
        Cells.paint_append]

theorem pixelOffset_eq {rowWidth x y : Nat} (h : (y * rowWidth + x) * 4 < 2 ^ 32) :
    pixelOffset rowWidth x y = some ((y * rowWidth + x) * 4) := by
  have hpixel : y * rowWidth + x < 2 ^ 32 := by
    omega
  have hrow : y * rowWidth < 2 ^ 32 := Nat.lt_of_le_of_lt (Nat.le_add_right _ x) hpixel
  rw [pixelOffset, checkedMulU32, if_pos hrow]
  change (checkedAddU32 (y * rowWidth) x).bind _ = _
  rw [checkedAddU32, if_pos hpixel]
  change checkedMulU32 (y * rowWidth + x) 4 = _
  rw [checkedMulU32, if_pos h]

theorem pixelAt_eq {rgba : List UInt8} {n : Nat} (h : 4 * n + 4 ≤ rgba.length) :
    pixelAt rgba (n * 4) = some (Cells.cell 4 rgba n) := by
  rw [pixelAt, Nat.mul_comm n, if_pos h, Cells.cell]

/-- The pixel of the image whose copy goes to a place of the atlas. -/
def sourcePixel (image : DecodedImage) (px py atlasX atlasY : Nat) : List UInt8 :=
  Cells.cell 4 image.rgba (min (atlasY - py) (image.height.toNat - 1) * image.width.toNat +
    min (atlasX - px) (image.width.toNat - 1))

/-- Row by row, an offset in a row stays within the image. -/
theorem row_inside {width height x y : Nat} (hx : x < width) (hy : y < height) :
    y * width + x < height * width := by
  have hrow : y * width + width ≤ height * width := by
    rw [← Nat.succ_mul]
    exact Nat.mul_le_mul_right width hy
  omega

theorem length_cell {rgba : List UInt8} {n : Nat} (h : 4 * n + 4 ≤ rgba.length) :
    (Cells.cell 4 rgba n).length = 4 := by
  rw [Cells.cell, List.length_take, List.length_drop]
  omega

section
variable {image : DecodedImage} {px py height : Nat}

theorem copyPixel_paints (hfits : image.Fits) (name : String) {atlasX atlasY : Nat}
    (hheight : height ≤ maxAtlasSide) (hx : atlasX < atlasWidth) (hy : atlasY < height) :
    Paints (ε := ε) (height * atlasWidth)
      (copyPixel name image px py atlasX atlasY)
      [(atlasY * atlasWidth + atlasX, sourcePixel image px py atlasX atlasY)] := by
  have hwide : 1 ≤ image.width.toNat := hfits.wide
  have hhigh : 1 ≤ image.height.toNat := hfits.high
  have hdestination := row_inside hx hy
  have harea : height * atlasWidth ≤ 4096 * 2048 := Nat.mul_le_mul_right _ hheight
  have hsource : min (atlasY - py) (image.height.toNat - 1) * image.width.toNat +
      min (atlasX - px) (image.width.toNat - 1) < image.height.toNat * image.width.toNat :=
    row_inside (by omega) (by omega)
  have hsize : image.height.toNat * image.width.toNat ≤ 4096 * 2046 :=
    Nat.mul_le_mul hfits.notTooHigh (Nat.le_of_add_le_add_right hfits.notTooWide)
  have hbytes := hfits.bytes
  have hread : pixelAt image.rgba ((min (atlasY - py) (image.height.toNat - 1) *
      image.width.toNat + min (atlasX - px) (image.width.toNat - 1)) * 4) =
        some (sourcePixel image px py atlasX atlasY) := pixelAt_eq (by omega)
  refine ⟨?_, fun canvas hcanvas => ?_⟩
  · intro w hw
    rw [List.mem_singleton.mp hw]
    exact ⟨length_cell (by omega), by simp only; omega⟩
  · have hwritten : pixelAt canvas.rgba ((atlasY * atlasWidth + atlasX) * 4) =
        some (Cells.cell 4 canvas.rgba (atlasY * atlasWidth + atlasX)) := pixelAt_eq (by omega)
    unfold copyPixel
    rw [Mut.bind_of_ok (Mut.subU32_eq_ok.mpr ⟨hwide, rfl, rfl⟩),
      Mut.bind_of_ok (Mut.subU32_eq_ok.mpr ⟨hhigh, rfl, rfl⟩)]
    rw [Mut.bind_of_ok (Mut.okOr_eq_ok.mpr ⟨pixelOffset_eq (by omega), rfl⟩),
      Mut.bind_of_ok (Mut.okOr_eq_ok.mpr ⟨pixelOffset_eq (by omega), rfl⟩),
      Mut.bind_of_ok (Mut.okOr_eq_ok.mpr ⟨hread, rfl⟩), Mut.get_bind,
      Mut.bind_of_ok (Mut.okOr_eq_ok.mpr ⟨hwritten, rfl⟩), copyFromSlice, Nat.mul_comm _ 4]
    rfl

/-- With its gutter the image's rectangle lies in an atlas of this height. -/
structure Inside (image : DecodedImage) (px py height : Nat) : Prop where
  left : atlasGutter ≤ px
  right : px + image.width.toNat + atlasGutter ≤ atlasWidth
  top : atlasGutter ≤ py
  bottom : py + image.height.toNat + atlasGutter ≤ height

/-- A place of the atlas that is in the image's rectangle or in its gutter. -/
structure Extended (image : DecodedImage) (px py x y : Nat) : Prop where
  left : px ≤ x + atlasGutter
  right : x < px + image.width.toNat + atlasGutter
  top : py ≤ y + atlasGutter
  bottom : y < py + image.height.toNat + atlasGutter

theorem guttered_eq {origin size : Nat} (horigin : atlasGutter ≤ origin)
    (hsize : origin + size + atlasGutter < 2 ^ 32) (canvas : Canvas) :
    guttered (ε := ε) origin size canvas =
      .ok (List.range' (origin - atlasGutter) (size + 2 * atlasGutter)) canvas := by
  have hlast : origin + size < 2 ^ 32 := Nat.lt_of_le_of_lt (Nat.le_add_right _ _) hsize
  have hnumber : origin + size + atlasGutter - (origin - atlasGutter) = size + 2 * atlasGutter := by
    omega
  unfold guttered
  rw [Mut.bind_of_ok (Mut.subU32_eq_ok.mpr ⟨horigin, rfl, rfl⟩),
    Mut.bind_of_ok (Mut.addU32_eq_ok.mpr ⟨hlast, rfl, rfl⟩),
    Mut.bind_of_ok (Mut.addU32_eq_ok.mpr ⟨hsize, rfl, rfl⟩), hnumber]
  rfl

theorem mem_guttered {origin size n : Nat} (horigin : atlasGutter ≤ origin) :
    n ∈ List.range' (origin - atlasGutter) (size + 2 * atlasGutter) ↔
      origin ≤ n + atlasGutter ∧ n < origin + size + atlasGutter := by
  rw [List.mem_range'_1]
  omega

def rowWrites (image : DecodedImage) (px py y : Nat) : List (Nat × List UInt8) :=
  (List.range' (px - atlasGutter) (image.width.toNat + 2 * atlasGutter)).flatMap fun x =>
    [(y * atlasWidth + x, sourcePixel image px py x y)]

def imageWrites (image : DecodedImage) (px py : Nat) : List (Nat × List UInt8) :=
  (List.range' (py - atlasGutter) (image.height.toNat + 2 * atlasGutter)).flatMap
    (rowWrites image px py)

theorem mem_imageWrites (hinside : Inside image px py height) {w : Nat × List UInt8} :
    w ∈ imageWrites image px py ↔ ∃ x y, Extended image px py x y ∧
      w = (y * atlasWidth + x, sourcePixel image px py x y) := by
  constructor
  · intro hw
    obtain ⟨y, hy, hw⟩ := List.mem_flatMap.mp hw
    obtain ⟨x, hx, hw⟩ := List.mem_flatMap.mp hw
    obtain ⟨hleft, hright⟩ := (mem_guttered hinside.left).mp hx
    obtain ⟨htop, hbottom⟩ := (mem_guttered hinside.top).mp hy
    exact ⟨x, y, ⟨hleft, hright, htop, hbottom⟩, List.mem_singleton.mp hw⟩
  · intro h
    obtain ⟨x, y, hplace, rfl⟩ := h
    apply List.mem_flatMap.mpr
    refine ⟨y, (mem_guttered hinside.top).mpr ⟨hplace.top, hplace.bottom⟩, ?_⟩
    apply List.mem_flatMap.mpr
    exact ⟨x, (mem_guttered hinside.left).mpr ⟨hplace.left, hplace.right⟩, List.mem_singleton.mpr rfl⟩

/-- A call that begins with the numbers of a side. -/
theorem Paints.guttered {area origin size : Nat} (horigin : atlasGutter ≤ origin)
    (hsize : origin + size + atlasGutter < 2 ^ 32)
    {call : List Nat → Mut Canvas (BlockResourceError ε) Unit}
    {writes : List (Nat × List UInt8)}
    (h : Paints area (call (List.range' (origin - atlasGutter) (size + 2 * atlasGutter))) writes) :
    Paints area (guttered origin size >>= call) writes := by
  refine ⟨h.inside, fun canvas hcanvas => ?_⟩
  rw [Mut.bind_of_ok (guttered_eq horigin hsize canvas)]
  exact h.run canvas hcanvas

theorem copyImage_paints (hfits : image.Fits) (name : String) (hheight : height ≤ maxAtlasSide)
    (hinside : Inside image px py height) :
    Paints (ε := ε) (height * atlasWidth) (copyImage name image px py)
      (imageWrites image px py) := by
  have hright := hinside.right
  have hbottom := hinside.bottom
  unfold atlasWidth at hright
  unfold maxAtlasSide at hheight
  refine Paints.guttered hinside.top (by omega) (paints_forM fun y hy => ?_)
  refine Paints.guttered hinside.left (by omega) (paints_forM fun x hx => ?_)
  have hx' := ((mem_guttered hinside.left).mp hx).2
  have hy' := ((mem_guttered hinside.top).mp hy).2
  exact copyPixel_paints hfits name hheight (hx'.trans_le hright) (hy'.trans_le hbottom)

/-! ### Bounds of a region -/

/-- The quotient by a power of two keeps the digits. -/
theorem divF32_eq {n k : Nat} (hn : n < 2 ^ 24) (hk : k < 24) :
    divF32 (asF32 n) (asF32 (2 ^ k)) = n / 2 ^ k := by
  have hexact (m : Nat) (hm : m < 2 ^ 24) : asF32 m = m := by
    have h := Binary32.nearest_eq 0 hm
    rw [pow_zero, div_one] at h
    exact h
  rw [divF32, hexact n hn, hexact (2 ^ k) (Nat.pow_lt_pow_right (by decide) hk), Nat.cast_pow,
    Nat.cast_ofNat]
  exact Binary32.nearest_eq k hn

end

end

end Cubic.BlockResources
