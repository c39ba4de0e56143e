import Cubic.BlockResources.Atlas
import Mathlib.Data.Nat.Dist

/-!
# Packed atlases

An atlas is packed when its images lie apart in it, each with its gutter around it, and its regions
and animations say where.
-/

namespace Cubic.BlockResources

set_option autoImplicit false

/-! ### Stamping one image -/

/-- The region of the rectangle, in parts of the atlas. -/
def exactRegion (image : DecodedImage) (px py height : Nat) : AtlasRegion :=
  ⟨(px / atlasWidth, py / height),
    ((px + image.width.toNat : Nat) / atlasWidth, (py + image.height.toNat : Nat) / height),
    image.layer⟩

/-- An image and the box that is set aside for it. -/
abbrev Item := (String × DecodedImage) × Packing.Box

def stamp (height : Nat) (canvas : Canvas) (item : Item) : Canvas where
  rgba := Cells.paint 4 canvas.rgba (imageWrites item.1.2 item.2.x item.2.y)
  regions := canvas.regions.insert item.1.1 (exactRegion item.1.2 item.2.x item.2.y height)
  animations := canvas.animations ++ animationData item.1.2 item.2.x item.2.y

/-- The image can be copied to its box. -/
structure Item.Ready (placements : OrderedMap String (Nat × Nat)) (height : Nat) (item : Item) :
    Prop where
  placement : placements.lookup item.1.1 = some (item.2.x, item.2.y)
  fits : item.1.2.Fits
  inside : Inside item.1.2 item.2.x item.2.y height

section
variable {ε : Type} {placements : OrderedMap String (Nat × Nat)} {height k : Nat}

theorem Item.Ready.paints {item : Item} (h : item.Ready placements height)
    (hheight : height ≤ maxAtlasSide) :
    Paints (ε := ε) (height * atlasWidth)
      (copyImage item.1.1 item.1.2 item.2.x item.2.y)
      (imageWrites item.1.2 item.2.x item.2.y) :=
  copyImage_paints h.fits item.1.1 hheight h.inside

theorem packImage_eq (hheight : 2 ^ k ≤ maxAtlasSide) {item : Item}
    (h : item.Ready placements (2 ^ k)) {canvas : Canvas}
    (hcanvas : canvas.rgba.length = 4 * (2 ^ k * atlasWidth)) :
    packImage (ε := ε) placements (2 ^ k) item.1 canvas =
      .ok () (stamp (2 ^ k) canvas item) := by
  have hright := h.inside.right
  have hbottom := h.inside.bottom
  have hk : k < 24 := (Nat.pow_lt_pow_iff_right (by decide)).mp
    (Nat.lt_of_le_of_lt hheight (by decide : maxAtlasSide < 2 ^ 24))
  unfold atlasWidth at hright
  unfold maxAtlasSide at hheight
  have hx (n : Nat) (hn : n < 2 ^ 24) : divF32 (asF32 n) (asF32 atlasWidth) = n / atlasWidth := by
    have hwidth := divF32_eq (k := 11) hn (by decide)
    exact_mod_cast hwidth
  have hy (n : Nat) (hn : n < 2 ^ 24) : divF32 (asF32 n) (asF32 (2 ^ k)) = n / (2 ^ k : Nat) := by
    have hsize := divF32_eq hn hk
    exact_mod_cast hsize
  unfold packImage
  dsimp only
  rw [Mut.bind_of_ok (Mut.ofOption_eq_ok.mpr ⟨h.placement, rfl⟩)]
  dsimp only
  rw [Mut.bind_of_ok ((h.paints hheight).run canvas hcanvas),
    Mut.bind_of_ok (Mut.addU32_eq_ok.mpr ⟨by omega, rfl, rfl⟩),
    Mut.bind_of_ok (Mut.addU32_eq_ok.mpr ⟨by omega, rfl, rfl⟩), hx _ (by omega), hx _ (by omega),
    hy _ (by omega), hy _ (by omega)]
  rfl

theorem length_stamp (hheight : height ≤ maxAtlasSide) {item : Item}
    (h : item.Ready placements height) {canvas : Canvas}
    (hcanvas : canvas.rgba.length = 4 * (height * atlasWidth)) :
    (stamp height canvas item).rgba.length = 4 * (height * atlasWidth) :=
  (Cells.length_paint fun w hw => hcanvas.symm ▸
    ((h.paints (ε := Unit) hheight).inside w hw)).trans hcanvas

theorem forM_packImage (hheight : 2 ^ k ≤ maxAtlasSide) (items : List Item)
    (hitems : ∀ item ∈ items, item.Ready placements (2 ^ k)) :
    ∀ canvas : Canvas, canvas.rgba.length = 4 * (2 ^ k * atlasWidth) →
      (items.map Prod.fst).forM (packImage (ε := ε) placements (2 ^ k))
        canvas = .ok () (items.foldl (stamp (2 ^ k)) canvas) := by
  induction items with
  | nil => exact fun _ _ => rfl
  | cons item rest ih =>
    obtain ⟨hitem, hrest⟩ := List.forall_mem_cons.mp hitems
    intro canvas hcanvas
    change (packImage placements (2 ^ k) item.1 >>= fun _ =>
      (rest.map Prod.fst).forM (packImage placements (2 ^ k))) canvas = _
    rw [Mut.bind_of_ok (packImage_eq hheight hitem hcanvas)]
    exact ih hrest _ (length_stamp hheight hitem hcanvas)

end

/-! ### Stamping them all -/

section
variable {height : Nat}

/-- All the writes, in the order of the images. -/
def allWrites (items : List Item) : List (Nat × List UInt8) :=
  items.flatMap fun item => imageWrites item.1.2 item.2.x item.2.y

theorem foldl_stamp_rgba (items : List Item) : ∀ canvas : Canvas,
    (items.foldl (stamp height) canvas).rgba = Cells.paint 4 canvas.rgba (allWrites items) := by
  induction items with
  | nil => exact fun _ => rfl
  | cons item rest ih =>
    intro canvas
    rw [List.foldl_cons, ih]
    exact (Cells.paint_append _ _).symm

theorem foldl_stamp_regions (items : List Item) : ∀ canvas : Canvas,
    (items.foldl (stamp height) canvas).regions =
      (items.map fun item => (item.1.1, exactRegion item.1.2 item.2.x item.2.y height)).foldl
        (fun m e => m.insert e.1 e.2) canvas.regions := by
  induction items with
  | nil => exact fun _ => rfl
  | cons item rest ih => exact fun canvas => ih _

theorem foldl_stamp_animations (items : List Item) : ∀ canvas : Canvas,
    (items.foldl (stamp height) canvas).animations = canvas.animations ++
      items.flatMap fun item => animationData item.1.2 item.2.x item.2.y := by
  induction items with
  | nil => exact fun canvas => (List.append_nil canvas.animations).symm
  | cons item rest ih =>
    intro canvas
    rw [List.foldl_cons, ih, List.flatMap_cons, ← List.append_assoc]
    rfl

end

/-! ### Placing -/

def imageSize (entry : String × DecodedImage) : Nat × Nat :=
  (entry.2.width.toNat, entry.2.height.toNat)

/-- The shelves that `pack_atlas` fills. -/
def shelves (entries : List (String × DecodedImage)) (shelf : Packing.Shelf) :
    List Packing.Box × Packing.Shelf :=
  Packing.layout atlasWidth atlasGutter (entries.map imageSize) shelf

/-- The images with their boxes. -/
def placed (entries : List (String × DecodedImage)) (shelf : Packing.Shelf) : List Item :=
  entries.zip (shelves entries shelf).1

def Item.origin (item : Item) : String × Nat × Nat := (item.1.1, item.2.x, item.2.y)

def insertAll (origins : List (String × Nat × Nat)) (placements : OrderedMap String (Nat × Nat)) :
    OrderedMap String (Nat × Nat) :=
  origins.foldl (fun m e => m.insert e.1 e.2) placements

section
variable {σ ε : Type}

theorem turnShelf_eq {shelf : Packing.Shelf} {w : Nat}
    (hshelf : shelf.y + (shelf.row + atlasGutter * 2) < 2 ^ 32) (s : σ) :
    turnShelf (ε := ε) shelf (shelf.x + w + atlasGutter) s =
      .ok (shelf.turn atlasWidth atlasGutter w) s := by
  unfold turnShelf Packing.Shelf.turn
  split
  · rw [Mut.bind_of_ok (Mut.addU32_eq_ok.mpr ⟨by omega, rfl, rfl⟩),
      Mut.bind_of_ok (Mut.addU32_eq_ok.mpr ⟨hshelf, rfl, rfl⟩)]
    rfl
  · rfl

theorem turnShelf_eq_ok {shelf next : Packing.Shelf} {w : Nat} {s t : σ}
    (h : turnShelf (ε := ε) shelf (shelf.x + w + atlasGutter) s =
      .ok next t) : next = shelf.turn atlasWidth atlasGutter w := by
  unfold turnShelf at h
  unfold Packing.Shelf.turn
  split at h
  · rename_i hright
    obtain ⟨up, _, hup, h⟩ := Mut.bind_eq_ok.mp h
    obtain ⟨y, _, hy, h⟩ := Mut.bind_eq_ok.mp h
    obtain ⟨-, rfl, -⟩ := Mut.addU32_eq_ok.mp hup
    obtain ⟨-, rfl, -⟩ := Mut.addU32_eq_ok.mp hy
    cases h
    rw [if_pos hright]
    rfl
  · rename_i hright
    cases h
    rw [if_neg hright]

/-- What fits is placed as the shelves say. -/
theorem placeImages_eq (entries : List (String × DecodedImage)) :
    ∀ (shelf : Packing.Shelf) (placements : OrderedMap String (Nat × Nat)) (s : σ),
      (∀ e ∈ entries, e.2.Fits) → shelf.x ≤ atlasWidth + atlasGutter →
      (shelves entries shelf).2.y + (shelves entries shelf).2.row ≤ maxAtlasSide →
      placeImages (ε := ε) entries shelf placements s =
        .ok (insertAll ((placed entries shelf).map Item.origin) placements,
          (shelves entries shelf).2) s := by
  induction entries with
  | nil => exact fun _ _ _ _ _ _ => rfl
  | cons entry rest ih =>
    obtain ⟨name, image⟩ := entry
    intro shelf placements s hfits hx hlast
    obtain ⟨hfirst, hrest⟩ := List.forall_mem_cons.mp hfits
    have hfit : image.Fits := hfirst
    have hwide : image.width.toNat ≤ 2046 := Nat.le_of_add_le_add_right hfit.notTooWide
    have hmargin := Packing.Shelf.turn_fits (s := shelf) hfit.notTooWide
    have hstart : shelf.y + shelf.row ≤ maxAtlasSide :=
      (Packing.le_layout_height (imageSize (name, image) :: rest.map imageSize) shelf).trans hlast
    have hnext : (shelf.turn atlasWidth atlasGutter image.width.toNat).x + (image.width.toNat +
        2 * atlasGutter) ≤ atlasWidth + atlasGutter := by
      omega
    have hwidth : atlasWidth = 2048 := rfl
    have hgutter : atlasGutter = 1 := rfl
    have hside : maxAtlasSide = 4096 := rfl
    unfold placeImages
    rw [if_neg (DecodedImage.not_unfit_iff.mpr hfit),
      Mut.bind_of_ok (Mut.addU32_eq_ok.mpr ⟨by omega, rfl, rfl⟩),
      Mut.bind_of_ok (Mut.addU32_eq_ok.mpr ⟨by omega, rfl, rfl⟩),
      Mut.bind_of_ok (turnShelf_eq (by omega) s),
      Mut.bind_of_ok (Mut.addU32_eq_ok.mpr ⟨by omega, rfl, rfl⟩),
      Mut.bind_of_ok (Mut.addU32_eq_ok.mpr ⟨by omega, rfl, rfl⟩)]
    exact ih _ _ s hrest hnext hlast

theorem placeImages_eq_ok (entries : List (String × DecodedImage)) :
    ∀ {shelf : Packing.Shelf} {placements : OrderedMap String (Nat × Nat)} {s t : σ}
      {r : OrderedMap String (Nat × Nat) × Packing.Shelf},
      placeImages (ε := ε) entries shelf placements s = .ok r t →
      (∀ e ∈ entries, e.2.Fits) ∧ r.2 = (shelves entries shelf).2 := by
  induction entries with
  | nil =>
    intro shelf placements s t r h
    cases h
    exact ⟨fun _ he => absurd he List.not_mem_nil, rfl⟩
  | cons entry rest ih =>
    obtain ⟨name, image⟩ := entry
    intro shelf placements s t r h
    unfold placeImages at h
    split at h
    · cases h
    · rename_i hfit
      obtain ⟨right, _, hright, h⟩ := Mut.bind_eq_ok.mp h
      obtain ⟨border, _, hborder, h⟩ := Mut.bind_eq_ok.mp h
      obtain ⟨next, _, hnext, h⟩ := Mut.bind_eq_ok.mp h
      obtain ⟨step, _, hstep, h⟩ := Mut.bind_eq_ok.mp h
      obtain ⟨x, _, hx, h⟩ := Mut.bind_eq_ok.mp h
      obtain ⟨-, rfl, -⟩ := Mut.addU32_eq_ok.mp hright
      obtain ⟨-, rfl, -⟩ := Mut.addU32_eq_ok.mp hborder
      obtain ⟨-, rfl, -⟩ := Mut.addU32_eq_ok.mp hstep
      obtain ⟨-, rfl, -⟩ := Mut.addU32_eq_ok.mp hx
      obtain ⟨hrest, hlast⟩ := ih h
      rw [turnShelf_eq_ok hnext] at hlast
      exact ⟨List.forall_mem_cons.mpr ⟨DecodedImage.not_unfit_iff.mp hfit, hrest⟩, hlast⟩

end

/-! ### The whole atlas -/

section
variable (images : OrderedMap String DecodedImage)

def firstShelf : Packing.Shelf := ⟨atlasGutter, atlasGutter, 0⟩

def items : List Item := placed images.entries firstShelf

def placements : OrderedMap String (Nat × Nat) := insertAll ((items images).map Item.origin) .empty

/-- The height of all the shelves, with the gutter above them. -/
def neededHeight : Nat :=
  (shelves images.entries firstShelf).2.y + (shelves images.entries firstShelf).2.row + atlasGutter

def atlasHeight : Nat := 2 ^ Nat.clog 2 (neededHeight images)

def blankCanvas : Canvas :=
  ⟨List.replicate (atlasWidth * atlasHeight images * 4) 0, .empty, []⟩

def paintedCanvas : Canvas := (items images).foldl (stamp (atlasHeight images)) (blankCanvas images)

def paintedAtlas : TextureAtlasData :=
  ⟨atlasWidth, atlasHeight images, (paintedCanvas images).rgba, (paintedCanvas images).regions,
    (paintedCanvas images).animations⟩

end

section
variable {images : OrderedMap String DecodedImage}

theorem neededHeight_le : neededHeight images ≤ atlasHeight images :=
  Nat.le_pow_clog (by decide) _

theorem atlasHeight_le (h : neededHeight images ≤ maxAtlasSide) :
    atlasHeight images ≤ maxAtlasSide := by
  have hclog : Nat.clog 2 (neededHeight images) ≤ 12 :=
    Nat.clog_le_of_le_pow (h.trans (by decide))
  exact (Nat.pow_le_pow_right (by decide) hclog).trans (by decide)

theorem length_blankCanvas :
    (blankCanvas images).rgba.length = 4 * (atlasHeight images * atlasWidth) := by
  rw [blankCanvas, List.length_replicate, Nat.mul_comm 4, Nat.mul_comm atlasWidth]

variable (images) in
theorem shelves_sizes :
    (shelves images.entries firstShelf).1.map (fun b => (b.width, b.height)) =
      images.entries.map imageSize := Packing.layout_sizes _ _

theorem length_shelves :
    (shelves images.entries firstShelf).1.length = images.entries.length := by
  have hlength := congrArg List.length (shelves_sizes images)
  rw [List.length_map, List.length_map] at hlength
  exact hlength

theorem items_entries : (items images).map Prod.fst = images.entries :=
  List.map_fst_zip length_shelves.ge

theorem items_boxes :
    (items images).map Prod.snd = (shelves images.entries firstShelf).1 :=
  List.map_snd_zip length_shelves.le

theorem items_size {item : Item} (h : item ∈ items images) :
    item.2.width = item.1.2.width.toNat ∧ item.2.height = item.1.2.height.toNat := by
  have hsizes := shelves_sizes images
  rw [← List.forall₂_eq_eq_eq, List.forall₂_map_left_iff, List.forall₂_map_right_iff] at hsizes
  have hsize := (List.forall₂_iff_zip.mp hsizes.flip).2 h
  exact Prod.mk.inj hsize

theorem ascending_items {δ : Type} (f : Item → String × δ) (hf : ∀ item, (f item).1 = item.1.1) :
    Entries.Ascending ((items images).map f) := by
  have hnames := images.ascending
  rw [← items_entries] at hnames
  refine List.pairwise_map.mpr ((List.pairwise_map.mp hnames).imp fun {a b} hab => ?_)
  rw [hf, hf]
  exact hab

theorem lookup_placements {item : Item} (h : item ∈ items images) :
    (placements images).lookup item.1.1 = some (item.2.x, item.2.y) := by
  have hascending : Entries.Ascending ((items images).map Item.origin) :=
    ascending_items _ fun _ => rfl
  rw [← OrderedMap.mem_entries_iff]
  change _ ∈ (OrderedMap.ofList ((items images).map Item.origin)).entries
  rw [OrderedMap.entries_ofList hascending]
  exact List.mem_map_of_mem h

theorem shelves_holds (hfits : ∀ e ∈ images.entries, e.2.Fits) :
    (shelves images.entries firstShelf).2.Holds atlasWidth atlasGutter
      (shelves images.entries firstShelf).1 := by
  refine Packing.layout_holds (images.entries.map imageSize) ?_ Packing.Shelf.holds_nil
  intro size hsize
  obtain ⟨e, he, rfl⟩ := List.mem_map.mp hsize
  exact (hfits e he).notTooWide

theorem items_ready (hfits : ∀ e ∈ images.entries, e.2.Fits) :
    ∀ item ∈ items images, item.Ready (placements images) (atlasHeight images) := by
  intro item hitem
  obtain ⟨hwidth, hheight⟩ := items_size hitem
  have hentry : item.1 ∈ images.entries := items_entries ▸ List.mem_map_of_mem hitem
  have hbox : item.2 ∈ (shelves images.entries firstShelf).1 :=
    items_boxes ▸ List.mem_map_of_mem hitem
  obtain ⟨hleft, hright, hbottom, hbehind⟩ := (shelves_holds hfits).behind _ hbox
  have hneeded : neededHeight images ≤ atlasHeight images := neededHeight_le
  unfold neededHeight at hneeded
  rw [hwidth] at hright
  rw [hheight] at hbehind
  refine ⟨lookup_placements hitem, hfits _ hentry, hleft, hright, hbottom, ?_⟩
  omega

/-- The boxes of two images with their gutters are apart. -/
theorem items_apart (hfits : ∀ e ∈ images.entries, e.2.Fits) {item other : Item}
    (hitem : item ∈ items images) (hother : other ∈ items images) (hne : item ≠ other) :
    item.2.Apart atlasGutter other.2 := by
  have hapart := (shelves_holds hfits).apart
  rw [← items_boxes] at hapart
  have : Std.Symm fun a b : Item => a.2.Apart atlasGutter b.2 := ⟨fun _ _ h => h.symm⟩
  exact (List.pairwise_map.mp hapart).forall hitem hother hne

theorem length_paintedCanvas (hfits : ∀ e ∈ images.entries, e.2.Fits)
    (hneeded : neededHeight images ≤ maxAtlasSide) :
    (paintedCanvas images).rgba.length = 4 * (atlasHeight images * atlasWidth) := by
  have hheight := atlasHeight_le hneeded
  rw [paintedCanvas, foldl_stamp_rgba]
  refine (Cells.length_paint fun w hw => ?_).trans length_blankCanvas
  obtain ⟨item, hitem, hw⟩ := List.mem_flatMap.mp hw
  rw [length_blankCanvas]
  exact ((items_ready hfits item hitem).paints (ε := Unit) hheight).inside w hw

/-- Where the places of one row are numbered on from those of the row before, a number tells the
place. -/
theorem place_inj {width x y x' y' : Nat} (hx : x < width) (hx' : x' < width)
    (h : y * width + x = y' * width + x') : x = x' ∧ y = y' := by
  have hrow : y = y' := by
    have hdiv := congrArg (· / width) h
    have hpos : 0 < width := Nat.zero_lt_of_lt hx
    simp only [Nat.mul_comm _ width, Nat.mul_add_div hpos, Nat.div_eq_of_lt hx,
      Nat.div_eq_of_lt hx', Nat.add_zero] at hdiv
    exact hdiv
  subst hrow
  exact ⟨Nat.add_left_cancel h, rfl⟩

/-- No place belongs to the boxes of two images. -/
theorem items_disjoint (hfits : ∀ e ∈ images.entries, e.2.Fits) {item other : Item} {x y : Nat}
    (hitem : item ∈ items images) (hother : other ∈ items images)
    (h : Extended item.1.2 item.2.x item.2.y x y)
    (h' : Extended other.1.2 other.2.x other.2.y x y) : item = other := by
  by_contra hne
  have hapart := items_apart hfits hitem hother hne
  obtain ⟨hwidth, hheight⟩ := items_size hitem
  obtain ⟨hwidth', hheight'⟩ := items_size hother
  obtain ⟨hleft, hright, htop, hbottom⟩ := h
  obtain ⟨hleft', hright', htop', hbottom'⟩ := h'
  unfold Packing.Box.Apart at hapart
  omega

/-- What a place of an image holds in the end. -/
theorem cell_paintedCanvas (hfits : ∀ e ∈ images.entries, e.2.Fits)
    (hneeded : neededHeight images ≤ maxAtlasSide) {item : Item} (hitem : item ∈ items images)
    {x y : Nat} (h : Extended item.1.2 item.2.x item.2.y x y) :
    Cells.cell 4 (paintedCanvas images).rgba (y * atlasWidth + x) =
      sourcePixel item.1.2 item.2.x item.2.y x y := by
  have hheight := atlasHeight_le hneeded
  have hready := items_ready hfits
  rw [paintedCanvas, foldl_stamp_rgba]
  refine Cells.cell_paint (fun w hw => ?_) (fun w hw hplace => ?_) ?_
  · obtain ⟨other, hother, hw⟩ := List.mem_flatMap.mp hw
    rw [length_blankCanvas]
    exact ((hready other hother).paints (ε := Unit) hheight).inside w hw
  · obtain ⟨other, hother, hw⟩ := List.mem_flatMap.mp hw
    obtain ⟨x', y', h', rfl⟩ := (mem_imageWrites (hready other hother).inside).mp hw
    have hx := h.right.trans_le (hready item hitem).inside.right
    have hx' := h'.right.trans_le (hready other hother).inside.right
    obtain ⟨rfl, rfl⟩ := place_inj hx' hx hplace
    rw [items_disjoint hfits hother hitem h' h]
  · have hwrite := (mem_imageWrites (hready item hitem).inside).mpr ⟨x, y, h, rfl⟩
    exact ⟨_, List.mem_flatMap.mpr ⟨item, hitem, hwrite⟩, rfl⟩

end

/-! ### Packing -/

section
variable {ε : Type} {images : OrderedMap String DecodedImage}

theorem fillAtlas_eq (hfits : ∀ e ∈ images.entries, e.2.Fits)
    (hneeded : neededHeight images ≤ maxAtlasSide) :
    fillAtlas (ε := ε) images (placements images) (atlasHeight images)
      (blankCanvas images) = .ok (paintedAtlas images) (paintedCanvas images) := by
  have hforM := forM_packImage (ε := ε) (atlasHeight_le hneeded)
    (items images) (items_ready hfits) (blankCanvas images) length_blankCanvas
  rw [items_entries] at hforM
  unfold fillAtlas
  exact Mut.bind_of_ok hforM

/-- Images that fit in an atlas that is not too high are packed. -/
theorem packAtlas_eq (hfits : ∀ e ∈ images.entries, e.2.Fits)
    (hneeded : neededHeight images ≤ maxAtlasSide) :
    packAtlas (ε := ε) images () = .ok (paintedAtlas images) () := by
  have hheight := atlasHeight_le hneeded
  have hlimit : maxAtlasSide = 4096 := rfl
  have hwidth : atlasWidth = 2048 := rfl
  have harea : atlasWidth * atlasHeight images ≤ 2048 * 4096 := Nat.mul_le_mul_left _ hheight
  have hproduct : checkedMulU32 atlasWidth (atlasHeight images) =
      some (atlasWidth * atlasHeight images) := if_pos (by omega)
  have hlength : checkedMulU32 (atlasWidth * atlasHeight images) 4 =
      some (atlasWidth * atlasHeight images * 4) := if_pos (by omega)
  have hplaces := placeImages_eq (ε := ε) images.entries firstShelf .empty ()
    hfits (by decide) ((Nat.le_add_right _ _).trans hneeded)
  have htop : (shelves images.entries firstShelf).2.y +
      (shelves images.entries firstShelf).2.row + atlasGutter = neededHeight images := rfl
  have hpower : nextPowerOfTwo (ε := ε) (neededHeight images) () =
      .ok (atlasHeight images) () := by
    rw [nextPowerOfTwo, if_neg (by omega)]
    rfl
  unfold packAtlas
  refine (Mut.bind_of_ok hplaces).trans ?_
  dsimp only
  rw [Mut.bind_of_ok (Mut.addU32_eq_ok.mpr ⟨by omega, rfl, rfl⟩),
    Mut.bind_of_ok (Mut.addU32_eq_ok.mpr ⟨by omega, rfl, rfl⟩), htop, Mut.bind_of_ok hpower,
    if_neg (not_lt.mpr hheight), Mut.bind_of_ok (Mut.ofOption_eq_ok.mpr ⟨hproduct, rfl⟩),
    Mut.bind_of_ok (Mut.ofOption_eq_ok.mpr ⟨hlength, rfl⟩)]
  exact Mut.zoom_eq_ok.mpr ⟨_, fillAtlas_eq hfits hneeded, rfl⟩

/-- Only those are. -/
theorem packAtlas_eq_ok {atlas : TextureAtlasData}
    (h : packAtlas (ε := ε) images () = .ok atlas ()) :
    (∀ e ∈ images.entries, e.2.Fits) ∧ neededHeight images ≤ maxAtlasSide := by
  obtain ⟨r, _, hplaces, h⟩ := Mut.bind_eq_ok.mp h
  obtain ⟨hfits, hlast⟩ := placeImages_eq_ok images.entries hplaces
  obtain ⟨top, _, htop, h⟩ := Mut.bind_eq_ok.mp h
  obtain ⟨needed, _, hneeded, h⟩ := Mut.bind_eq_ok.mp h
  obtain ⟨height, _, hheight, hfilled⟩ := Mut.bind_eq_ok.mp h
  obtain ⟨-, htop, -⟩ := Mut.addU32_eq_ok.mp htop
  obtain ⟨-, hneeded, -⟩ := Mut.addU32_eq_ok.mp hneeded
  refine ⟨hfits, ?_⟩
  rw [htop, hlast] at hneeded
  split at hfilled
  · cases hfilled
  · rename_i hlimit
    unfold nextPowerOfTwo at hheight
    split at hheight
    · cases hheight
    · cases hheight
      rw [hneeded] at hlimit
      exact neededHeight_le.trans (not_lt.mp hlimit)

end

/-! ### What an atlas is for -/

/-- The pixel of a row of pixels that is nearest to a place. -/
def Nearest (origin size x u : Nat) : Prop :=
  u < size ∧ ∀ v < size, Nat.dist x (origin + u) ≤ Nat.dist x (origin + v)

def DecodedImage.pixel (image : DecodedImage) (u v : Nat) : List UInt8 :=
  Cells.cell 4 image.rgba (v * image.width.toNat + u)

def TextureAtlasData.pixel (atlas : TextureAtlasData) (x y : Nat) : List UInt8 :=
  Cells.cell 4 atlas.rgba (y * atlas.width + x)

/-- The images lie in the atlas, each with its upper left corner at its origin. -/
structure Packed (images : OrderedMap String DecodedImage) (atlas : TextureAtlasData)
    (origin : String → Nat × Nat) : Prop where
  width : atlas.width = atlasWidth
  height : atlas.height ≤ maxAtlasSide
  bytes : atlas.rgba.length = 4 * (atlas.height * atlas.width)
  inside : ∀ e ∈ images.entries, Inside e.2 (origin e.1).1 (origin e.1).2 atlas.height
  disjoint : ∀ e ∈ images.entries, ∀ f ∈ images.entries, e.1 ≠ f.1 → ∀ x y,
    Extended e.2 (origin e.1).1 (origin e.1).2 x y →
      ¬ Extended f.2 (origin f.1).1 (origin f.1).2 x y
  pixels : ∀ e ∈ images.entries, ∀ u < e.2.width.toNat, ∀ v < e.2.height.toNat,
    atlas.pixel ((origin e.1).1 + u) ((origin e.1).2 + v) = e.2.pixel u v
  gutter : ∀ e ∈ images.entries, ∀ x y, Extended e.2 (origin e.1).1 (origin e.1).2 x y →
    ∃ u v, Nearest (origin e.1).1 e.2.width.toNat x u ∧
      Nearest (origin e.1).2 e.2.height.toNat y v ∧ atlas.pixel x y = e.2.pixel u v
  regions : ∀ e ∈ images.entries, atlas.regions.lookup e.1 =
    some (exactRegion e.2 (origin e.1).1 (origin e.1).2 atlas.height)
  names : atlas.regions.keys = images.keys
  animations : atlas.animations =
    images.entries.flatMap fun e => animationData e.2 (origin e.1).1 (origin e.1).2

section
variable {ε : Type} {images : OrderedMap String DecodedImage}

/-- The clamped number is the nearest one, in the gutters too. -/
theorem nearest_clamp {origin size x : Nat} (hsize : 0 < size) (hleft : origin ≤ x + atlasGutter)
    (hright : x < origin + size + atlasGutter) :
    Nearest origin size x (min (x - origin) (size - 1)) := by
  refine ⟨by omega, fun v hv => ?_⟩
  unfold atlasGutter at hleft hright
  unfold Nat.dist
  omega

theorem exists_item {e : String × DecodedImage} (h : e ∈ images.entries) :
    ∃ item ∈ items images, item.1 = e :=
  List.mem_map.mp (items_entries.symm ▸ h)

variable (images) in
def originOf (name : String) : Nat × Nat := ((placements images).lookup name).getD (0, 0)

theorem originOf_eq {item : Item} (h : item ∈ items images) :
    originOf images item.1.1 = (item.2.x, item.2.y) := by
  rw [originOf, lookup_placements h]
  rfl

theorem paintedAtlas_regions : (paintedAtlas images).regions.entries = (items images).map
    fun item => (item.1.1, exactRegion item.1.2 item.2.x item.2.y (atlasHeight images)) := by
  change (paintedCanvas images).regions.entries = _
  rw [paintedCanvas, foldl_stamp_regions]
  exact OrderedMap.entries_ofList (ascending_items _ fun _ => rfl)

theorem paintedAtlas_animations : (paintedAtlas images).animations =
    (items images).flatMap fun item => animationData item.1.2 item.2.x item.2.y := by
  change (paintedCanvas images).animations = _
  rw [paintedCanvas, foldl_stamp_animations]
  rfl

theorem paintedAtlas_packed (hfits : ∀ e ∈ images.entries, e.2.Fits)
    (hneeded : neededHeight images ≤ maxAtlasSide) :
    Packed images (paintedAtlas images) (originOf images) where
  width := rfl
  height := atlasHeight_le hneeded
  bytes := length_paintedCanvas hfits hneeded
  inside e he := by
    obtain ⟨item, hitem, rfl⟩ := exists_item he
    rw [originOf_eq hitem]
    exact (items_ready hfits item hitem).inside
  disjoint e he f hf hne x y hplace hplace' := by
    obtain ⟨item, hitem, rfl⟩ := exists_item he
    obtain ⟨other, hother, rfl⟩ := exists_item hf
    rw [originOf_eq hitem] at hplace
    rw [originOf_eq hother] at hplace'
    exact hne (congrArg (·.1.1) (items_disjoint hfits hitem hother hplace hplace'))
  pixels e he u hu v hv := by
    obtain ⟨item, hitem, rfl⟩ := exists_item he
    have hplace : Extended item.1.2 item.2.x item.2.y (item.2.x + u) (item.2.y + v) := by
      refine ⟨?_, ?_, ?_, ?_⟩ <;> omega
    rw [originOf_eq hitem]
    refine (cell_paintedCanvas hfits hneeded hitem hplace).trans ?_
    rw [sourcePixel, Nat.add_sub_cancel_left, Nat.add_sub_cancel_left,
      Nat.min_eq_left (Nat.le_sub_one_of_lt hu), Nat.min_eq_left (Nat.le_sub_one_of_lt hv)]
    rfl
  gutter e he x y hplace := by
    obtain ⟨item, hitem, rfl⟩ := exists_item he
    rw [originOf_eq hitem] at hplace ⊢
    have hfit := hfits _ he
    exact ⟨_, _, nearest_clamp hfit.wide hplace.left hplace.right,
      nearest_clamp hfit.high hplace.top hplace.bottom,
      cell_paintedCanvas hfits hneeded hitem hplace⟩
  regions e he := by
    obtain ⟨item, hitem, rfl⟩ := exists_item he
    rw [originOf_eq hitem, ← OrderedMap.mem_entries_iff, paintedAtlas_regions]
    exact List.mem_map_of_mem hitem
  names := by
    rw [OrderedMap.keys, paintedAtlas_regions, List.map_map, OrderedMap.keys, ← items_entries,
      List.map_map]
    rfl
  animations := by
    rw [paintedAtlas_animations, ← items_entries, List.flatMap_map]
    refine List.flatMap_congr fun item hitem => ?_
    rw [originOf_eq hitem]

/-- The atlas that is returned is packed, and none is returned only where an image is empty, too
wide, too high or of the wrong length, or all of them need too much height. -/
theorem packAtlas_packed (images : OrderedMap String DecodedImage) :
    (∀ atlas, packAtlas (ε := ε) images () = .ok atlas () → ∃ origin, Packed images atlas origin) ∧
      ((∀ atlas, packAtlas (ε := ε) images () ≠ .ok atlas ()) ↔
        (∃ e ∈ images.entries, ¬ e.2.Fits) ∨ maxAtlasSide < neededHeight images) := by
  constructor
  · intro atlas h
    obtain ⟨hfits, hneeded⟩ := packAtlas_eq_ok h
    rw [packAtlas_eq hfits hneeded] at h
    cases h
    exact ⟨originOf images, paintedAtlas_packed hfits hneeded⟩
  · constructor
    · intro h
      by_contra hnone
      obtain ⟨hunfit, hneeded⟩ := not_or.mp hnone
      have hfits : ∀ e ∈ images.entries, e.2.Fits := fun e he =>
        by_contra fun hfit => hunfit ⟨e, he, hfit⟩
      exact h _ (packAtlas_eq hfits (not_lt.mp hneeded))
    · intro h atlas hatlas
      obtain ⟨hfits, hneeded⟩ := packAtlas_eq_ok hatlas
      rcases h with ⟨e, he, hfit⟩ | hhigh
      · exact hfit (hfits e he)
      · exact not_lt.mpr hneeded hhigh

end

/-! One pixel. -/

def onePixel : DecodedImage := ⟨1, 1, [1, 2, 3, 255], false, [[1, 2, 3, 255]], none⟩

def oneImage : OrderedMap String DecodedImage := ⟨[("a", onePixel)], List.pairwise_singleton _ _⟩

theorem packAtlas_packed_oneImage :
    ∃ atlas origin, packAtlas (ε := Unit) oneImage () = .ok atlas () ∧
      Packed oneImage atlas origin := by
  obtain ⟨hpacked, hfails⟩ := packAtlas_packed (ε := Unit) oneImage
  have hfit : onePixel.Fits := DecodedImage.not_unfit_iff.mp (by decide)
  have hsucceeds : ∃ atlas, packAtlas (ε := Unit) oneImage () = .ok atlas () := by
    by_contra hnone
    rcases hfails.mp fun atlas h => hnone ⟨atlas, h⟩ with ⟨e, he, hunfit⟩ | hhigh
    · rw [List.mem_singleton.mp he] at hunfit
      exact hunfit hfit
    · exact absurd hhigh (by decide)
  obtain ⟨atlas, h⟩ := hsucceeds
  obtain ⟨origin, horigin⟩ := hpacked atlas h
  exact ⟨atlas, origin, h, horigin⟩

end Cubic.BlockResources
