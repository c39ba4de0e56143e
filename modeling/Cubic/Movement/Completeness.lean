import Cubic.Movement.Obstacles
import Mathlib.Tactic.Linarith

/-!
# Which boxes the obstacles leave out

The range of cells is wide enough for every box the envelope goes around. What is lost are
the boxes after the eighth of a shape, and the offset of a full cube.
-/

namespace Cubic.Movement

set_option autoImplicit false

open Cubic.Version Cubic.World

/-! ### The envelope -/

theorem Aabb.encloses_join_left (a b : Aabb) : (a.join b).Encloses a :=
  ⟨inf_le_left, inf_le_left, inf_le_left, le_sup_left, le_sup_left, le_sup_left⟩

theorem Aabb.encloses_join_right (a b : Aabb) : (a.join b).Encloses b :=
  ⟨inf_le_right, inf_le_right, inf_le_right, le_sup_right, le_sup_right, le_sup_right⟩

/-- A fold by an operation whose results cover both arguments covers all it went through. -/
theorem foldl_covers {α : Type} {Covers : α → α → Prop} {op : α → α → α}
    (hrefl : ∀ a, Covers a a) (htrans : ∀ {a b c}, Covers a b → Covers b c → Covers a c)
    (hleft : ∀ a b, Covers (op a b) a) (hright : ∀ a b, Covers (op a b) b) (xs : List α) :
    ∀ start, Covers (xs.foldl op start) start ∧ ∀ x ∈ xs, Covers (xs.foldl op start) x := by
  induction xs with
  | nil => exact fun start => ⟨hrefl start, fun x hx => absurd hx List.not_mem_nil⟩
  | cons first rest ih =>
    intro start
    obtain ⟨hstart, hrest⟩ := ih (op start first)
    refine ⟨htrans hstart (hleft start first), fun x hx => ?_⟩
    rcases List.mem_cons.mp hx with rfl | hx
    · exact htrans hstart (hright start x)
    · exact hrest x hx

theorem encloses_foldl_join (boxes : List Aabb) (start : Aabb) :
    (boxes.foldl Aabb.join start).Encloses start ∧
      ∀ b ∈ boxes, (boxes.foldl Aabb.join start).Encloses b :=
  foldl_covers Aabb.Encloses.refl Aabb.Encloses.trans Aabb.encloses_join_left
    Aabb.encloses_join_right boxes start

theorem le_foldl_max (xs : List ℚ) (start : ℚ) :
    start ≤ xs.foldl max start ∧ ∀ a ∈ xs, a ≤ xs.foldl max start :=
  @foldl_covers ℚ (fun a b => b ≤ a) max le_refl (fun h h' => h'.trans h) le_max_left
    le_max_right xs start

/-- An offset of at most `horizontal` stays within what is widened by it. -/
theorem Aabb.Encloses.widened {outer inner : Aabb} (h : outer.Encloses inner) {x z horizontal : ℚ}
    (hx : |x| ≤ horizontal) (hz : |z| ≤ horizontal) :
    (outer.widened horizontal).Encloses (inner.translated x 0 z) := by
  obtain ⟨hx₁, hx₂⟩ := abs_le.mp hx
  obtain ⟨hz₁, hz₂⟩ := abs_le.mp hz
  obtain ⟨h₁, h₂, h₃, h₄, h₅, h₆⟩ := h
  simp only [Aabb.widened, Aabb.translated, Vec3d.translated]
  constructor <;> simp only <;> linarith

/-! ### Offsets -/

theorem abs_clamp_le {a maximum : ℚ} (h : 0 ≤ maximum) :
    |CollisionOffset.clamp a maximum| ≤ maximum := by
  rw [abs_le]
  exact ⟨le_max_left _ _, max_le (by linarith) (min_le_right _ _)⟩

/-- An offset is horizontal, and bounded along each axis. -/
theorem offset_at_bounded (offset : CollisionOffset) (x z : Int32) :
    |(offset.at x z).x| ≤ offset.maximumHorizontal ∧ (offset.at x z).y = 0 ∧
      |(offset.at x z).z| ≤ offset.maximumHorizontal := by
  cases offset with
  | none => exact ⟨abs_zero.le, rfl, abs_zero.le⟩
  | deterministicHorizontal max =>
    have hnonneg : (0 : ℚ) ≤ max.toNat / 16 := by positivity
    exact ⟨abs_clamp_le hnonneg, rfl, abs_clamp_le hnonneg⟩

theorem maximumHorizontal_nonneg (offset : CollisionOffset) : 0 ≤ offset.maximumHorizontal := by
  cases offset with
  | none => exact le_rfl
  | deterministicHorizontal max =>
    have hnonneg : (0 : ℚ) ≤ max.toNat / 16 := by positivity
    exact hnonneg

/-! ### Profiles -/

/-- The profiles the program builds. -/
inductive Built (classifyShape : ShapeTable) (scaffolding : RuntimeBlockStateId → Bool) :
    BlockCollisionProfile → Prop where
  | fromGameData (readJson : Bytes → Except JsonError ShapeData) (artifact : Bytes)
      (version : MinecraftVersionId) (blocks : List BlockDefinition) :
      Built classifyShape scaffolding (.fromGameData version classifyShape scaffolding
        (shapeDataFor readJson artifact version).toOption.join blocks)
  | synthetic (states : List (RuntimeBlockStateId × CollisionShape)) :
      Built classifyShape scaffolding (.synthetic states)

/-- Every box counted for the envelope, and the unit cube, lie within it at every offset. -/
def BlockCollisionProfile.Enveloped (profile : BlockCollisionProfile) : Prop :=
  ∀ (state : RuntimeBlockStateId) (x z : Int32),
    ∀ box ∈ fullCubeBounds :: (profile.shape state).envelopeBoxes,
      profile.sourceShapeBounds.Encloses
        (box.translated (profile.offset state x z).x (profile.offset state x z).y
          (profile.offset state x z).z)

theorem enveloped_of_envelope {profile : BlockCollisionProfile} {horizontal : ℚ}
    (hnonneg : 0 ≤ horizontal)
    (hbounds : profile.sourceShapeBounds =
      collisionShapeEnvelope profile.states.values horizontal)
    (hoffsets : ∀ offset ∈ profile.offsets.values, offset.maximumHorizontal ≤ horizontal) :
    profile.Enveloped := by
  intro state x z box hbox
  obtain ⟨hstart, hboxes⟩ := encloses_foldl_join
    (profile.states.values.flatMap CollisionShape.envelopeBoxes) fullCubeBounds
  have hinner : ((profile.states.values.flatMap CollisionShape.envelopeBoxes).foldl Aabb.join
      fullCubeBounds).Encloses box := by
    rcases List.mem_cons.mp hbox with rfl | hbox
    · exact hstart
    · apply hboxes
      unfold BlockCollisionProfile.shape at hbox
      cases hshape : profile.states.lookup state with
      | none =>
        rw [hshape] at hbox
        exact absurd hbox List.not_mem_nil
      | some shape =>
        rw [hshape] at hbox
        exact List.mem_flatMap.mpr ⟨shape, OrderedMap.mem_values_of_lookup hshape, hbox⟩
  have hmax : ((profile.offsets.lookup state).getD .none).maximumHorizontal ≤ horizontal := by
    cases hoffset : profile.offsets.lookup state with
    | none => exact hnonneg
    | some offset => exact hoffsets offset (OrderedMap.mem_values_of_lookup hoffset)
  obtain ⟨hx, hy, hz⟩ := offset_at_bounded ((profile.offsets.lookup state).getD .none) x z
  have hwidened := hinner.widened (hx.trans hmax) (hz.trans hmax)
  rw [hbounds]
  unfold BlockCollisionProfile.offset
  rw [hy]
  exact hwidened

variable {classifyShape : ShapeTable} {scaffolding : RuntimeBlockStateId → Bool}
  {profile : BlockCollisionProfile}

theorem Built.enveloped (h : Built classifyShape scaffolding profile) : profile.Enveloped := by
  cases h with
  | fromGameData readJson artifact version blocks =>
    obtain ⟨hnonneg, hall⟩ := le_foldl_max
      ((BlockCollisionProfile.fromGameData version classifyShape scaffolding
        (shapeDataFor readJson artifact version).toOption.join blocks).offsets.values.map
          CollisionOffset.maximumHorizontal) 0
    exact enveloped_of_envelope hnonneg rfl fun offset hoffset =>
      hall _ (List.mem_map_of_mem hoffset)
  | synthetic states =>
    refine enveloped_of_envelope le_rfl rfl fun offset hoffset => ?_
    obtain ⟨entry, hentry, rfl⟩ := List.mem_map.mp hoffset
    obtain ⟨state, -, rfl⟩ := List.mem_map.mp (OrderedMap.mem_of_mem_ofList hentry)
    exact le_rfl

/-! ### Cells -/

theorem mem_inclusive {range : Int32 × Int32} {a : Int32} :
    a ∈ inclusive range ↔ range.1.toInt ≤ a.toInt ∧ a.toInt ≤ range.2.toInt := by
  have hlow := range.1.le_toInt
  have hhigh := range.2.toInt_lt
  unfold inclusive
  constructor
  · intro h
    obtain ⟨k, hk, rfl⟩ := List.mem_map.mp h
    have hk := List.mem_range.mp hk
    rw [Int32.toInt_ofInt_of_le (by omega) (by omega)]
    omega
  · rintro ⟨hle, hge⟩
    refine List.mem_map.mpr ⟨(a.toInt - range.1.toInt).toNat, List.mem_range.mpr (by omega), ?_⟩
    have hback : range.1.toInt + ((a.toInt - range.1.toInt).toNat : Int) = a.toInt := by omega
    rw [hback, Int32.ofInt_toInt]

theorem mem_cellsOf {xs ys zs : Int32 × Int32} {cell : BlockCoordinates} :
    cell ∈ cellsOf xs ys zs ↔
      cell.x ∈ inclusive xs ∧ cell.y ∈ inclusive ys ∧ cell.z ∈ inclusive zs := by
  unfold cellsOf
  simp only [List.mem_flatMap, List.mem_map]
  constructor
  · rintro ⟨y, hy, z, hz, x, hx, rfl⟩
    exact ⟨hx, hy, hz⟩
  · rintro ⟨hx, hy, hz⟩
    exact ⟨cell.y, hy, cell.z, hz, cell.x, hx, rfl⟩

/-- The scanned range holds every cell one of whose boxes overlaps the broadphase, as long as
the box lies within the local bounds. -/
theorem mem_sourceCellRange {broadMin broadMax localMin localMax boxMin boxMax : ℚ} {p : Int32}
    (hmin : localMin ≤ boxMin) (hmax : boxMax ≤ localMax)
    (h : overlaps broadMin broadMax (boxMin + p.toInt) (boxMax + p.toInt)) :
    p ∈ inclusive (sourceCellRange broadMin broadMax localMin localMax) := by
  have hepsilon : 0 < collisionEpsilon := by norm_num [collisionEpsilon]
  have hnegative := le_max_left (-localMin) 0
  have hpositive := le_max_left (localMax - 1) 0
  obtain ⟨h₁, h₂⟩ := h
  refine mem_inclusive.mpr ⟨floorAsI32_le ?_, le_floorAsI32 ?_⟩
  · linarith
  · linarith

variable {broadphase : Aabb} {chunks : LoadedChunks} {geometry : DimensionGeometry}

theorem mem_sourceCells (h : profile.Enveloped) {state : RuntimeBlockStateId}
    {position : BlockCoordinates} {box : Aabb}
    (hbox : box ∈ fullCubeBounds :: (profile.shape state).envelopeBoxes)
    (hoverlap : aabbsOverlap broadphase (profile.worldBox state position box)) :
    position ∈ sourceCells broadphase profile := by
  have hencloses := h state position.x position.z box hbox
  obtain ⟨hx, hy, hz⟩ := hoverlap
  simp only [BlockCollisionProfile.worldBox, Aabb.translated, Vec3d.translated] at hx hy hz
  refine mem_cellsOf.mpr ⟨?_, ?_, ?_⟩
  · refine mem_sourceCellRange hencloses.minX hencloses.maxX ?_
    simp only [Aabb.translated, Vec3d.translated]
    rwa [add_assoc, add_assoc, add_comm _ (position.x.toInt : ℚ)]
  · refine mem_sourceCellRange hencloses.minY hencloses.maxY ?_
    simp only [Aabb.translated, Vec3d.translated]
    rwa [add_assoc, add_assoc, add_comm _ (position.y.toInt : ℚ)]
  · refine mem_sourceCellRange hencloses.minZ hencloses.maxZ ?_
    simp only [Aabb.translated, Vec3d.translated]
    rwa [add_assoc, add_assoc, add_comm _ (position.z.toInt : ℚ)]

/-! ### Contributions -/

/-- Where no sum overflows, every scanned cell adds its boxes in one piece. -/
theorem collectFrom_contributions {cells : List BlockCoordinates} : ∀ {obstacles : List Aabb},
    collectFrom chunks geometry profile cells () = .ok obstacles () → ∀ cell ∈ cells,
      ∃ own, cellBoxes chunks geometry profile cell () = .ok own () ∧ own <:+: obstacles := by
  induction cells with
  | nil => exact fun _ cell hcell => absurd hcell List.not_mem_nil
  | cons first rest ih =>
    intro obstacles h cell hcell
    obtain ⟨own, _, hown, h⟩ := Mut.bind_eq_ok.mp h
    obtain ⟨others, _, hothers, h⟩ := Mut.bind_eq_ok.mp h
    cases h
    rcases List.mem_cons.mp hcell with rfl | hcell
    · exact ⟨own, hown, (List.prefix_append own others).isInfix⟩
    · obtain ⟨own', hown', hinfix⟩ := ih hothers cell hcell
      exact ⟨own', hown', hinfix.trans (List.suffix_append own others).isInfix⟩

/-- A loaded position within the height adds the boxes of its state. -/
theorem cellBoxes_eq (hvalid : geometry.Valid) {position : BlockCoordinates}
    {state : RuntimeBlockStateId} (hheight : geometry.Contains position.y)
    (hstate : blockStateAt chunks geometry position = some state) :
    cellBoxes chunks geometry profile position () =
      .ok (stateBoxes profile state position) () := by
  have hbottom := hvalid.bottom
  have htop := hvalid.top
  obtain ⟨hlow, hhigh⟩ := hheight
  have hcast : heightAsI32 geometry = geometry.height.toInt32 := by
    unfold heightAsI32 i32TryFromU32 i32Max
    rw [if_pos (by omega)]
    rfl
  have hend := toInt_end hvalid
  have hsum : checkedAddI32 geometry.minY (heightAsI32 geometry) =
      some (geometry.minY + geometry.height.toInt32) := by
    unfold checkedAddI32
    rw [hcast, toInt_toInt32 (by omega), if_pos (by omega)]
  unfold cellBoxes
  rw [if_neg (by rw [Int32.lt_iff_toInt_lt]; omega), hsum]
  change (if geometry.minY + geometry.height.toInt32 ≤ position.y then _ else _ :
    Simulation (List Aabb)) () = _
  rw [if_neg (by rw [Int32.le_iff_toInt_le]; omega), hstate]
  rfl

theorem translated_inj {a b : Aabb} {x y z : ℚ} (h : a.translated x y z = b.translated x y z) :
    a = b := by
  obtain ⟨⟨_, _, _⟩, ⟨_, _, _⟩⟩ := a
  obtain ⟨⟨_, _, _⟩, ⟨_, _, _⟩⟩ := b
  simp only [Aabb.translated, Vec3d.translated, Aabb.mk.injEq, Vec3d.mk.injEq, add_left_inj] at h
  obtain ⟨⟨rfl, rfl, rfl⟩, rfl, rfl, rfl⟩ := h
  rfl

theorem worldBox_fullCube {state : RuntimeBlockStateId} {position : BlockCoordinates} :
    profile.worldBox state position fullCubeBounds = cubeAt position ↔
      profile.offset state position.x position.z = CollisionOffset.zero := by
  unfold BlockCollisionProfile.worldBox
  generalize profile.offset state position.x position.z = offset
  obtain ⟨x, y, z⟩ := offset
  simp only [fullCubeBounds, cubeAt, Aabb.translated, Vec3d.translated, CollisionOffset.zero,
    Aabb.mk.injEq, Vec3d.mk.injEq]
  constructor
  · rintro ⟨⟨hx, hy, hz⟩, -⟩
    exact ⟨by linarith, by linarith, by linarith⟩
  · rintro ⟨rfl, rfl, rfl⟩
    refine ⟨⟨?_, ?_, ?_⟩, ?_, ?_, ?_⟩ <;> ring

/-- What the loop adds for the state has this box where the block is: it is one of the first
boxes of its shape, or the cube of a block without an offset. -/
def Kept (profile : BlockCollisionProfile) (state : RuntimeBlockStateId)
    (position : BlockCoordinates) (box : Aabb) : Prop :=
  match profile.shape state with
  | .empty => False
  | .fullCube => profile.offset state position.x position.z = CollisionOffset.zero
  | .boxes boxes => box ∈ boxes.take maxCollisionBoxesPerState

theorem mem_stateBoxes_iff {state : RuntimeBlockStateId} {position : BlockCoordinates} {box : Aabb}
    (hbox : box ∈ (profile.shape state).all) :
    profile.worldBox state position box ∈ stateBoxes profile state position ↔
      Kept profile state position box := by
  unfold stateBoxes Kept
  cases hshape : profile.shape state with
  | empty => exact List.mem_nil_iff _
  | fullCube =>
    rw [hshape] at hbox
    rw [List.mem_singleton.mp hbox]
    exact List.mem_singleton.trans worldBox_fullCube
  | boxes boxes =>
    constructor
    · intro h
      obtain ⟨other, hother, heq⟩ := List.mem_map.mp h
      exact translated_inj heq ▸ hother
    · exact List.mem_map_of_mem

/-- Whatever is kept counts for the envelope. -/
theorem Kept.counted {state : RuntimeBlockStateId} {position : BlockCoordinates} {box : Aabb}
    (h : Kept profile state position box) (hbox : box ∈ (profile.shape state).all) :
    box ∈ fullCubeBounds :: (profile.shape state).envelopeBoxes := by
  unfold Kept at h
  cases hshape : profile.shape state with
  | empty =>
    rw [hshape] at h
    exact h.elim
  | fullCube =>
    rw [hshape] at hbox
    exact List.mem_cons.mpr (.inl (List.mem_singleton.mp hbox))
  | boxes boxes =>
    rw [hshape] at h
    exact List.mem_cons_of_mem _ h

theorem overlapsBlock_iff {bounds : Aabb} {state : RuntimeBlockStateId}
    {position : BlockCoordinates} : profile.overlapsBlock bounds state position = true ↔
      ∃ box ∈ (profile.shape state).all,
        aabbsOverlap bounds (profile.worldBox state position box) := by
  unfold BlockCollisionProfile.overlapsBlock
  cases profile.shape state with
  | empty =>
    refine iff_of_false Bool.false_ne_true ?_
    rintro ⟨box, hbox, -⟩
    exact List.not_mem_nil hbox
  | fullCube =>
    refine decide_eq_true_iff.trans ⟨fun h => ⟨_, List.mem_singleton_self _, h⟩, ?_⟩
    rintro ⟨box, hbox, h⟩
    rw [← List.mem_singleton.mp hbox]
    exact h
  | boxes boxes =>
    refine List.any_eq_true.trans ⟨?_, ?_⟩
    · rintro ⟨box, hbox, h⟩
      exact ⟨box, hbox, of_decide_eq_true h⟩
    · rintro ⟨box, hbox, h⟩
      exact ⟨box, hbox, decide_eq_true h⟩

/-! ### Completeness -/

/-- The loop put `box` into the obstacles when it came to `position`. -/
def Contributes (broadphase : Aabb) (chunks : LoadedChunks) (geometry : DimensionGeometry)
    (profile : BlockCollisionProfile) (obstacles : List Aabb) (position : BlockCoordinates)
    (box : Aabb) : Prop :=
  position ∈ sourceCells broadphase profile ∧
    ∃ own, cellBoxes chunks geometry profile position () = .ok own () ∧ own <:+: obstacles ∧
      box ∈ own

/-- A position of the geometry whose chunk is loaded, with its state. -/
def Loaded (chunks : LoadedChunks) (geometry : DimensionGeometry) (position : BlockCoordinates)
    (state : RuntimeBlockStateId) : Prop :=
  geometry.Contains position.y ∧ blockStateAt chunks geometry position = some state

structure Complete (broadphase : Aabb) (chunks : LoadedChunks) (geometry : DimensionGeometry)
    (profile : BlockCollisionProfile) (obstacles : List Aabb) : Prop where
  contributes : ∀ position state, Loaded chunks geometry position state →
    ∀ box ∈ (profile.shape state).all,
      aabbsOverlap broadphase (profile.worldBox state position box) →
        Contributes broadphase chunks geometry profile obstacles position
          (profile.worldBox state position box)
  blocks : ∀ b, broadphase.Encloses b → ∀ position state, Loaded chunks geometry position state →
    profile.overlapsBlock b state position = true → ∃ obstacle ∈ obstacles, aabbsOverlap b obstacle

/-- The obstacles are complete exactly if every box of a loaded block that overlaps the
broadphase is among the first eight of its shape, and every full cube that does so has no
offset. -/
theorem collectObstacles_complete_iff (hbuilt : Built classifyShape scaffolding profile)
    (hgeometry : validateDimensionGeometry geometry = .ok ()) {obstacles : List Aabb}
    (h : collectObstacles broadphase chunks geometry profile () = .ok obstacles ()) :
    Complete broadphase chunks geometry profile obstacles ↔
      ∀ position state, Loaded chunks geometry position state →
        ∀ box ∈ (profile.shape state).all,
          aabbsOverlap broadphase (profile.worldBox state position box) →
            Kept profile state position box := by
  have hvalid := DimensionGeometry.valid_of_validate hgeometry
  have hcollect : collectFrom chunks geometry profile (sourceCells broadphase profile) () =
      .ok obstacles () := by
    obtain ⟨_, _, _, h⟩ := Mut.bind_eq_ok.mp h
    obtain ⟨_, _, _, h⟩ := Mut.bind_eq_ok.mp h
    obtain ⟨_, _, _, h⟩ := Mut.bind_eq_ok.mp h
    split at h
    · cases h
    · exact h
  constructor
  · intro hcomplete position state hloaded box hbox hoverlap
    obtain ⟨_, own, hown, _, hmem⟩ := hcomplete.contributes position state hloaded box hbox hoverlap
    cases (cellBoxes_eq hvalid hloaded.1 hloaded.2).symm.trans hown
    exact (mem_stateBoxes_iff hbox).mp hmem
  · intro hkept
    have hcontributes : ∀ position state, Loaded chunks geometry position state →
        ∀ box ∈ (profile.shape state).all,
          aabbsOverlap broadphase (profile.worldBox state position box) →
            Contributes broadphase chunks geometry profile obstacles position
              (profile.worldBox state position box) := by
      intro position state hloaded box hbox hoverlap
      have hthis := hkept position state hloaded box hbox hoverlap
      have hcell := mem_sourceCells hbuilt.enveloped (hthis.counted hbox) hoverlap
      obtain ⟨own, hown, hinfix⟩ := collectFrom_contributions hcollect position hcell
      refine ⟨hcell, own, hown, hinfix, ?_⟩
      cases (cellBoxes_eq hvalid hloaded.1 hloaded.2).symm.trans hown
      exact (mem_stateBoxes_iff hbox).mpr hthis
    refine ⟨hcontributes, fun b hb position state hloaded hblock => ?_⟩
    obtain ⟨box, hbox, hoverlap⟩ := overlapsBlock_iff.mp hblock
    obtain ⟨_, own, _, hinfix, hmem⟩ :=
      hcontributes position state hloaded box hbox (hb.overlap hoverlap)
    exact ⟨_, hinfix.subset hmem, hoverlap⟩

/-! ### A cauldron -/

/-- The collision shape of a cauldron, as the artifact of version 26.1.2 lists it. -/
def cauldronBoxes : List Aabb :=
  [⟨⟨0, 0, 0⟩, ⟨1 / 8, 1, 1 / 4⟩⟩, ⟨⟨0, 0, 3 / 4⟩, ⟨1 / 8, 1, 1⟩⟩,
    ⟨⟨0, 3 / 16, 1 / 4⟩, ⟨1, 1 / 4, 3 / 4⟩⟩, ⟨⟨0, 1 / 4, 1 / 4⟩, ⟨1 / 8, 1, 3 / 4⟩⟩,
    ⟨⟨1 / 8, 0, 0⟩, ⟨1 / 4, 1, 1 / 8⟩⟩, ⟨⟨1 / 8, 0, 7 / 8⟩, ⟨1 / 4, 1, 1⟩⟩,
    ⟨⟨1 / 8, 3 / 16, 1 / 8⟩, ⟨7 / 8, 1 / 4, 1 / 4⟩⟩,
    ⟨⟨1 / 8, 3 / 16, 3 / 4⟩, ⟨7 / 8, 1 / 4, 7 / 8⟩⟩,
    ⟨⟨1 / 4, 3 / 16, 0⟩, ⟨3 / 4, 1, 1 / 8⟩⟩, ⟨⟨1 / 4, 3 / 16, 7 / 8⟩, ⟨3 / 4, 1, 1⟩⟩,
    ⟨⟨3 / 4, 0, 0⟩, ⟨1, 1, 1 / 8⟩⟩, ⟨⟨3 / 4, 0, 7 / 8⟩, ⟨1, 1, 1⟩⟩,
    ⟨⟨7 / 8, 0, 1 / 8⟩, ⟨1, 1, 1 / 4⟩⟩, ⟨⟨7 / 8, 0, 3 / 4⟩, ⟨1, 1, 7 / 8⟩⟩,
    ⟨⟨7 / 8, 1 / 4, 1 / 4⟩, ⟨1, 1, 3 / 4⟩⟩]

def cauldronProfile : BlockCollisionProfile := .synthetic [(⟨9460⟩, .boxes cauldronBoxes)]

/-- One chunk with one section of cauldrons. -/
def cauldronChunks : LoadedChunks :=
  OrderedMap.empty.insert ⟨0, 0⟩ ⟨⟨0, 0⟩, [⟨4096, 0, .single ⟨9460⟩ 4096, .single ⟨0⟩ 64⟩], [], [],
    ⟨[], [], [], [], 0, 0, [], []⟩⟩

/-- A box within the ninth box of the cauldron at the origin. -/
def withinNorthWall : Aabb := ⟨⟨2 / 5, 1 / 2, 1 / 32⟩, ⟨3 / 5, 3 / 4, 1 / 16⟩⟩

theorem collectObstacles_misses_northWall :
    Built (fun _ _ => .empty) (fun _ => false) cauldronProfile ∧
      validateDimensionGeometry ⟨0, 16⟩ = .ok () ∧
      collectObstacles withinNorthWall cauldronChunks ⟨0, 16⟩ cauldronProfile () =
        .ok (cauldronBoxes.take 8) () ∧
      cauldronProfile.overlapsBlock withinNorthWall ⟨9460⟩ ⟨0, 0, 0⟩ = true ∧
      ¬ Complete withinNorthWall cauldronChunks ⟨0, 16⟩ cauldronProfile (cauldronBoxes.take 8) := by
  have hloaded : Loaded cauldronChunks ⟨0, 16⟩ ⟨0, 0, 0⟩ ⟨9460⟩ := ⟨by decide, by decide +kernel⟩
  have hblock : cauldronProfile.overlapsBlock withinNorthWall ⟨9460⟩ ⟨0, 0, 0⟩ = true := by
    decide +kernel
  have hfree : ∀ obstacle ∈ cauldronBoxes.take 8, ¬ aabbsOverlap withinNorthWall obstacle := by
    decide +kernel
  refine ⟨.synthetic _, by decide, by decide +kernel, hblock, fun hcomplete => ?_⟩
  obtain ⟨obstacle, hmem, hoverlap⟩ := hcomplete.blocks _ (.refl _) _ _ hloaded hblock
  exact hfree obstacle hmem hoverlap

/-- Blocks of unknown states are full cubes without an offset. -/
theorem collectObstacles_complete_cubes :
    Complete withinNorthWall cauldronChunks ⟨0, 16⟩ (.synthetic []) [fullCubeBounds] := by
  have hcollect : collectObstacles withinNorthWall cauldronChunks ⟨0, 16⟩ (.synthetic []) () =
      .ok [fullCubeBounds] () := by
    decide +kernel
  have hbuilt : Built (fun _ _ => .empty) (fun _ => false) (.synthetic []) := .synthetic []
  exact (collectObstacles_complete_iff hbuilt (by decide) hcollect).mpr
    fun _ _ _ _ _ _ => rfl

end Cubic.Movement
