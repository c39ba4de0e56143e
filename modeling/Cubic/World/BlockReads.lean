import Cubic.Play.ChunkTotal
import Cubic.World.EveryChunk

/-!
# Reading a block (`interaction.rs`, `world_movement.rs`, `movement.rs`)

Three lookups split a position into chunk, section and local part, each in its own way. In a
valid geometry they read the slot that an update to the position writes.
-/

namespace Cubic.World

set_option autoImplicit false

variable {Rest : Type} {geometry : DimensionGeometry} {chunks : LoadedChunks}

/-! ### The three lookups -/

def Raycast.blockStateAt (chunks : LoadedChunks) (geometry : DimensionGeometry)
    (position : BlockCoordinates) : Option RuntimeBlockStateId :=
  if position.y < geometry.minY ∨ geometry.minY + geometry.height.toInt32 ≤ position.y then none
  else do
    let chunk ← chunks.get (chunkOf position)
    let sectionOffset ← usizeTryFrom (divEuclid (position.y - geometry.minY) 16)
    let blockSection ← chunk.sections[sectionOffset]?
    let x ← u8TryFrom (remEuclid position.x 16)
    let y ← u8TryFrom (remEuclid position.y 16)
    let z ← u8TryFrom (remEuclid position.z 16)
    blockSection.block x y z

/-- `i32::try_from` of a `u32` -/
def i32TryFromU32 (a : UInt32) : Option Int32 := if a.toNat ≤ i32Max then some a.toInt32 else none

def WorldState.worldBlockState (world : WorldState Rest) (position : BlockCoordinates) :
    Option RuntimeBlockStateId := do
  let geometry := (← world.session).dimensionGeometry
  let height ← i32TryFromU32 geometry.height
  if position.y < geometry.minY then none
  else
    let top ← checkedAddI32 geometry.minY height
    if top ≤ position.y then none
    else
      let chunk ← world.chunks.get (chunkOf position)
      let sectionOffset ← usizeTryFrom (divEuclid position.y 16 - divEuclid geometry.minY 16)
      let blockSection ← chunk.sections[sectionOffset]?
      let x ← u8TryFrom (remEuclid position.x 16)
      let y ← u8TryFrom (remEuclid position.y 16)
      let z ← u8TryFrom (remEuclid position.z 16)
      blockSection.block x y z

def Collision.blockStateAt (chunks : LoadedChunks) (geometry : DimensionGeometry) (x y z : Int32) :
    Option RuntimeBlockStateId := do
  let sectionOffset ← usizeTryFrom (divEuclid y 16 - geometry.minSectionY)
  let chunk ← chunks.get ⟨divEuclid x 16, divEuclid z 16⟩
  let blockSection ← chunk.sections[sectionOffset]?
  let x ← u8TryFrom (remEuclid x 16)
  let y ← u8TryFrom (remEuclid y 16)
  let z ← u8TryFrom (remEuclid z 16)
  blockSection.block x y z

inductive BlockLookup where
  | raycast
  | controller
  | collision
  deriving DecidableEq

def BlockLookup.read (lookup : BlockLookup) (world : WorldState Rest) (position : BlockCoordinates) :
    Option RuntimeBlockStateId :=
  match lookup with
  | raycast => world.session.bind fun session =>
    Raycast.blockStateAt world.chunks session.dimensionGeometry position
  | controller => world.worldBlockState position
  | collision => world.session.bind fun session =>
    Collision.blockStateAt world.chunks session.dimensionGeometry position.x position.y position.z

/-! ### Positions of a valid geometry -/

namespace DimensionGeometry

/-- What `validateDimensionGeometry` lets through. -/
structure Valid (geometry : DimensionGeometry) : Prop where
  aligned : geometry.minY.toInt % 16 = 0
  whole : geometry.height.toNat % 16 = 0
  bottom : -2032 ≤ geometry.minY.toInt
  top : geometry.minY.toInt + geometry.height.toNat ≤ 2032

theorem valid_of_validate (h : validateDimensionGeometry geometry = .ok ()) : geometry.Valid := by
  unfold validateDimensionGeometry at h
  split at h
  · cases h
  · rename_i hchecks
    rw [not_or, not_or, not_or, not_or, not_or, not_not, not_not] at hchecks
    obtain ⟨_, _, hwhole, haligned, hbottom, htop⟩ := hchecks
    refine ⟨?_, ?_, ?_, Int.not_lt.mp htop⟩
    · rw [← toInt_remEuclid_sixteen, haligned]
      rfl
    · exact congrArg UInt32.toNat hwhole
    · rw [Int32.lt_iff_toInt_lt, Int.not_lt] at hbottom
      exact hbottom

def Contains (geometry : DimensionGeometry) (y : Int32) : Prop :=
  geometry.minY.toInt ≤ y.toInt ∧ y.toInt < geometry.minY.toInt + geometry.height.toNat

instance (geometry : DimensionGeometry) (y : Int32) : Decidable (geometry.Contains y) :=
  inferInstanceAs (Decidable (_ ∧ _))

end DimensionGeometry

/-- The slot a position of the geometry falls into. -/
def slotOf (geometry : DimensionGeometry) (position : BlockCoordinates) : BlockSlot :=
  ⟨chunkOf position, ((position.y.toInt - geometry.minY.toInt) / 16).toNat,
    ((position.y.toInt % 16).toNat * 16 + (position.z.toInt % 16).toNat) * 16 +
      (position.x.toInt % 16).toNat⟩

namespace BlockSlot

/-- The block that lies in a slot. -/
def read (slot : BlockSlot) (chunks : LoadedChunks) : Option RuntimeBlockStateId :=
  (chunks.container? slot.coordinate slot.sectionOffset).bind fun blocks => blocks.get slot.index

end BlockSlot

theorem chunkOf_inj {p q : BlockCoordinates} (h : chunkOf p = chunkOf q) :
    p.x.toInt / 16 = q.x.toInt / 16 ∧ p.z.toInt / 16 = q.z.toInt / 16 := by
  have hx := congrArg (fun c : ChunkCoordinate => c.x.toInt) h
  have hz := congrArg (fun c : ChunkCoordinate => c.z.toInt) h
  unfold chunkOf at hx hz
  dsimp only at hx hz
  rw [toInt_divEuclid_sixteen, toInt_divEuclid_sixteen] at hx hz
  exact ⟨hx, hz⟩

/-- Two positions of the geometry do not share a slot. -/
theorem slotOf_inj (hvalid : geometry.Valid) {p q : BlockCoordinates}
    (hp : geometry.Contains p.y) (hq : geometry.Contains q.y)
    (h : slotOf geometry p = slotOf geometry q) : p = q := by
  obtain ⟨hchunk, hoffset, hindex⟩ := BlockSlot.mk.inj h
  obtain ⟨hx, hz⟩ := chunkOf_inj hchunk
  have haligned := hvalid.aligned
  obtain ⟨hpbottom, _⟩ := hp
  obtain ⟨hqbottom, _⟩ := hq
  have hpx : p.x.toInt = q.x.toInt := by omega
  have hpy : p.y.toInt = q.y.toInt := by omega
  have hpz : p.z.toInt = q.z.toInt := by omega
  cases p
  cases q
  rw [Int32.toInt_inj] at hpx hpy hpz
  cases hpx
  cases hpy
  cases hpz
  rfl

/-- The local part of a position, the same in every lookup. -/
theorem local_parts (p : BlockCoordinates) :
    ∃ x y z, u8TryFrom (remEuclid p.x 16) = some x ∧ u8TryFrom (remEuclid p.y 16) = some y ∧
      u8TryFrom (remEuclid p.z 16) = some z ∧
      sectionIndex x y z 16 = some (slotOf geometry p).index := by
  obtain ⟨x, hx, hxmod⟩ := u8TryFrom_remEuclid p.x
  obtain ⟨y, hy, hymod⟩ := u8TryFrom_remEuclid p.y
  obtain ⟨z, hz, hzmod⟩ := u8TryFrom_remEuclid p.z
  refine ⟨x, y, z, hx, hy, hz, ?_⟩
  rw [(sectionIndex_of_lt (by omega) (by omega) (by omega) (Nat.le_refl 16)).1]
  apply congrArg some
  unfold slotOf
  dsimp only
  omega

/-- A lookup that has found its chunk and its section reads the slot. -/
theorem read_slotOf {p : BlockCoordinates} {sectionOffset : Nat} {x y z : UInt8}
    (hoffset : sectionOffset = (slotOf geometry p).sectionOffset)
    (hindex : sectionIndex x y z 16 = some (slotOf geometry p).index) :
    ((chunks.get (chunkOf p)).bind fun chunk => (chunk.sections[sectionOffset]?).bind
      fun blockSection => blockSection.block x y z) = (slotOf geometry p).read chunks := by
  unfold BlockSlot.read LoadedChunks.container? LoadedChunks.get
  change _ = ((chunks.lookup (chunkOf p)).bind _).bind _
  cases chunks.lookup (chunkOf p) with
  | none => rfl
  | some chunk =>
    rw [Option.bind_some, Option.bind_some, ← hoffset]
    cases chunk.sections[sectionOffset]? with
    | none => rfl
    | some blockSection =>
      unfold ChunkSection.block
      rw [Option.bind_some, hindex]
      rfl

/-! ### What the lookups read -/

theorem usizeTryFrom_of_toInt {a : Int32} {n : Nat} (h : a.toInt = n) : usizeTryFrom a = some n := by
  unfold usizeTryFrom
  rw [h, if_pos (Int.natCast_nonneg n), Int.toNat_natCast]

/-- The upper end of a valid geometry does not overflow. -/
theorem toInt_end (hvalid : geometry.Valid) :
    (geometry.minY + geometry.height.toInt32).toInt =
      geometry.minY.toInt + geometry.height.toNat := by
  have hbottom := hvalid.bottom
  have htop := hvalid.top
  rw [Int32.toInt_add, toInt_toInt32 (by omega)]
  apply Int.bmod_eq_of_le <;> omega

theorem Raycast.blockStateAt_eq (hvalid : geometry.Valid) (p : BlockCoordinates) :
    blockStateAt chunks geometry p =
      if geometry.Contains p.y then (slotOf geometry p).read chunks else none := by
  have hbottom := hvalid.bottom
  have htop := hvalid.top
  have hinside : ¬ (p.y < geometry.minY ∨ geometry.minY + geometry.height.toInt32 ≤ p.y) ↔
      geometry.Contains p.y := by
    rw [Int32.lt_iff_toInt_lt, Int32.le_iff_toInt_le, toInt_end hvalid]
    unfold DimensionGeometry.Contains
    omega
  unfold blockStateAt
  by_cases hp : geometry.Contains p.y
  · rw [if_neg (hinside.mpr hp), if_pos hp]
    have hoffset : usizeTryFrom (divEuclid (p.y - geometry.minY) 16) =
        some (slotOf geometry p).sectionOffset := by
      obtain ⟨hle, hlt⟩ := hp
      apply usizeTryFrom_of_toInt
      rw [toInt_divEuclid_sixteen, toInt_sub_of_le (by omega) (by omega)]
      change _ = (((p.y.toInt - geometry.minY.toInt) / 16).toNat : Int)
      omega
    obtain ⟨x, y, z, hx, hy, hz, hindex⟩ := @local_parts geometry p
    rw [hoffset, hx, hy, hz]
    exact read_slotOf rfl hindex
  · rw [if_pos (not_not.mp (mt hinside.mp hp)), if_neg hp]

theorem WorldState.worldBlockState_eq {world : WorldState Rest} {session : WorldSession}
    (hsession : world.session = some session) (hvalid : session.dimensionGeometry.Valid)
    (p : BlockCoordinates) :
    world.worldBlockState p = if session.dimensionGeometry.Contains p.y then
      (slotOf session.dimensionGeometry p).read world.chunks else none := by
  have hbottom := hvalid.bottom
  have htop := hvalid.top
  have haligned := hvalid.aligned
  have hheight : i32TryFromU32 session.dimensionGeometry.height =
      some session.dimensionGeometry.height.toInt32 := by
    unfold i32TryFromU32 i32Max
    rw [if_pos (by omega)]
  have hend : checkedAddI32 session.dimensionGeometry.minY
      session.dimensionGeometry.height.toInt32 =
      some (session.dimensionGeometry.minY + session.dimensionGeometry.height.toInt32) := by
    rw [checkedAddI32_eq_some, toInt_end hvalid, toInt_toInt32 (by omega)]
  unfold worldBlockState
  rw [hsession]
  dsimp only [bind, Option.bind]
  rw [hheight]
  dsimp only
  by_cases hp : session.dimensionGeometry.Contains p.y
  · have hle : ¬ p.y < session.dimensionGeometry.minY := by
      rw [Int32.lt_iff_toInt_lt]
      exact Int.not_lt.mpr hp.1
    have hlt : ¬ session.dimensionGeometry.minY + session.dimensionGeometry.height.toInt32 ≤ p.y := by
      rw [Int32.le_iff_toInt_le, toInt_end hvalid]
      exact Int.not_le.mpr hp.2
    have hoffset : usizeTryFrom (divEuclid p.y 16 - divEuclid session.dimensionGeometry.minY 16) =
        some (slotOf session.dimensionGeometry p).sectionOffset := by
      obtain ⟨hle, hlt⟩ := hp
      apply usizeTryFrom_of_toInt
      have hdiv := toInt_divEuclid_sixteen p.y
      have hdivMin := toInt_divEuclid_sixteen session.dimensionGeometry.minY
      rw [toInt_sub_of_le (by omega) (by omega), hdiv, hdivMin]
      change _ = (((p.y.toInt - session.dimensionGeometry.minY.toInt) / 16).toNat : Int)
      omega
    obtain ⟨x, y, z, hx, hy, hz, hindex⟩ := @local_parts session.dimensionGeometry p
    rw [if_neg hle, if_pos hp, hend]
    dsimp only
    rw [if_neg hlt, hoffset, hx, hy, hz]
    exact read_slotOf rfl hindex
  · rw [if_neg hp]
    by_cases hle : p.y < session.dimensionGeometry.minY
    · rw [if_pos hle]
    · rw [if_neg hle, hend]
      dsimp only
      rw [if_pos]
      rw [Int32.lt_iff_toInt_lt] at hle
      rw [Int32.le_iff_toInt_le, toInt_end hvalid]
      unfold DimensionGeometry.Contains at hp
      omega

/-- Every loaded chunk has the sections of the geometry, and all their blocks can be read. -/
def Complete (geometry : DimensionGeometry) (chunks : LoadedChunks) : Prop :=
  ∀ coordinate chunk, chunks.lookup coordinate = some chunk →
    chunk.sections.length = geometry.sectionCount ∧
      ∀ s ∈ chunk.sections, s.blocks.len = blockEntries ∧
        ∀ i < blockEntries, (s.blocks.get i).isSome

theorem Complete.read_outside (hvalid : geometry.Valid) (hcomplete : Complete geometry chunks)
    {p : BlockCoordinates} {sectionOffset : Nat}
    (hoffset : p.y.toInt / 16 - geometry.minY.toInt / 16 = sectionOffset)
    (hp : ¬ geometry.Contains p.y) :
    (chunks.get (chunkOf p)).bind (fun chunk => chunk.sections[sectionOffset]?) = none := by
  unfold LoadedChunks.get
  cases hchunk : chunks.lookup (chunkOf p) with
  | none => rfl
  | some chunk =>
    have hlength := (hcomplete _ _ hchunk).1
    have haligned := hvalid.aligned
    have hwhole := hvalid.whole
    unfold DimensionGeometry.sectionCount at hlength
    unfold DimensionGeometry.Contains at hp
    rw [Option.bind_some, List.getElem?_eq_none_iff, hlength]
    omega

theorem toInt_minSectionY (hvalid : geometry.Valid) :
    geometry.minSectionY.toInt = geometry.minY.toInt / 16 := by
  have hsixteen : (16 : Int32).toInt = 16 := rfl
  unfold DimensionGeometry.minSectionY
  rw [Int32.toInt_div_of_ne_right _ _ (by decide), hsixteen]
  exact Int.tdiv_eq_ediv_of_dvd (Int.dvd_of_emod_eq_zero hvalid.aligned)

theorem Collision.blockStateAt_eq (hvalid : geometry.Valid) (hcomplete : Complete geometry chunks)
    (p : BlockCoordinates) : blockStateAt chunks geometry p.x p.y p.z =
      if geometry.Contains p.y then (slotOf geometry p).read chunks else none := by
  have hbottom := hvalid.bottom
  have htop := hvalid.top
  have haligned := hvalid.aligned
  have hlow := p.y.le_toInt
  have hhigh := p.y.toInt_lt
  have hdiv := toInt_divEuclid_sixteen p.y
  have hmin := toInt_minSectionY hvalid
  have hsub : (divEuclid p.y 16 - geometry.minSectionY).toInt =
      p.y.toInt / 16 - geometry.minY.toInt / 16 := by
    rw [toInt_sub_of_le, hdiv, hmin] <;> omega
  unfold blockStateAt
  by_cases hnonneg : 0 ≤ p.y.toInt / 16 - geometry.minY.toInt / 16
  · have hcast := Int.toNat_of_nonneg hnonneg
    rw [usizeTryFrom_of_toInt (hsub.trans hcast.symm)]
    by_cases hp : geometry.Contains p.y
    · obtain ⟨x, y, z, hx, hy, hz, hindex⟩ := @local_parts geometry p
      rw [if_pos hp, hx, hy, hz]
      refine read_slotOf ?_ hindex
      change _ = ((p.y.toInt - geometry.minY.toInt) / 16).toNat
      omega
    · rw [if_neg hp]
      have hnone := hcomplete.read_outside hvalid hcast.symm hp
      rw [Option.bind_eq_none_iff] at hnone
      change (chunks.get (chunkOf p)).bind _ = none
      rw [Option.bind_eq_none_iff]
      intro chunk hchunk
      exact congrArg (Option.bind · _) (hnone chunk hchunk)
  · have hnone : usizeTryFrom (divEuclid p.y 16 - geometry.minSectionY) = none := by
      unfold usizeTryFrom
      rw [hsub, if_neg hnonneg]
    have hp : ¬ geometry.Contains p.y := by
      unfold DimensionGeometry.Contains
      omega
    rw [hnone, if_neg hp]
    rfl

/-- The three lookups agree. -/
theorem BlockLookup.read_eq {world : WorldState Rest} {session : WorldSession}
    (hsession : world.session = some session) (hvalid : session.dimensionGeometry.Valid)
    (hcomplete : Complete session.dimensionGeometry world.chunks) (lookup : BlockLookup)
    (p : BlockCoordinates) : lookup.read world p =
      if session.dimensionGeometry.Contains p.y then
        (slotOf session.dimensionGeometry p).read world.chunks
      else none := by
  cases lookup with
  | raycast =>
    unfold read
    rw [hsession]
    exact Raycast.blockStateAt_eq hvalid p
  | controller => exact WorldState.worldBlockState_eq hsession hvalid p
  | collision =>
    unfold read
    rw [hsession]
    exact Collision.blockStateAt_eq hvalid hcomplete p

/-! ### What an update writes -/

theorem slotAt_eq (hvalid : geometry.Valid) (p : BlockCoordinates) :
    slotAt geometry p = if geometry.Contains p.y then some (slotOf geometry p) else none := by
  have hbottom := hvalid.bottom
  have htop := hvalid.top
  have haligned := hvalid.aligned
  unfold slotAt locate
  cases hrelative : checkedSubI32 p.y geometry.minY with
  | none =>
    unfold checkedSubI32 at hrelative
    split at hrelative
    · cases hrelative
    · rename_i hrange
      rw [if_neg]
      · rfl
      · rintro ⟨hle, hlt⟩
        omega
  | some relativeY =>
    have htoInt : relativeY.toInt = p.y.toInt - geometry.minY.toInt := by
      unfold checkedSubI32 at hrelative
      split at hrelative
      · rename_i hrange
        cases hrelative
        exact toInt_sub_of_le hrange.1 hrange.2
      · cases hrelative
    dsimp only [bind, Option.bind]
    by_cases hp : geometry.Contains p.y
    · have hle := hp.1
      have hlt := hp.2
      have hinside : ¬ (relativeY < 0 ∨ geometry.height.toNat ≤ relativeY.toInt.toNat) := by
        have hzero : (0 : Int32).toInt = 0 := rfl
        rw [Int32.lt_iff_toInt_lt, hzero]
        omega
      have hoffset : usizeTryFrom (relativeY / 16) =
          some (slotOf geometry p).sectionOffset := by
        have hsixteen : (16 : Int32).toInt = 16 := rfl
        apply usizeTryFrom_of_toInt
        rw [Int32.toInt_div_of_ne_right _ _ (by decide), hsixteen,
          Int.tdiv_eq_ediv_of_nonneg (by omega), htoInt]
        change _ = (((p.y.toInt - geometry.minY.toInt) / 16).toNat : Int)
        omega
      have hlocalY : remEuclid relativeY 16 = remEuclid p.y 16 := by
        rw [← Int32.toInt_inj, toInt_remEuclid_sixteen, toInt_remEuclid_sixteen, htoInt]
        omega
      obtain ⟨x, y, z, hx, hy, hz, hindex⟩ := @local_parts geometry p
      rw [if_neg hinside, if_pos hp, hoffset, hlocalY, hx, hy, hz]
      dsimp only [pure]
      unfold BlockLocation.slot?
      dsimp only
      rw [hindex]
      rfl
    · have houtside : relativeY < 0 ∨ geometry.height.toNat ≤ relativeY.toInt.toNat := by
        have hzero : (0 : Int32).toInt = 0 := rfl
        unfold DimensionGeometry.Contains at hp
        rw [Int32.lt_iff_toInt_lt, hzero]
        omega
      rw [if_pos houtside, if_neg hp]

/-- The state of the last update for a position. -/
def lastStateAt (updates : List BlockStateUpdate) (position : BlockCoordinates) :
    Option RuntimeBlockStateId :=
  ((updates.filter fun update => update.position = position).getLast?).map (·.state)

theorem lastUpdate_slotOf (hvalid : geometry.Valid) {p : BlockCoordinates}
    (hp : geometry.Contains p.y) (updates : List BlockStateUpdate) :
    lastUpdate geometry updates (slotOf geometry p) = lastStateAt updates p := by
  unfold lastUpdate lastStateAt
  refine congrArg (fun updates => (List.getLast? updates).map BlockStateUpdate.state) ?_
  apply List.filter_congr
  intro update _
  rw [decide_eq_decide, slotAt_eq hvalid]
  constructor
  · intro hslot
    split at hslot
    · rename_i hupdate
      exact slotOf_inj hvalid hupdate hp (Option.some.inj hslot)
    · cases hslot
  · intro heq
    rw [heq, if_pos hp]

/-- All blocks of the sections can be read. -/
def Chunk.Readable (chunk : Chunk) : Prop :=
  ∀ s ∈ chunk.sections, s.blocks.len = blockEntries ∧ ∀ i < blockEntries, (s.blocks.get i).isSome

abbrev Readable (chunks : LoadedChunks) : Prop := EveryChunk Chunk.Readable chunks

theorem Complete.readable (hcomplete : Complete geometry chunks) : Readable chunks :=
  fun coordinate chunk hchunk => (hcomplete coordinate chunk hchunk).2

theorem length_eq_of_isSome {α β : Type} {xs : List α} {ys : List β}
    (h : ∀ i : Nat, xs[i]?.isSome = ys[i]?.isSome) : xs.length = ys.length := by
  have hiff (i : Nat) : i < xs.length ↔ i < ys.length := by
    have hx : xs[i]?.isSome = (i < xs.length) := isSome_getElem? xs i
    have hy : ys[i]?.isSome = (i < ys.length) := isSome_getElem? ys i
    rw [← hx, ← hy, h i]
  have hxs := hiff xs.length
  have hys := hiff ys.length
  omega

namespace Readable

theorem materialize (hreadable : Readable chunks) {slot : BlockSlot}
    {blocks : PalettedContainer RuntimeBlockStateId}
    (hblocks : chunks.container? slot.coordinate slot.sectionOffset = some blocks) :
    ∃ values, blocks.materialize = some values ∧ values.length = blockEntries := by
  unfold LoadedChunks.container? at hblocks
  obtain ⟨chunk, hchunk, hsection⟩ := Option.bind_eq_some_iff.mp hblocks
  obtain ⟨s, hs, rfl⟩ := Option.map_eq_some_iff.mp hsection
  obtain ⟨hlen, hget⟩ := hreadable _ _ hchunk s (List.mem_of_getElem? hs)
  rw [← hlen] at hget ⊢
  obtain ⟨values, hvalues⟩ := PalettedContainer.materialize_of_get hget
  exact ⟨values, hvalues, PalettedContainer.length_materialize hvalues⟩

/-- What is read is what a write would replace. -/
theorem read_eq_cell? (hreadable : Readable chunks) (slot : BlockSlot) :
    slot.read chunks = chunks.cell? slot := by
  unfold BlockSlot.read LoadedChunks.cell?
  cases hblocks : chunks.container? slot.coordinate slot.sectionOffset with
  | none => rfl
  | some blocks =>
    obtain ⟨values, hvalues, _⟩ := hreadable.materialize hblocks
    rw [Option.bind_some, Option.bind_some, hvalues]
    exact PalettedContainer.get_of_materialize hvalues slot.index

/-- A batch leaves the sections readable. -/
theorem batch (hreadable : Readable chunks) {updates : List BlockStateUpdate}
    {progress : BlockUpdateProgress} (h : Batch geometry chunks updates progress) :
    Readable progress.chunks := by
  intro coordinate chunk' hchunk' s' hs'
  obtain ⟨sectionOffset, hget'⟩ := List.mem_iff_getElem?.mp hs'
  have hcontainer' : progress.chunks.container? coordinate sectionOffset = some s'.blocks := by
    unfold LoadedChunks.container?
    rw [hchunk', Option.bind_some, hget', Option.map_some]
  rcases h.touched coordinate sectionOffset with hsame | ⟨update, hmem, slot, hslot, rfl, rfl, hsome⟩
  · rw [hcontainer'] at hsame
    unfold LoadedChunks.container? at hsame
    obtain ⟨chunk, hchunk, hsection⟩ := Option.bind_eq_some_iff.mp hsame.symm
    obtain ⟨s, hs, hblocks⟩ := Option.map_eq_some_iff.mp hsection
    rw [← hblocks]
    exact hreadable coordinate chunk hchunk s (List.mem_of_getElem? hs)
  · obtain ⟨values', hvalues'⟩ := h.direct update hmem slot hslot hsome
    have hdirect := Option.some.inj (hcontainer'.symm.trans hvalues')
    obtain ⟨old, hold⟩ := Option.isSome_iff_exists.mp hsome
    obtain ⟨blocks, hblocks, _⟩ := Option.bind_eq_some_iff.mp hold
    obtain ⟨values, hvalues, hentries⟩ := hreadable.materialize hblocks
    have hcell (i : Nat) : chunks.cell? ⟨slot.coordinate, slot.sectionOffset, i⟩ = values[i]? := by
      unfold LoadedChunks.cell?
      rw [hblocks, Option.bind_some, hvalues, Option.bind_some]
    have hisSome (i : Nat) : values'[i]?.isSome = values[i]?.isSome := by
      rw [← cell?_direct hvalues' i, h.cell, hcell, Option.isSome_map]
    have hlen : values'.length = blockEntries := (length_eq_of_isSome hisSome).trans hentries
    rw [hdirect]
    refine ⟨hlen, fun i hi => ?_⟩
    rw [← hlen] at hi
    exact Option.isSome_of_eq_some (List.getElem?_eq_getElem hi)

end Readable

namespace Complete

/-- A batch leaves the chunks complete. -/
theorem batch (hcomplete : Complete geometry chunks) {updates : List BlockStateUpdate}
    {progress : BlockUpdateProgress} (h : Batch geometry chunks updates progress) :
    Complete geometry progress.chunks := by
  intro coordinate chunk' hchunk'
  refine ⟨?_, hcomplete.readable.batch h coordinate chunk' hchunk'⟩
  have houtline := h.outline coordinate
  unfold LoadedChunks.outline at houtline
  rw [hchunk', Option.map_some] at houtline
  obtain ⟨chunk, hchunk, hbare⟩ := Option.map_eq_some_iff.mp houtline.symm
  have hmap := congrArg (fun chunk => chunk.sections.length) hbare
  unfold LoadedChunks.bare at hmap
  rw [List.length_map, List.length_map] at hmap
  exact hmap.symm.trans (hcomplete coordinate chunk hchunk).1

theorem exists_read (hcomplete : Complete geometry chunks) (hvalid : geometry.Valid)
    {p : BlockCoordinates} (hloaded : (chunks.get (chunkOf p)).isSome)
    (hp : geometry.Contains p.y) : ∃ old, (slotOf geometry p).read chunks = some old := by
  obtain ⟨chunk, hchunk⟩ := Option.isSome_iff_exists.mp hloaded
  obtain ⟨hlength, hsections⟩ := hcomplete _ _ hchunk
  have hle := hp.1
  have hlt := hp.2
  have haligned := hvalid.aligned
  have hwhole := hvalid.whole
  have hoffset : (slotOf geometry p).sectionOffset < chunk.sections.length := by
    change ((p.y.toInt - geometry.minY.toInt) / 16).toNat < _
    rw [hlength, DimensionGeometry.sectionCount]
    omega
  have hindex : (slotOf geometry p).index < blockEntries := by
    unfold slotOf blockEntries
    dsimp only
    omega
  have hget := (hsections _ (List.getElem_mem hoffset)).2 _ hindex
  obtain ⟨old, hold⟩ := Option.isSome_iff_exists.mp hget
  refine ⟨old, ?_⟩
  have hlookup : chunks.lookup (slotOf geometry p).coordinate = some chunk := hchunk
  unfold BlockSlot.read LoadedChunks.container?
  rw [hlookup, Option.bind_some, List.getElem?_eq_getElem hoffset]
  exact hold

end Complete

/-! ### Reading after a batch -/

namespace WorldState
open Mut

/-- What a batch of updates that is accepted leaves. -/
theorem applyBlockUpdates_eq_ok {s t : WorldState Rest} {session : WorldSession}
    {updates : List BlockStateUpdate} {result : BlockUpdateResult}
    (hsession : s.session = some session) (hrun : applyBlockUpdates updates s = .ok result t) :
    ∃ progress, Batch session.dimensionGeometry s.chunks updates progress ∧
      t.session = some session ∧ t.chunks = progress.chunks ∧
      result.changedChunks = progress.changed.keys := by
  rcases s.applyBlockUpdates_cases updates with ⟨_, e, herr⟩ | ⟨session', progress, haccepts, hbatch, hok⟩
  · cases herr.symm.trans hrun
  · cases hsession.symm.trans haccepts.2.2
    refine ⟨progress, hbatch, ?_⟩
    rw [hok] at hrun
    rcases commit_cases s progress.chunks progress.changed.keys progress.ignored with
      ⟨hnil, hcommit⟩ | ⟨_, _, hcommit⟩ | ⟨_, _, hcommit⟩
    · cases hcommit.symm.trans hrun
      exact ⟨hsession, rfl, hnil.symm⟩
    · cases hcommit.symm.trans hrun
    · cases hcommit.symm.trans hrun
      exact ⟨hsession, rfl, rfl⟩

end WorldState

/-- Afterwards every lookup reads the last update, or the block from before; the changed chunks
are the loaded ones in which a block may read differently. -/
theorem applyBlockUpdates_readBack {s t : WorldState Rest} {session : WorldSession}
    {updates : List BlockStateUpdate} {result : BlockUpdateResult}
    (hsession : s.session = some session)
    (hgeometry : validateDimensionGeometry session.dimensionGeometry = .ok ())
    (hcomplete : Complete session.dimensionGeometry s.chunks)
    (hrun : WorldState.applyBlockUpdates updates s = .ok result t) :
    (∀ (lookup : BlockLookup) (p : BlockCoordinates), (s.chunks.get (chunkOf p)).isSome →
      session.dimensionGeometry.Contains p.y → ∃ old, lookup.read s p = some old ∧
        lookup.read t p = some ((lastStateAt updates p).getD old)) ∧
      result.changedChunks.Pairwise (· < ·) ∧
      (∀ coordinate ∈ result.changedChunks, (t.chunks.get coordinate).isSome) ∧
      ∀ (lookup : BlockLookup) (p : BlockCoordinates), lookup.read t p ≠ lookup.read s p →
        chunkOf p ∈ result.changedChunks := by
  have hvalid := DimensionGeometry.valid_of_validate hgeometry
  obtain ⟨progress, hbatch, hsession', hchunks, hchanged⟩ :=
    WorldState.applyBlockUpdates_eq_ok hsession hrun
  have hcomplete' : Complete session.dimensionGeometry t.chunks := by
    rw [hchunks]
    exact hcomplete.batch hbatch
  have hread := BlockLookup.read_eq hsession hvalid hcomplete
  have hread' := BlockLookup.read_eq hsession' hvalid hcomplete'
  refine ⟨?_, ?_, ?_, ?_⟩
  · intro lookup p hloaded hp
    obtain ⟨old, hold⟩ := hcomplete.exists_read hvalid hloaded hp
    refine ⟨old, ?_, ?_⟩
    · rw [hread, if_pos hp, hold]
    · rw [hread', if_pos hp, hcomplete'.readable.read_eq_cell?, hchunks, hbatch.cell,
        ← hcomplete.readable.read_eq_cell?, hold, lastUpdate_slotOf hvalid hp]
      rfl
  · rw [hchanged]
    exact List.pairwise_map.mpr progress.changed.ascending
  · intro coordinate hmem
    rw [hchanged] at hmem
    have hloaded := hbatch.changed_loaded coordinate hmem
    have houtline := congrArg Option.isSome (hbatch.outline coordinate)
    unfold LoadedChunks.outline at houtline
    rw [Option.isSome_map, Option.isSome_map, hloaded] at houtline
    rw [hchunks]
    exact houtline
  · intro lookup p hne
    rw [hread, hread', hcomplete'.readable.read_eq_cell?, hcomplete.readable.read_eq_cell?, hchunks] at hne
    by_cases hp : session.dimensionGeometry.Contains p.y
    · rw [if_pos hp, if_pos hp] at hne
      rw [hchanged]
      exact hbatch.changed_of_ne _ hne
    · rw [if_neg hp, if_neg hp] at hne
      exact absurd rfl hne

/-- A chunk of stone on either side of zero, with a geometry of two sections. -/
def shallowWorld : WorldState Unit :=
  { WorldState.new with
    lifecycle := .active
    session := some { overworldSession with dimensionGeometry := ⟨-16, 32⟩ }
    chunks := OrderedMap.empty.insert ⟨-1, -1⟩
      { stoneChunk ⟨-1, -1⟩ with sections := [stoneSection, stoneSection] } }

theorem complete_shallowWorld : Complete ⟨-16, 32⟩ shallowWorld.chunks := by
  intro coordinate chunk hchunk
  have hinsert : (if coordinate = ⟨-1, -1⟩ then some (Chunk.mk ⟨-1, -1⟩ [stoneSection, stoneSection]
      [] [] ⟨[], [], [], [], 0, 0, [], []⟩) else none) = some chunk :=
    (OrderedMap.lookup_insert _ _ _ _).symm.trans hchunk
  split at hinsert
  · cases hinsert
    refine ⟨rfl, ?_⟩
    intro s hs
    have hstone : s = stoneSection := List.eq_of_mem_replicate (n := 2) hs
    rw [hstone]
    refine ⟨rfl, fun i hi => ?_⟩
    exact Option.isSome_of_eq_some (if_pos hi)
  · cases hinsert

/-- Two updates for one block below zero, and one outside the geometry. -/
def shallowUpdates : List BlockStateUpdate :=
  [⟨⟨-1, -3, -5⟩, ⟨7⟩⟩, ⟨⟨-1, -3, -5⟩, ⟨9⟩⟩, ⟨⟨-1, 40, -5⟩, ⟨7⟩⟩]

theorem applyBlockUpdates_readBack_shallowWorld :
    ∃ result t, WorldState.applyBlockUpdates shallowUpdates shallowWorld = .ok result t ∧
      ∀ lookup : BlockLookup, lookup.read t ⟨-1, -3, -5⟩ = some ⟨9⟩ := by
  obtain ⟨result, t, hrun⟩ := @WorldState.applyBlockUpdates_of_accepts
    Unit shallowWorld shallowUpdates _ ⟨rfl, by decide, rfl⟩ (by decide)
  refine ⟨result, t, hrun, fun lookup => ?_⟩
  obtain ⟨hread, _⟩ := applyBlockUpdates_readBack rfl (by decide) complete_shallowWorld hrun
  obtain ⟨old, _, hnew⟩ := hread lookup ⟨-1, -3, -5⟩ (by decide) (by decide)
  exact hnew

end Cubic.World
