import Cubic.Play.ChunkSection

/-!
# Lookups in an accepted section

The abstract reader takes the fields of a section off the wire and checks nothing. What
the decoder accepts, it accepts as those fields, and every lookup finds the wire value.
-/

namespace Cubic

set_option autoImplicit false

/-! ### What is on the wire -/

/-- The fields of a container; packed entries do not cross words. -/
inductive ContainerData where
  | single (value : UInt32)
  | indirect (bits : UInt8) (palette : List UInt32) (words : List UInt64)
  | direct (bits : UInt8) (words : List UInt64)

/-- Entry `i` of packed words: the low entry of a word comes first. -/
def packedEntry (bits : UInt8) (words : List UInt64) (i : Nat) : Option Nat :=
  words[i / (64 / bits.toNat)]?.map fun word =>
    word.toNat / 2 ^ (i % (64 / bits.toNat) * bits.toNat) % 2 ^ bits.toNat

def ContainerData.value (data : ContainerData) (i : Nat) : Option UInt32 :=
  match data with
  | .single value => some value
  | .indirect bits palette words => (packedEntry bits words i).bind fun index => palette[index]?
  | .direct bits words => (packedEntry bits words i).map UInt32.ofNat

structure SectionData where
  nonEmptyBlockCount : Int16
  fluidCount : Int16
  blocks : ContainerData
  biomes : ContainerData

namespace Chunk

def readContainerData (kind : ContainerKind) : ChunkM ContainerData := do
  let wireBits ← codec readU8
  let bits := kind.storageBits wireBits
  let wordCount := (kind.entries + 64 / bits.toNat - 1) / (64 / bits.toNat)
  if wireBits = 0 then do
    let value ← readRuntimeId kind.name
    pure (.single value)
  else if wireBits ≤ kind.localMax then do
    let paletteLen ← readCount "palette" (2 ^ bits.toNat)
    let palette ← Mut.repeatCall (readRuntimeId kind.name) paletteLen
    let words ← Mut.repeatCall (codec readU64) wordCount
    pure (.indirect bits palette words)
  else do
    let words ← Mut.repeatCall (codec readU64) wordCount
    pure (.direct bits words)

def readSectionData : ChunkM SectionData := do
  let nonEmpty ← codec readI16
  let fluid ← codec readI16
  let blocks ← readContainerData .blocks
  let biomes ← readContainerData .biomes
  pure ⟨nonEmpty, fluid, blocks, biomes⟩

def readSectionsData (bytes : Bytes) : Outcome ChunkDecodeError CodecReader (List SectionData) :=
  untilConsumed readSectionData maxChunkSections (.new bytes)

end Chunk

/-! ### Packed entries -/

theorem toNat_mask {bits : UInt8} (h : bits.toNat < 64) :
    (((1 : UInt64) <<< bits.toUInt64) - 1).toNat = 2 ^ bits.toNat - 1 := by
  have hpow : 2 ^ bits.toNat < 2 ^ 64 := Nat.pow_lt_pow_right (by decide) h
  have hshift : ((1 : UInt64) <<< bits.toUInt64).toNat = 2 ^ bits.toNat := by
    rw [UInt64.toNat_shiftLeft, UInt8.toNat_toUInt64, Nat.mod_eq_of_lt h, Nat.shiftLeft_eq]
    change 1 * 2 ^ bits.toNat % 2 ^ 64 = _
    rw [Nat.one_mul, Nat.mod_eq_of_lt hpow]
  have hle : (1 : UInt64) ≤ (1 : UInt64) <<< bits.toUInt64 := by
    rw [UInt64.le_iff_toNat_le, hshift]
    exact Nat.one_le_two_pow
  rw [UInt64.toNat_sub_of_le _ _ hle, hshift]
  rfl

/-- The entries of a word fit in it. -/
theorem shift_lt {bits : Nat} (h : 0 < bits) (hbits : bits ≤ 64) (i : Nat) : i % (64 / bits) * bits < 64 := by
  have hpos : 0 < 64 / bits := Nat.div_pos hbits h
  have hlt : i % (64 / bits) < 64 / bits := Nat.mod_lt _ hpos
  calc i % (64 / bits) * bits < 64 / bits * bits := Nat.mul_lt_mul_of_pos_right hlt h
    _ ≤ 64 := Nat.div_mul_le_self 64 bits

theorem unpackEntry_eq_some {words : List UInt64} {bits : UInt8} {i : Nat} {entry : UInt16}
    (hpos : 0 < bits.toNat) (hbits : bits.toNat ≤ 15) (h : Chunk.unpackEntry words bits i = some entry) :
    packedEntry bits words i = some entry.toNat := by
  simp only [Chunk.unpackEntry] at h
  unfold packedEntry
  cases hword : words[i / (64 / bits.toNat)]? with
  | none =>
    rw [hword] at h
    cases h
  | some word =>
    rw [hword] at h
    cases h
    have hshift := shift_lt hpos (by omega) i
    have hmod : word.toNat / 2 ^ (i % (64 / bits.toNat) * bits.toNat) % 2 ^ bits.toNat < 2 ^ 16 :=
      lt_of_lt_of_le (Nat.mod_lt _ (Nat.two_pow_pos _)) (Nat.pow_le_pow_right (by decide) (by omega))
    rw [Option.map_some, UInt64.toNat_toUInt16, UInt64.toNat_and, toNat_mask (by omega),
      Nat.and_two_pow_sub_one_eq_mod, UInt64.toNat_shiftRight, Nat.shiftRight_eq_div_pow,
      UInt64.toNat_ofNat', Nat.mod_eq_of_lt (by omega : i % (64 / bits.toNat) * bits.toNat < 2 ^ 64),
      Nat.mod_eq_of_lt hshift, Nat.mod_eq_of_lt hmod]

/-! ### Containers -/

namespace WirePalettedContainer

/-- The lookups in the container of the world, whatever its values are mapped to. -/
def lookup (c : WirePalettedContainer) (i : Nat) : Option UInt32 := (mapPalette c id).get i

def entries (c : WirePalettedContainer) : Nat := (mapPalette c id).len

end WirePalettedContainer

theorem get_mapPalette {T : Type} (c : WirePalettedContainer) (map : UInt32 → T) (i : Nat) :
    (mapPalette c map).get i = (c.lookup i).map map := by
  unfold WirePalettedContainer.lookup
  cases c with
  | single value entries =>
    simp only [mapPalette, PalettedContainer.get, id_eq]
    split <;> rfl
  | indirect palette indices =>
    simp only [mapPalette, PalettedContainer.get, List.map_id, List.getElem?_map]
    cases indices[i]? <;> rfl
  | direct values =>
    simp only [mapPalette, PalettedContainer.get, List.map_id, List.getElem?_map]

theorem len_mapPalette {T : Type} (c : WirePalettedContainer) (map : UInt32 → T) :
    (mapPalette c map).len = c.entries := by
  unfold WirePalettedContainer.entries
  cases c with
  | single value entries => rfl
  | indirect palette indices => rfl
  | direct values => simp only [mapPalette, PalettedContainer.len, List.length_map]

/-- The container has an entry for each cell of its section, and each is the wire value. -/
def Faithful (kind : ContainerKind) (data : ContainerData) (c : WirePalettedContainer) : Prop :=
  c.entries = kind.entries ∧
    ∀ i < kind.entries, ∃ value, data.value i = some value ∧ c.lookup i = some value

namespace Chunk

theorem readPalette_eq_ok {kind : ContainerKind} (left : Nat) :
    ∀ {palette palette' : List UInt32} {r r' : CodecReader},
      readPalette kind left palette r = .ok palette' r' →
      ∃ values, Mut.repeatCall (readRuntimeId kind.name) left r = .ok values r' ∧
        palette' = palette ++ values := by
  induction left with
  | zero =>
    intro palette palette' r r' h
    cases h
    exact ⟨[], rfl, (List.append_nil _).symm⟩
  | succ left ih =>
    intro palette palette' r r' h
    obtain ⟨value, t, hvalue, h⟩ := Mut.bind_eq_ok.mp h
    split at h
    · cases h
    obtain ⟨values, hvalues, rfl⟩ := ih h
    refine ⟨value :: values, ?_, by rw [List.append_assoc]; rfl⟩
    rw [Mut.repeatCall, Mut.bind_of_ok hvalue, Mut.bind_of_ok hvalues]
    rfl

theorem packedWordCount_eq_some {bits : UInt8} {entries count : Nat}
    (h : packedWordCount bits entries = some count) :
    count = (entries + 64 / bits.toNat - 1) / (64 / bits.toNat) := by
  unfold packedWordCount at h
  split at h
  · cases h
  simp only at h
  split at h
  · exact (Option.some.inj h).symm
  · cases h

theorem unpackPacked_eq_ok {words : List UInt64} {bits : UInt8} {entries : Nat} {context : String}
    {values : List UInt16} {r r' : CodecReader}
    (h : unpackPacked words bits entries context r = .ok values r') :
    r' = r ∧ List.Forall₂ (fun i v => unpackEntry words bits i = some v) (List.range entries) values := by
  unfold unpackPacked at h
  cases hcount : packedWordCount bits entries with
  | none =>
    rw [hcount] at h
    cases h
  | some expected =>
    rw [hcount] at h
    by_cases hlength : words.length ≠ expected
    · simp only [if_pos hlength] at h
      cases h
    · simp only [if_neg hlength] at h
      obtain ⟨hvalues, hr⟩ := Mut.ofOption_eq_ok.mp h
      exact ⟨hr, Mut.mapM_eq_some.mp hvalues⟩

theorem readPacked_eq_ok {bits : UInt8} {entries : Nat} {context : String} {values : List UInt16}
    {r r' : CodecReader} (hpos : 0 < bits.toNat) (hbits : bits.toNat ≤ 15)
    (h : readPacked bits entries context r = .ok values r') :
    ∃ words, Mut.repeatCall (codec readU64) ((entries + 64 / bits.toNat - 1) / (64 / bits.toNat)) r =
        .ok words r' ∧ values.length = entries ∧
      ∀ i < entries, ∃ v, values[i]? = some v ∧ packedEntry bits words i = some v.toNat := by
  unfold readPacked at h
  cases hcount : packedWordCount bits entries with
  | none =>
    rw [hcount] at h
    cases h
  | some count =>
  rw [hcount] at h
  obtain ⟨words, t, hwords, h⟩ := Mut.bind_eq_ok.mp h
  obtain ⟨rfl, hvalues⟩ := unpackPacked_eq_ok h
  rw [packedWordCount_eq_some hcount] at hwords
  have hlength : values.length = entries := hvalues.length_eq.symm.trans List.length_range
  refine ⟨words, hwords, hlength, fun i hi => ?_⟩
  have hlt : i < values.length := by omega
  have hentry := hvalues.get (i := i) (by rw [List.length_range]; exact hi) hlt
  rw [List.get_eq_getElem, List.getElem_range] at hentry
  exact ⟨values[i], List.getElem?_eq_getElem hlt, unpackEntry_eq_some hpos hbits hentry⟩

theorem checkIndices_eq_ok {kind : ContainerKind} {paletteLen : Nat} {indices : List UInt16} :
    ∀ {entry : Nat} {r r' : CodecReader}, checkIndices kind paletteLen entry indices r = .ok () r' →
      r' = r ∧ ∀ index ∈ indices, index.toNat < paletteLen := by
  induction indices with
  | nil =>
    intro entry r r' h
    cases h
    exact ⟨rfl, fun _ hmem => absurd hmem List.not_mem_nil⟩
  | cons index indices ih =>
    intro entry r r' h
    unfold checkIndices at h
    split at h
    · cases h
    rename_i hindex
    obtain ⟨rfl, hindices⟩ := ih h
    exact ⟨rfl, List.forall_mem_cons.mpr ⟨Nat.not_le.mp hindex, hindices⟩⟩

/-- The width of the packed entries that are accepted. -/
theorem storageBits_range {kind : ContainerKind} {wireBits : UInt8} (hmax : ¬ wireBits > kind.maxBits)
    (hzero : ¬ wireBits = 0) :
    0 < (kind.storageBits wireBits).toNat ∧ (kind.storageBits wireBits).toNat ≤ 15 := by
  have hle : wireBits.toNat ≤ 15 := by
    have h := UInt8.le_iff_toNat_le.mp (UInt8.not_lt.mp hmax)
    cases kind <;> exact h
  have hpos : 0 < wireBits.toNat := by
    refine Nat.pos_of_ne_zero fun h => hzero (UInt8.toNat_inj.mp h)
  cases kind with
  | blocks =>
    have hbits : ContainerKind.blocks.storageBits wireBits =
        if 0 < wireBits ∧ wireBits < 4 then 4 else wireBits := rfl
    rw [hbits]
    by_cases hsmall : 0 < wireBits ∧ wireBits < 4
    · rw [if_pos hsmall]
      decide
    · rw [if_neg hsmall]
      exact ⟨hpos, hle⟩
  | biomes => exact ⟨hpos, hle⟩

theorem decodeContainer_faithful {kind : ContainerKind} {c : WirePalettedContainer} {r r' : CodecReader}
    (h : decodeContainer kind r = .ok c r') :
    ∃ data, readContainerData kind r = .ok data r' ∧ Faithful kind data c := by
  obtain ⟨wireBits, r₁, hbits, h⟩ := Mut.bind_eq_ok.mp h
  unfold readContainerData
  rw [Mut.bind_of_ok hbits]
  split at h
  · cases h
  rename_i hmax
  by_cases hzero : wireBits = 0
  · rw [if_pos hzero] at h ⊢
    obtain ⟨value, r₂, hvalue, h⟩ := Mut.bind_eq_ok.mp h
    cases h
    refine ⟨.single value, by rw [Mut.bind_of_ok hvalue]; rfl, rfl, fun i hi => ?_⟩
    exact ⟨value, rfl, if_pos hi⟩
  obtain ⟨hpos, hle⟩ := storageBits_range hmax hzero
  rw [if_neg hzero] at h ⊢
  by_cases hlocal : wireBits ≤ kind.localMax
  · rw [if_pos hlocal] at h ⊢
    obtain ⟨paletteLen, r₂, hlen, h⟩ := Mut.bind_eq_ok.mp h
    split at h
    · cases h
    obtain ⟨palette, r₃, hpalette, h⟩ := Mut.bind_eq_ok.mp h
    obtain ⟨indices, r₄, hindices, h⟩ := Mut.bind_eq_ok.mp h
    obtain ⟨_, r₅, hcheck, h⟩ := Mut.bind_eq_ok.mp h
    cases h
    obtain ⟨values, hvalues, hpaletteEq⟩ := readPalette_eq_ok paletteLen hpalette
    rw [List.nil_append] at hpaletteEq
    subst hpaletteEq
    obtain ⟨words, hwords, hcount, hentries⟩ := readPacked_eq_ok hpos hle hindices
    obtain ⟨rfl, hrange⟩ := checkIndices_eq_ok hcheck
    refine ⟨.indirect (kind.storageBits wireBits) palette words, ?_, hcount, fun i hi => ?_⟩
    · rw [Mut.bind_of_ok hlen, Mut.bind_of_ok hvalues, Mut.bind_of_ok hwords]
      rfl
    · obtain ⟨index, hindex, hpacked⟩ := hentries i hi
      have hlt : index.toNat < palette.length := hrange index (List.mem_of_getElem? hindex)
      refine ⟨palette[index.toNat], ?_, ?_⟩
      · rw [ContainerData.value, hpacked, Option.bind_some, List.getElem?_eq_getElem hlt]
      · unfold WirePalettedContainer.lookup
        simp only [mapPalette, PalettedContainer.get, List.map_id, hindex,
          Option.bind_some, List.getElem?_eq_getElem hlt]
  · rw [if_neg hlocal] at h ⊢
    obtain ⟨raw, r₂, hraw, h⟩ := Mut.bind_eq_ok.mp h
    cases h
    obtain ⟨words, hwords, hcount, hentries⟩ := readPacked_eq_ok hpos hle hraw
    refine ⟨.direct (kind.storageBits wireBits) words, by rw [Mut.bind_of_ok hwords]; rfl, ?_, fun i hi => ?_⟩
    · unfold WirePalettedContainer.entries
      simp only [mapPalette, PalettedContainer.len, List.length_map, hcount]
    · obtain ⟨entry, hentry, hpacked⟩ := hentries i hi
      refine ⟨entry.toUInt32, ?_, ?_⟩
      · rw [ContainerData.value, hpacked, Option.map_some]
        congr 1
        apply UInt32.toNat_inj.mp
        have hlt := entry.toNat_lt
        rw [UInt32.toNat_ofNat', UInt16.toNat_toUInt32]
        omega
      · unfold WirePalettedContainer.lookup
        simp only [mapPalette, PalettedContainer.get, List.map_id, List.getElem?_map, hentry,
          Option.map_some]

/-- The two containers of a section. -/
def FaithfulSection (data : SectionData) (s : WireChunkSection) : Prop :=
  Faithful .blocks data.blocks s.blocks ∧ Faithful .biomes data.biomes s.biomes

theorem decodeSection_faithful {s : WireChunkSection} {r r' : CodecReader}
    (h : decodeSection r = .ok s r') :
    ∃ data, readSectionData r = .ok data r' ∧ FaithfulSection data s := by
  obtain ⟨nonEmpty, r₁, hnonEmpty, h⟩ := Mut.bind_eq_ok.mp h
  obtain ⟨_, r₂, hcheck, h⟩ := Mut.bind_eq_ok.mp h
  obtain ⟨fluid, r₃, hfluid, h⟩ := Mut.bind_eq_ok.mp h
  obtain ⟨_, r₄, hcheck', h⟩ := Mut.bind_eq_ok.mp h
  obtain ⟨blocks, r₅, hblocks, h⟩ := Mut.bind_eq_ok.mp h
  obtain ⟨biomes, r₆, hbiomes, h⟩ := Mut.bind_eq_ok.mp h
  cases h
  have hsame : ∀ {field : String} {value : Int16} {max : Nat} {t t' : CodecReader},
      validateSectionCount field value max t = .ok () t' → t' = t := by
    intro field value max t t' hv
    unfold validateSectionCount at hv
    split at hv
    · cases hv
    · cases hv
      rfl
  obtain rfl := hsame hcheck
  obtain rfl := hsame hcheck'
  obtain ⟨blocksData, hblocksData, hfaithful⟩ := decodeContainer_faithful hblocks
  obtain ⟨biomesData, hbiomesData, hfaithful'⟩ := decodeContainer_faithful hbiomes
  refine ⟨⟨nonEmpty, fluid, blocksData, biomesData⟩, ?_, hfaithful, hfaithful'⟩
  unfold readSectionData
  rw [Mut.bind_of_ok hnonEmpty, Mut.bind_of_ok hfluid, Mut.bind_of_ok hblocksData,
    Mut.bind_of_ok hbiomesData]
  rfl

/-- The loop of one decoder follows the loop of another that it follows at each item. -/
theorem untilConsumed_forall₂ {α β : Type} {R : β → α → Prop} {decode : ChunkM α} {read : ChunkM β}
    (hstep : ∀ {r a r'}, decode r = .ok a r' → ∃ b, read r = .ok b r' ∧ R b a) (left : Nat) :
    ∀ {r r' : CodecReader} {as : List α}, untilConsumed decode left r = .ok as r' →
      ∃ bs, untilConsumed read left r = .ok bs r' ∧ List.Forall₂ R bs as := by
  induction left with
  | zero =>
    intro r r' as h
    unfold untilConsumed at h ⊢
    rw [Mut.get_bind] at h ⊢
    split at h
    · rename_i hdone
      cases h
      rw [if_pos hdone]
      exact ⟨[], rfl, .nil⟩
    · cases h
  | succ left ih =>
    intro r r' as h
    unfold untilConsumed at h ⊢
    rw [Mut.get_bind] at h ⊢
    split at h
    · rename_i hdone
      cases h
      rw [if_pos hdone]
      exact ⟨[], rfl, .nil⟩
    · rename_i hmore
      obtain ⟨a, t, ha, h⟩ := Mut.bind_eq_ok.mp h
      obtain ⟨rest, t', hrest, h⟩ := Mut.bind_eq_ok.mp h
      cases h
      obtain ⟨b, hb, hR⟩ := hstep ha
      obtain ⟨bs, hbs, hRs⟩ := ih hrest
      rw [if_neg hmore, Mut.bind_of_ok hb, Mut.bind_of_ok hbs]
      exact ⟨b :: bs, rfl, .cons hR hRs⟩

theorem untilConsumed_length {α : Type} {decode : ChunkM α} (left : Nat) :
    ∀ {r r' : CodecReader} {as : List α}, untilConsumed decode left r = .ok as r' →
      as.length ≤ left := by
  induction left with
  | zero =>
    intro r r' as h
    unfold untilConsumed at h
    rw [Mut.get_bind] at h
    split at h
    · cases h
      exact Nat.le_refl 0
    · cases h
  | succ left ih =>
    intro r r' as h
    unfold untilConsumed at h
    rw [Mut.get_bind] at h
    split at h
    · cases h
      exact Nat.zero_le _
    · obtain ⟨a, r₁, _, h⟩ := Mut.bind_eq_ok.mp h
      obtain ⟨rest, r₂, hrest, h⟩ := Mut.bind_eq_ok.mp h
      cases h
      exact Nat.succ_le_succ (ih hrest)

theorem decodeSections_length {bytes : Bytes} {sections : List WireChunkSection} {r : CodecReader}
    (h : decodeSections bytes = .ok sections r) : sections.length ≤ maxChunkSections := by
  obtain ⟨decoded, t, hdecoded, h⟩ := Mut.bind_eq_ok.mp h
  split at h
  · cases h
  cases h
  exact untilConsumed_length maxChunkSections hdecoded

theorem decodeSections_faithful {bytes : Bytes} {sections : List WireChunkSection} {r : CodecReader}
    (h : decodeSections bytes = .ok sections r) :
    ∃ datas, readSectionsData bytes = .ok datas r ∧ List.Forall₂ FaithfulSection datas sections := by
  obtain ⟨decoded, t, hdecoded, h⟩ := Mut.bind_eq_ok.mp h
  split at h
  · cases h
  cases h
  exact untilConsumed_forall₂ decodeSection_faithful maxChunkSections hdecoded

end Chunk

/-! ### Lookups in the world -/

theorem sectionIndex_of_lt {x y z : UInt8} {width : Nat} (hx : x.toNat < width) (hy : y.toNat < width)
    (hz : z.toNat < width) (hwidth : width ≤ 16) :
    sectionIndex x y z width = some ((y.toNat * width + z.toNat) * width + x.toNat) ∧
      (y.toNat * width + z.toNat) * width + x.toNat < width * width * width := by
  have hrow : y.toNat * width + z.toNat < width * width := by
    have h := Nat.mul_le_mul_right width (Nat.succ_le_of_lt hy)
    rw [Nat.succ_mul] at h
    omega
  have hcell : (y.toNat * width + z.toNat) * width + x.toNat < width * width * width := by
    have h := Nat.mul_le_mul_right width (Nat.succ_le_of_lt hrow)
    rw [Nat.succ_mul] at h
    omega
  have hsquare : width * width ≤ 16 * 16 := Nat.mul_le_mul hwidth hwidth
  have hcube : width * width * width ≤ 16 * 16 * 16 := Nat.mul_le_mul hsquare hwidth
  have hmax : 16 * 16 * 16 ≤ usizeMax := by decide
  refine ⟨?_, hcell⟩
  unfold sectionIndex
  rw [if_neg (by omega)]
  rw [checkedMul_eq_some.mpr ⟨by omega, rfl⟩]
  change (checkedAdd (y.toNat * width) z.toNat).bind _ = _
  rw [checkedAdd_eq_some.mpr ⟨by omega, rfl⟩]
  change (checkedMul (y.toNat * width + z.toNat) width).bind _ = _
  rw [checkedMul_eq_some.mpr ⟨by omega, rfl⟩]
  exact checkedAdd_eq_some.mpr ⟨by omega, rfl⟩

/-- The cell of a container of the given width. -/
def cell (x y z : UInt8) (width : Nat) : Nat := (y.toNat * width + z.toNat) * width + x.toNat

theorem lookup_faithful {T : Type} {kind : ContainerKind} {data : ContainerData}
    {c : WirePalettedContainer} (hc : Faithful kind data c) (map : UInt32 → T) {width : Nat}
    (hentries : kind.entries = width * width * width) (hwidth : width ≤ 16) {x y z : UInt8}
    (hx : x.toNat < width) (hy : y.toNat < width) (hz : z.toNat < width) :
    ∃ value, data.value (cell x y z width) = some value ∧
      (sectionIndex x y z width).bind (mapPalette c map).get = some (map value) := by
  obtain ⟨hindex, hlt⟩ := sectionIndex_of_lt hx hy hz hwidth
  rw [← hentries] at hlt
  obtain ⟨value, hvalue, hlookup⟩ := hc.2 _ hlt
  refine ⟨value, hvalue, ?_⟩
  rw [hindex, Option.bind_some, get_mapPalette, hlookup]
  rfl

/-- Every lookup in range in a section of an accepted buffer finds the wire value. -/
theorem decodeSections_total (bytes : Bytes) (sections : List WireChunkSection) (r : CodecReader)
    (h : Chunk.decodeSections bytes = .ok sections r) :
    ∃ datas, Chunk.readSectionsData bytes = .ok datas r ∧
      List.Forall₂ (fun data wire =>
        (wire.blocks.entries = 4096 ∧ wire.biomes.entries = 64) ∧
        ((semanticSection wire).blocks.len = 4096 ∧ (semanticSection wire).biomes.len = 64) ∧
        (∀ x y z : UInt8, x.toNat < 16 → y.toNat < 16 → z.toNat < 16 →
          ∃ value, data.blocks.value (cell x y z 16) = some value ∧
            (semanticSection wire).block x y z = some ⟨value⟩) ∧
        (∀ x y z : UInt8, x.toNat < 4 → y.toNat < 4 → z.toNat < 4 →
          ∃ value, data.biomes.value (cell x y z 4) = some value ∧
            (semanticSection wire).biome x y z = some ⟨value⟩)) datas sections := by
  obtain ⟨datas, hdatas, hfaithful⟩ := Chunk.decodeSections_faithful h
  refine ⟨datas, hdatas, hfaithful.imp fun data wire hsection => ?_⟩
  obtain ⟨hblocks, hbiomes⟩ := hsection
  refine ⟨⟨hblocks.1, hbiomes.1⟩, ⟨?_, ?_⟩, ?_, ?_⟩
  · exact (len_mapPalette wire.blocks _).trans hblocks.1
  · exact (len_mapPalette wire.biomes _).trans hbiomes.1
  · intro x y z hx hy hz
    exact lookup_faithful hblocks RuntimeBlockStateId.mk rfl (Nat.le_refl 16) hx hy hz
  · intro x y z hx hy hz
    exact lookup_faithful hbiomes RuntimeBiomeId.mk rfl (by decide) hx hy hz

/-- A section of one block state, and of two biomes behind a palette. -/
theorem decodeSections_total_indirect :
    ∃ wire r datas, Chunk.decodeSections [0, 9, 0, 0, 0, 7, 1, 2, 5, 6, 0, 0, 0, 0, 0, 0, 0, 3] =
        .ok [wire] r ∧
      Chunk.readSectionsData [0, 9, 0, 0, 0, 7, 1, 2, 5, 6, 0, 0, 0, 0, 0, 0, 0, 3] =
        .ok [datas] r ∧
      (semanticSection wire).biomes.len = 64 ∧ (semanticSection wire).biome 1 0 0 = some ⟨6⟩ ∧
      (semanticSection wire).biome 2 0 0 = some ⟨5⟩ := by
  have hok : ((Chunk.decodeSections
      [0, 9, 0, 0, 0, 7, 1, 2, 5, 6, 0, 0, 0, 0, 0, 0, 0, 3]).value?.map fun sections =>
        sections.map fun wire => ((semanticSection wire).biome 1 0 0, (semanticSection wire).biome 2 0 0)) =
      some [(some ⟨6⟩, some ⟨5⟩)] := by
    decide +kernel
  cases hrun : Chunk.decodeSections [0, 9, 0, 0, 0, 7, 1, 2, 5, 6, 0, 0, 0, 0, 0, 0, 0, 3] with
  | ok sections r =>
    rw [hrun] at hok
    obtain ⟨wire, rfl, hlookups⟩ := List.map_eq_singleton_iff.mp (Option.some.inj hok)
    obtain ⟨datas, hdatas, hforall⟩ := decodeSections_total _ _ r hrun
    obtain ⟨data, rest, hdata, hrest, rfl⟩ := List.forall₂_cons_right_iff.mp hforall
    obtain rfl := List.forall₂_nil_right_iff.mp hrest
    obtain ⟨hfirst, hsecond⟩ := Prod.mk.inj hlookups
    exact ⟨wire, r, data, rfl, hdatas, hdata.2.1.2, hfirst, hsecond⟩
  | err e r =>
    rw [hrun] at hok
    cases hok
  | panic =>
    rw [hrun] at hok
    cases hok

end Cubic
