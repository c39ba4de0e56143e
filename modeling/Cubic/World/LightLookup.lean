import Cubic.Lib.Rank
import Cubic.Codec.BitSetCodec
import Cubic.Render.Sampling
import Cubic.World.ChunkAdapter
import Mathlib.Data.Nat.Bitwise

/-!
# What is looked up of a light packet

A section's bit is the one after its index. The arrays stand in the order of their bits.
-/

namespace Cubic.World

set_option autoImplicit false

inductive LightKind where
  | sky
  | block
  deriving DecidableEq

end Cubic.World

namespace Cubic.WireLightData

set_option autoImplicit false

open World

def dataMask (light : WireLightData) : LightKind → List UInt64
  | .sky => light.skyMask
  | .block => light.blockMask

def emptyMask (light : WireLightData) : LightKind → List UInt64
  | .sky => light.emptySkyMask
  | .block => light.emptyBlockMask

def arrays (light : WireLightData) : LightKind → List Bytes
  | .sky => light.skyLayers.map (·.data)
  | .block => light.blockLayers.map (·.data)

end Cubic.WireLightData

namespace Cubic.World

set_option autoImplicit false

open Cubic.Chunk

def ChunkLightSummary.lookup (light : ChunkLightSummary) : LightKind → Nat → UInt8 → UInt8 → UInt8 →
    Option UInt8
  | .sky => light.sky
  | .block => light.block

/-- What a pair of masks and its arrays are, with what is looked up from them. -/
structure LightChannel (data empty : List UInt64) (arrays : List Bytes)
    (lookup : Nat → UInt8 → UInt8 → UInt8 → Option UInt8) : Prop where
  disjoint : ∀ bit, ¬ (wordsIsSet data bit ∧ wordsIsSet empty bit)
  counted : arrays.length = Rank.below (wordsIsSet data) (64 * data.length)
  known : ∀ sectionOffset x y z, x < 16 → y < 16 → z < 16 →
    ((lookup sectionOffset x y z).isSome ↔
      wordsIsSet data (sectionOffset + 1) ∨ wordsIsSet empty (sectionOffset + 1))
  dark : ∀ sectionOffset x y z, x < 16 → y < 16 → z < 16 →
    wordsIsSet empty (sectionOffset + 1) → lookup sectionOffset x y z = some 0
  lit : ∀ sectionOffset x y z, x < 16 → y < 16 → z < 16 → wordsIsSet data (sectionOffset + 1) →
    ∃ array byte, arrays[Rank.below (wordsIsSet data) (sectionOffset + 1)]? = some array ∧
      array[(y.toNat * 256 + z.toNat * 16 + x.toNat) / 2]? = some byte ∧
      lookup sectionOffset x y z = some
        (if (y.toNat * 256 + z.toNat * 16 + x.toNat) % 2 = 0 then byte % 16 else byte / 16)

/-! ### Masks -/

theorem wordBit_iff {word : UInt64} {bit : Nat} (hbit : bit < 64) :
    word &&& ((1 : UInt64) <<< .ofNat bit) ≠ 0 ↔ word.toNat.testBit bit = true := by
  have hshift : ((1 : UInt64) <<< UInt64.ofNat bit).toNat = 2 ^ bit := by
    rw [UInt64.toNat_shiftLeft, UInt64.toNat_ofNat_of_lt' (lt_trans hbit (by decide)),
      Nat.mod_eq_of_lt hbit, UInt64.toNat_one, Nat.one_shiftLeft]
    exact Nat.mod_eq_of_lt (Nat.pow_lt_pow_right (by decide) hbit)
  rw [Ne, ← UInt64.toNat_inj, UInt64.toNat_and, hshift, Nat.and_two_pow, UInt64.toNat_zero,
    Nat.mul_eq_zero, not_or]
  cases word.toNat.testBit bit <;> simp

theorem lt_of_wordsIsSet {words : List UInt64} {bit : Nat} (h : wordsIsSet words bit = true) :
    bit < 64 * words.length := by
  by_contra hge
  unfold wordsIsSet at h
  rw [List.getElem?_eq_none (by omega)] at h
  cases h

theorem wordsIsSet_cons_low (word : UInt64) (words : List UInt64) {bit : Nat} (hbit : bit < 64) :
    wordsIsSet (word :: words) bit = decide (word &&& ((1 : UInt64) <<< .ofNat bit) ≠ 0) := by
  unfold wordsIsSet
  rw [Nat.div_eq_of_lt hbit, Nat.mod_eq_of_lt hbit]
  rfl

theorem wordsIsSet_cons_high (word : UInt64) (words : List UInt64) (bit : Nat) :
    wordsIsSet (word :: words) (64 + bit) = wordsIsSet words bit := by
  unfold wordsIsSet
  rw [Nat.add_div_left _ (by decide), Nat.add_mod_left]
  rfl

theorem setBitIndices_from (words : List UInt64) : ∀ k,
    (words.zipIdx k).flatMap (fun entry => (setBitsOf entry.1).map (entry.2 * 64 + ·)) =
      ((List.range (64 * words.length)).filter (wordsIsSet words)).map (k * 64 + ·) := by
  induction words with
  | nil => exact fun _ => rfl
  | cons word words ih =>
    intro k
    have hlow : (List.range 64).filter (wordsIsSet (word :: words)) = setBitsOf word := by
      apply List.filter_congr
      exact fun bit hbit => wordsIsSet_cons_low word words (List.mem_range.mp hbit)
    have hhigh : wordsIsSet (word :: words) ∘ (64 + ·) = wordsIsSet words := by
      funext bit
      exact wordsIsSet_cons_high word words bit
    have hrange : List.range (64 * (word :: words).length) =
        List.range 64 ++ (List.range (64 * words.length)).map (64 + ·) := by
      rw [List.length_cons, Nat.mul_succ, Nat.add_comm, List.range_add]
    rw [List.zipIdx_cons, List.flatMap_cons, ih, hrange, List.filter_append, hlow, List.filter_map,
      hhigh, List.map_append, List.map_map]
    congr 1
    apply List.map_congr_left
    intro bit _
    simp only [Function.comp_apply]
    omega

theorem setBitIndices_eq (words : List UInt64) :
    setBitIndices words = (List.range (64 * words.length)).filter (wordsIsSet words) := by
  refine (setBitIndices_from words 0).trans ?_
  simp

theorem disjoint_of_validate {kind : String} {data empty : List UInt64} {r r' : CodecReader}
    (h : validateDisjoint kind data empty r = .ok () r') (bit : Nat) :
    ¬ (wordsIsSet data bit ∧ wordsIsSet empty bit) := by
  unfold validateDisjoint at h
  split at h
  · cases h
  rename_i hnone
  intro hboth
  obtain ⟨left, hleft, hdata⟩ := (Option.any_eq_true _ _).mp hboth.1
  obtain ⟨right, hright, hempty⟩ := (Option.any_eq_true _ _).mp hboth.2
  apply hnone
  rw [List.any_eq_true]
  refine ⟨(left, right), ?_, ?_⟩
  · apply List.mem_of_getElem? (i := bit / 64)
    rw [List.getElem?_zip_eq_some]
    exact ⟨hleft, hright⟩
  · have hlt : bit % 64 < 64 := Nat.mod_lt _ (by decide)
    have hl := (wordBit_iff hlt).mp (of_decide_eq_true hdata)
    have hr := (wordBit_iff hlt).mp (of_decide_eq_true hempty)
    apply decide_eq_true
    intro hzero
    have hand := congrArg UInt64.toNat hzero
    rw [UInt64.toNat_and] at hand
    have htest := congrArg (Nat.testBit · (bit % 64)) hand
    simp [Nat.testBit_and, hl, hr] at htest

/-! ### What the decoder accepts -/

theorem readBitSet_length {limits : BitSetLimits} {r r' : CodecReader} {s : BitSet}
    (h : readBitSet limits r = .ok s r') : s.words.length ≤ limits.maximumEncodedWords := by
  obtain ⟨count, t, _, h⟩ := Mut.bind_eq_ok.mp h
  split at h
  · cases h
  obtain ⟨words, t', _, h⟩ := Mut.bind_eq_ok.mp h
  obtain ⟨hvalid, hpop⟩ := fromWords_eq_ok.mp (Mut.ofExcept_eq_ok.mp h).1
  rw [hpop]
  exact (length_popZeros_le words).trans (validateWords_eq_ok.mp hvalid).1

/-- One array for each index, in their order. -/
theorem mapM_readLightLayer {kind : String} (indices : List Nat) :
    ∀ {r r' : CodecReader} {layers : List WireLightLayer},
      indices.mapM (readLightLayer kind) r = .ok layers r' →
        layers.map (·.maskIndex) = indices ∧
          ∀ layer ∈ layers, layer.data.length = lightLayerBytes := by
  induction indices with
  | nil =>
    intro r r' layers h
    cases h
    exact ⟨rfl, fun _ hmem => absurd hmem List.not_mem_nil⟩
  | cons index indices ih =>
    intro r r' layers h
    rw [List.mapM_cons] at h
    obtain ⟨layer, t, hlayer, h⟩ := Mut.bind_eq_ok.mp h
    obtain ⟨rest, t', hrest, h⟩ := Mut.bind_eq_ok.mp h
    cases h
    obtain ⟨hkeys, hlengths⟩ := ih hrest
    obtain ⟨bytes, u, _, hlayer⟩ := Mut.bind_eq_ok.mp hlayer
    split at hlayer
    · cases hlayer
    rename_i hlength
    cases hlayer
    refine ⟨?_, ?_⟩
    · rw [List.map_cons, hkeys]
    · rw [List.forall_mem_cons]
      exact ⟨not_not.mp hlength, hlengths⟩

theorem decodeLightLayers_eq_ok {kind : String} {mask : List UInt64} {r r' : CodecReader}
    {layers : List WireLightLayer} (h : decodeLightLayers kind mask r = .ok layers r') :
    layers.map (·.maskIndex) = (List.range (64 * mask.length)).filter (wordsIsSet mask) ∧
      ∀ layer ∈ layers, layer.data.length = lightLayerBytes := by
  obtain ⟨count, t, _, h⟩ := Mut.bind_eq_ok.mp h
  split at h
  · cases h
  obtain ⟨hkeys, hlengths⟩ := mapM_readLightLayer _ h
  exact ⟨hkeys.trans (setBitIndices_eq mask), hlengths⟩

/-! ### Lookups -/

theorem maskContains_eq : ChunkLightSummary.maskContains = wordsIsSet := rfl

theorem low_nibble (byte : UInt8) : byte &&& 0x0f = byte % 16 := by
  apply UInt8.toNat_inj.mp
  rw [UInt8.toNat_and, UInt8.toNat_mod]
  exact Nat.and_two_pow_sub_one_eq_mod _ 4

theorem high_nibble (byte : UInt8) : byte >>> 4 = byte / 16 := by
  apply UInt8.toNat_inj.mp
  rw [UInt8.toNat_shiftRight, UInt8.toNat_div]
  exact Nat.shiftRight_eq_div_pow _ 4

/-- The lookup of either kind of light, from the layers and the mask of the empty sections. -/
def channelLookup (empty : List UInt64) (layers : List LightLayerData) (sectionOffset : Nat)
    (x y z : UInt8) : Option UInt8 := do
  let index ← checkedAdd sectionOffset 1
  (ChunkLightSummary.lightValue layers index x y z).or
    (if ChunkLightSummary.maskContains empty index then some 0 else none)

theorem lightValue_of_find {layers : List LightLayerData} {index : Nat} {layer : LightLayerData}
    (hfind : layers.find? (fun layer => layer.maskIndex = index) = some layer)
    (hlength : layer.data.length = lightLayerBytes) {x y z : UInt8} (hx : x < 16) (hy : y < 16)
    (hz : z < 16) :
    ∃ byte, layer.data[(y.toNat * 256 + z.toNat * 16 + x.toNat) / 2]? = some byte ∧
      ChunkLightSummary.lightValue layers index x y z = some
        (if (y.toNat * 256 + z.toNat * 16 + x.toNat) % 2 = 0 then byte % 16 else byte / 16) := by
  have hxn : x.toNat < 16 := UInt8.lt_iff_toNat_lt.mp hx
  have hyn : y.toNat < 16 := UInt8.lt_iff_toNat_lt.mp hy
  have hzn : z.toNat < 16 := UInt8.lt_iff_toNat_lt.mp hz
  have hin : (y.toNat * 256 + z.toNat * 16 + x.toNat) / 2 < layer.data.length := by
    rw [hlength, lightLayerBytes]
    omega
  refine ⟨_, List.getElem?_eq_getElem hin, ?_⟩
  have hlocal : ¬ (x ≥ 16 ∨ y ≥ 16 ∨ z ≥ 16) := by
    rw [not_or, not_or]
    exact ⟨UInt8.not_le.mpr hx, UInt8.not_le.mpr hy, UInt8.not_le.mpr hz⟩
  unfold ChunkLightSummary.lightValue
  rw [if_neg hlocal, hfind]
  dsimp only [Option.bind_eq_bind, Option.bind_some]
  rw [List.getElem?_eq_getElem hin, Option.bind_some, low_nibble, high_nibble]

theorem lightValue_none {layers : List LightLayerData} {index : Nat} (x y z : UInt8)
    (hfind : layers.find? (fun layer => layer.maskIndex = index) = none) :
    ChunkLightSummary.lightValue layers index x y z = none := by
  unfold ChunkLightSummary.lightValue
  rw [hfind]
  simp

theorem channelLookup_eq {words : List UInt64} (empty : List UInt64)
    (layers : List LightLayerData) {sectionOffset : Nat} (x y z : UInt8) (hlength : words.length ≤ 2)
    (hbit : wordsIsSet words (sectionOffset + 1)) :
    channelLookup empty layers sectionOffset x y z =
      (ChunkLightSummary.lightValue layers (sectionOffset + 1) x y z).or
        (if wordsIsSet empty (sectionOffset + 1) then some 0 else none) := by
  have hlt := lt_of_wordsIsSet hbit
  have hindex : checkedAdd sectionOffset 1 = some (sectionOffset + 1) := by
    unfold checkedAdd
    rw [if_pos (by unfold usizeMax; omega)]
  unfold channelLookup
  rw [hindex]
  rfl

theorem lightChannel {data empty : List UInt64} {layers : List WireLightLayer}
    (hdata : data.length ≤ 2) (hempty : empty.length ≤ 2)
    (hdisjoint : ∀ bit, ¬ (wordsIsSet data bit ∧ wordsIsSet empty bit))
    (hkeys : layers.map (·.maskIndex) =
      (List.range (64 * data.length)).filter (wordsIsSet data))
    (hlengths : ∀ layer ∈ layers, layer.data.length = lightLayerBytes) :
    LightChannel data empty (layers.map (·.data))
      (channelLookup empty (layers.map fun layer => ⟨layer.maskIndex, layer.data⟩)) := by
  have hdense : Rank.Dense (wordsIsSet data) LightLayerData.maskIndex (64 * data.length)
      (layers.map fun layer => ⟨layer.maskIndex, layer.data⟩) := by
    rw [Rank.Dense, List.map_map]
    exact hkeys
  have hdark : ∀ sectionOffset x y z, x < 16 → y < 16 → z < 16 →
      wordsIsSet empty (sectionOffset + 1) →
      channelLookup empty (layers.map fun layer => ⟨layer.maskIndex, layer.data⟩) sectionOffset
        x y z = some 0 := by
    intro sectionOffset x y z _ _ _ hbit
    have habsent := hdense.find_absent fun h => hdisjoint (sectionOffset + 1) ⟨h, hbit⟩
    rw [channelLookup_eq _ _ x y z hempty hbit, lightValue_none x y z habsent, Option.none_or,
      if_pos hbit]
  have hlit : ∀ sectionOffset x y z, x < 16 → y < 16 → z < 16 →
      wordsIsSet data (sectionOffset + 1) →
      ∃ array byte, (layers.map (·.data))[Rank.below (wordsIsSet data) (sectionOffset + 1)]? =
          some array ∧
        array[(y.toNat * 256 + z.toNat * 16 + x.toNat) / 2]? = some byte ∧
        channelLookup empty (layers.map fun layer => ⟨layer.maskIndex, layer.data⟩) sectionOffset
          x y z = some
            (if (y.toNat * 256 + z.toNat * 16 + x.toNat) % 2 = 0 then byte % 16 else byte / 16) := by
    intro sectionOffset x y z hx hy hz hbit
    obtain ⟨layer, hrank, hfind⟩ := hdense.find_present (lt_of_wordsIsSet hbit) hbit
    rw [List.getElem?_map] at hrank
    obtain ⟨wire, hwire, rfl⟩ := Option.map_eq_some_iff.mp hrank
    obtain ⟨byte, hbyte, hvalue⟩ := lightValue_of_find hfind
      (hlengths wire (List.mem_of_getElem? hwire)) hx hy hz
    refine ⟨wire.data, byte, ?_, hbyte, ?_⟩
    · rw [List.getElem?_map, hwire]
      rfl
    · rw [channelLookup_eq _ _ x y z hdata hbit, hvalue, Option.some_or]
  refine ⟨hdisjoint, ?_, ?_, hdark, hlit⟩
  · rw [List.length_map, ← hdense.length, List.length_map]
  · intro sectionOffset x y z hx hy hz
    constructor
    · intro hsome
      by_contra hnone
      rw [not_or] at hnone
      have habsent := hdense.find_absent hnone.1
      unfold channelLookup at hsome
      cases hindex : checkedAdd sectionOffset 1 with
      | none =>
        rw [hindex] at hsome
        cases hsome
      | some index =>
        have heq : index = sectionOffset + 1 := by
          unfold checkedAdd at hindex
          split at hindex
          · exact (Option.some.inj hindex).symm
          · cases hindex
        rw [hindex, heq] at hsome
        dsimp only [Option.bind_eq_bind, Option.bind_some] at hsome
        rw [lightValue_none x y z habsent, Option.none_or, maskContains_eq, if_neg hnone.2] at hsome
        cases hsome
    · intro h
      rcases h with h | h
      · obtain ⟨_, _, _, _, hvalue⟩ := hlit sectionOffset x y z hx hy hz h
        rw [hvalue]
        rfl
      · rw [hdark sectionOffset x y z hx hy hz h]
        rfl

theorem channel_of_decode {r r' : CodecReader} {light : WireLightData}
    (h : decodeLightData r = .ok light r') (kind : LightKind) :
    LightChannel (light.dataMask kind) (light.emptyMask kind) (light.arrays kind)
      ((semanticLight light).lookup kind) := by
  obtain ⟨sky, _, hsky, h⟩ := Mut.bind_eq_ok.mp h
  obtain ⟨block, _, hblock, h⟩ := Mut.bind_eq_ok.mp h
  obtain ⟨emptySky, _, hemptySky, h⟩ := Mut.bind_eq_ok.mp h
  obtain ⟨emptyBlock, _, hemptyBlock, h⟩ := Mut.bind_eq_ok.mp h
  obtain ⟨_, _, hskyDisjoint, h⟩ := Mut.bind_eq_ok.mp h
  obtain ⟨_, _, hblockDisjoint, h⟩ := Mut.bind_eq_ok.mp h
  obtain ⟨skyLayers, _, hskyLayers, h⟩ := Mut.bind_eq_ok.mp h
  obtain ⟨blockLayers, _, hblockLayers, h⟩ := Mut.bind_eq_ok.mp h
  cases h
  cases kind with
  | sky =>
    obtain ⟨hkeys, hlengths⟩ := decodeLightLayers_eq_ok hskyLayers
    exact lightChannel (readBitSet_length (Mut.mapErr_eq_ok.mp hsky))
      (readBitSet_length (Mut.mapErr_eq_ok.mp hemptySky)) (disjoint_of_validate hskyDisjoint)
      hkeys hlengths
  | block =>
    obtain ⟨hkeys, hlengths⟩ := decodeLightLayers_eq_ok hblockLayers
    exact lightChannel (readBitSet_length (Mut.mapErr_eq_ok.mp hblock))
      (readBitSet_length (Mut.mapErr_eq_ok.mp hemptyBlock)) (disjoint_of_validate hblockDisjoint)
      hkeys hlengths

/-- Both kinds of light of every payload that is accepted. -/
theorem decodeLightData_channels {r r' : CodecReader} {light : WireLightData}
    (h : decodeLightData r = .ok light r') :
    LightChannel light.skyMask light.emptySkyMask (light.skyLayers.map (·.data))
        (semanticLight light).sky ∧
      LightChannel light.blockMask light.emptyBlockMask (light.blockLayers.map (·.data))
        (semanticLight light).block :=
  ⟨channel_of_decode h .sky, channel_of_decode h .block⟩

/-- A payload that names the lowest section, as one without sky light. -/
theorem decodeLightData_channels_dark :
    (semanticLight ⟨[], [], [2], [], 0, 0, [], []⟩).sky 0 3 4 5 = some 0 := by
  have h : decodeLightData (.new [0, 0, 1, 0, 0, 0, 0, 0, 0, 0, 2, 0, 0, 0]) =
      .ok ⟨[], [], [2], [], 0, 0, [], []⟩ ⟨[0, 0, 1, 0, 0, 0, 0, 0, 0, 0, 2, 0, 0, 0], []⟩ := rfl
  exact (decodeLightData_channels h).1.dark 0 3 4 5 (by decide) (by decide) (by decide) rfl

end Cubic.World
