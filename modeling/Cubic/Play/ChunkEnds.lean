import Cubic.Play.BlockUpdate
import Cubic.Play.ChunkTotal
import Cubic.Play.LevelChunk
import Cubic.Play.TextComponent
import Cubic.Schema.ReadsEnd

/-!
# The decoders of chunks end

The unpacking of the entries could panic, but there are as many words as it looks at. The text of
a component could, but it is bounded by the bytes that were read.
-/

namespace Cubic

set_option autoImplicit false

open Mut

namespace Chunk

instance ends_codec {α : Type} {m : ReaderM α} [Ends m] : Ends (Chunk.codec m) := by
  unfold Chunk.codec
  infer_instance

instance ends_readRuntimeId (context : String) : Ends (readRuntimeId context) := by
  unfold readRuntimeId
  infer_instance

instance ends_readCount (context : String) (max : Nat) : Ends (Chunk.readCount context max) := by
  unfold Chunk.readCount
  infer_instance

theorem unpackEntry_isSome {words : List UInt64} {bits : UInt8} {index : Nat}
    (h : index / (64 / bits.toNat) < words.length) :
    ∃ value, unpackEntry words bits index = some value := by
  unfold unpackEntry
  dsimp only
  rw [List.getElem?_eq_getElem h]
  exact ⟨_, rfl⟩

theorem mapM_isSome {α β : Type} {f : α → Option β} {as : List α}
    (h : ∀ a ∈ as, ∃ b, f a = some b) : ∃ bs, as.mapM f = some bs := by
  induction as with
  | nil => exact ⟨[], rfl⟩
  | cons a as ih =>
    obtain ⟨⟨b, hb⟩, hrest⟩ := List.forall_mem_cons.mp h
    obtain ⟨bs, hbs⟩ := ih hrest
    refine ⟨b :: bs, ?_⟩
    rw [List.mapM_cons, hb, hbs]
    rfl

/-- There are words for all entries. -/
theorem word_of_entry {entries perWord index : Nat} (hpos : 0 < perWord) (h : index < entries) :
    index / perWord < (entries + perWord - 1) / perWord := by
  rw [Nat.div_lt_iff_lt_mul hpos]
  have hround := Nat.div_add_mod (entries + perWord - 1) perWord
  have hmod := Nat.mod_lt (entries + perWord - 1) hpos
  rw [Nat.mul_comm]
  omega

theorem perWord_pos {bits : UInt8} {entries expected : Nat}
    (h : packedWordCount bits entries = some expected) : 0 < 64 / bits.toNat := by
  unfold packedWordCount at h
  split at h
  · cases h
  · dsimp only at h
    split at h
    · exact Nat.pos_of_ne_zero ‹_›
    · cases h

instance ends_unpackPacked (words : List UInt64) (bits : UInt8) (entries : Nat)
    (context : String) : Ends (unpackPacked words bits entries context) := by
  unfold unpackPacked
  cases hcount : packedWordCount bits entries with
  | none => exact ends_fail _
  | some expected =>
    dsimp only
    split
    · exact ends_fail _
    · rename_i hlength
      refine ends_ofOption (mapM_isSome fun index hindex => unpackEntry_isSome ?_)
      rw [not_not.mp hlength, packedWordCount_eq_some hcount]
      exact word_of_entry (perWord_pos hcount) (List.mem_range.mp hindex)

instance ends_readPacked (bits : UInt8) (entries : Nat) (context : String) :
    Ends (readPacked bits entries context) := by
  unfold readPacked
  split
  · infer_instance
  · infer_instance

instance ends_readPalette (kind : ContainerKind) (left : Nat) (palette : List UInt32) :
    Ends (readPalette kind left palette) := by
  induction left generalizing palette with
  | zero => exact ends_pure palette
  | succ left ih =>
    unfold readPalette
    infer_instance

instance ends_checkIndices (kind : ContainerKind) (paletteLen entry : Nat)
    (indices : List UInt16) : Ends (checkIndices kind paletteLen entry indices) := by
  induction indices generalizing entry with
  | nil => exact ends_pure ()
  | cons index indices ih =>
    unfold checkIndices
    infer_instance

instance ends_decodeContainer (kind : ContainerKind) : Ends (decodeContainer kind) := by
  unfold decodeContainer
  infer_instance

instance ends_validateSectionCount (field : String) (value : Int16) (max : Nat) :
    Ends (validateSectionCount field value max) := by
  unfold validateSectionCount
  infer_instance

instance ends_decodeSection : Ends decodeSection := by
  unfold decodeSection
  infer_instance

instance ends_untilConsumed {α : Type} {decode : ChunkM α} [Ends decode] (left : Nat) :
    Ends (untilConsumed decode left) := by
  induction left with
  | zero =>
    unfold untilConsumed
    infer_instance
  | succ left ih =>
    unfold untilConsumed
    infer_instance

theorem decodeSections_ne_panic (bytes : Bytes) : decodeSections bytes ≠ .panic := by
  have hends : Ends (do
      let sections ← untilConsumed decodeSection maxChunkSections
      if sections.isEmpty then Mut.fail .emptySections else pure sections : ChunkM _) :=
    inferInstance
  exact hends.ne_panic (.new bytes)

instance ends_onSlice_decodeSections (bytes : Bytes) : Ends (onSlice (decodeSections bytes)) := by
  have hne := decodeSections_ne_panic bytes
  unfold onSlice
  cases h : decodeSections bytes with
  | ok sections r => exact ends_pure sections
  | err e r => exact ends_fail e
  | panic => exact absurd h hne

theorem readHeightmaps_succ (left : Nat) (seen : List UInt32) :
    readHeightmaps (left + 1) seen = (do
      let kindRawId ← readRuntimeId "heightmap kind"
      if kindRawId ∈ seen then Mut.fail (.duplicateHeightmap kindRawId)
      else do
        let longs ← readCount "heightmap long" maxHeightmapLongs
        let data ← Mut.repeatCall (codec readU64) longs
        let rest ← readHeightmaps left (kindRawId :: seen)
        pure (⟨kindRawId, data⟩ :: rest)) := rfl

instance ends_readHeightmaps (left : Nat) (seen : List UInt32) :
    Ends (readHeightmaps left seen) := by
  induction left generalizing seen with
  | zero => exact ends_pure []
  | succ left ih =>
    rw [readHeightmaps_succ]
    infer_instance

instance ends_nbtTag (limits : NbtLimits) (layout : NbtLayout) :
    Ends (Chunk.nbt (decodeUnnamedNetworkTag limits layout)) := by
  refine ⟨fun r h => ?_⟩
  have hne : decodeUnnamedNetworkTag limits layout (.new r) ≠ .panic :=
    pays_unnamedNetworkTag.not_panic _
  unfold Chunk.nbt at h
  split at h
  · cases h
  · cases h
  · exact absurd ‹_› hne

instance ends_probeU8 : Ends probeU8 := by
  refine ⟨fun r h => ?_⟩
  have hne : Chunk.codec readU8 r ≠ .panic := Ends.ne_panic r
  unfold probeU8 at h
  split at h
  · cases h
  · cases h
  · exact absurd ‹_› hne

instance ends_readBlockEntityData (layout : NbtLayout) : Ends (readBlockEntityData layout) := by
  unfold readBlockEntityData
  refine ends_probeU8.bind fun rootType => ?_
  split
  · infer_instance
  · refine (ends_nbtTag _ layout).bind fun tag => ?_
    split
    · infer_instance
    · infer_instance

instance ends_readLightLayer (kind : String) (maskIndex : Nat) :
    Ends (readLightLayer kind maskIndex) := by
  unfold readLightLayer
  infer_instance

instance ends_decodeLightLayers (kind : String) (mask : List UInt64) :
    Ends (decodeLightLayers kind mask) := by
  unfold decodeLightLayers
  infer_instance

instance ends_validateDisjoint (kind : String) (data empty : List UInt64) :
    Ends (validateDisjoint kind data empty) := by
  unfold validateDisjoint
  infer_instance

instance ends_decodeLightData : Ends decodeLightData := by
  unfold decodeLightData
  infer_instance

instance ends_decodeHeightmaps : Ends decodeHeightmaps := by
  unfold decodeHeightmaps
  infer_instance

instance ends_decodeBlockEntity (layout : NbtLayout) : Ends (decodeBlockEntity layout) := by
  unfold decodeBlockEntity
  infer_instance

instance ends_decodeBlockEntities (layout : NbtLayout) : Ends (decodeBlockEntities layout) := by
  unfold decodeBlockEntities
  infer_instance

instance ends_decodeLevelChunkWithLight (layout : NbtLayout) :
    Ends (decodeLevelChunkWithLight layout) := by
  unfold decodeLevelChunkWithLight
  infer_instance

instance ends_decodeLightUpdate : Ends decodeLightUpdate := by
  unfold decodeLightUpdate
  infer_instance

end Chunk

/-! ### Packets -/

instance ends_codec {α : Type} {m : ReaderM α} [Ends m] : Ends (codec m) := by
  unfold codec
  infer_instance

instance ends_requireConsumed (context : String) : Ends (requireConsumed context) := by
  unfold requireConsumed
  infer_instance

instance ends_readCount (context : String) (max : Nat) : Ends (readCount context max) := by
  unfold readCount
  infer_instance

instance ends_decodeBlockUpdate : Ends decodeBlockUpdate := by
  unfold decodeBlockUpdate
  infer_instance

instance ends_decodeSectionBlockUpdate : Ends decodeSectionBlockUpdate := by
  unfold decodeSectionBlockUpdate
  infer_instance

instance ends_decodeSectionBlocksUpdate : Ends decodeSectionBlocksUpdate := by
  unfold decodeSectionBlocksUpdate
  infer_instance

instance ends_decodeTextComponent (layout : NbtLayout) : Ends (decodeTextComponent layout) := by
  refine ⟨fun r h => ?_⟩
  have hwp := decodeTextComponent_plainText layout r
  unfold Mut.wp at hwp
  rw [h] at hwp
  exact hwp

end Cubic
