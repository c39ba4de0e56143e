import Cubic.Codec.StringLimits
import Cubic.Codec.VarIntAgreement
import Cubic.ItemWire.Patch
import Cubic.ItemWire.Session

/-!
# Writing a projected component again

The inventory keeps some components as numbers, flags and texts. What is written for them may
be other bytes than came, but the profile makes the same of both, and the session projects both
to one value.
-/

namespace Cubic.ItemWire

set_option autoImplicit false

open Inventory (ComponentError ComponentValue)

section Profile
variable {layout : NbtLayout} {profile : ItemStackProfile} {identifier : MinecraftIdentifier}
  {payload wire : Bytes} {hash : Option Int32} {patterns : Option BannerPatternLayers}

/-- The fingerprint of a value that `m` reads and `g` turns into the bytes to hash. -/
theorem componentHash_eq {α : Type} {m : ItemM α} {v : α}
    {g : α → Except InventoryCodecError (Option Bytes)} (hknown : Known profile identifier)
    (hm : hashPayload (componentCodec identifier) = m >>= fun v => Mut.ofExcept (g v))
    (hread : Reads m payload v) (s : CodecReader) : componentHash profile identifier payload s =
      Mut.ofExcept ((g v).map fun bytes => bytes.map fun bytes => (crc32c bytes).toInt32) s := by
  obtain ⟨raw, _, hlookup⟩ := hknown
  have hraw : profile.componentRawIds.lookup identifier = some raw :=
    ItemStackProfile.componentRawId_iff.mpr hlookup
  have hpayload : m (.new payload) = .ok v ⟨payload, []⟩ := hread.all.run
  unfold componentHash
  rw [hraw, Option.bind_some, hlookup]
  dsimp only
  unfold ownReader hashValue
  rw [hm, Mut.bind_assoc, Mut.bind_of_ok hpayload]
  cases g v with
  | error e => rfl
  | ok bytes => cases bytes <;> rfl

/-- Other bytes for the value that `m` reads. -/
theorem Valued.recode {α : Type} {m : ItemM α} {v : α}
    {g : α → Except InventoryCodecError (Option Bytes)}
    (h : Valued layout profile identifier payload hash patterns)
    (hm : hashPayload (componentCodec identifier) = m >>= fun v => Mut.ofExcept (g v))
    (hpayload : Reads m payload v) (hwire : Reads m wire v)
    (hread : Reads (readComponent layout profile (componentCodec identifier) identifier) wire
      patterns) (hsize : wire.length ≤ maxComponentValueBytes) :
    Valued layout profile identifier wire hash patterns where
  known := h.known
  reads := hread
  size_le := hsize
  hashed s := by
    rw [componentHash_eq h.known hm hwire, ← componentHash_eq h.known hm hpayload]
    exact h.hashed s

/-- What is read over leaves no patterns. -/
theorem Valued.reads_skip (h : Valued layout profile identifier payload hash patterns)
    (hcodec : componentCodec identifier ≠ .bannerPatterns)
    (hskip : Reads (skipComponent layout (componentCodec identifier) identifier) wire ()) :
    Reads (readComponent layout profile (componentCodec identifier) identifier) wire patterns := by
  rw [h.patterns_eq_none hcodec, readComponent, if_neg hcodec]
  exact hskip.bindNil (reads_pure none)

theorem Reads.skip {α : Type} {m : ItemM α} {v : α} (h : Reads m wire v) :
    Reads (skip m) wire () := h.bindNil (reads_pure ())

theorem Valued.varInt {v : Int32} (h : Valued layout profile identifier payload hash patterns)
    (hcodec : componentCodec identifier = .varInt) (hread : Reads readVarInt payload v) :
    Valued layout profile identifier (writeVarInt v) hash patterns := by
  have hne : componentCodec identifier ≠ .bannerPatterns := by
    rw [hcodec]
    exact nofun
  have hwire := (reads_varInt v).mapErr InventoryCodecError.codec
  refine h.recode (m := onCodec readVarInt) (v := v) (g := fun v =>
    .ok (some (primitiveHashPayload 8 (littleEndianI32 v)))) ?_ (hread.mapErr _) hwire ?_ ?_
  · rw [hcodec]
    rfl
  · apply h.reads_skip hne
    rw [hcodec]
    exact Reads.skip hwire
  · exact (length_writeVarInt_le v).trans (by decide)

theorem Valued.bool {v : Bool} (h : Valued layout profile identifier payload hash patterns)
    (hcodec : componentCodec identifier = .bool) (hread : Reads readBool payload v) :
    Valued layout profile identifier (writeBool v) hash patterns := by
  have hne : componentCodec identifier ≠ .bannerPatterns := by
    rw [hcodec]
    exact nofun
  have hwire := (reads_bool v).mapErr InventoryCodecError.codec
  refine h.recode (m := onCodec readBool) (v := v) (g := fun v =>
    .ok (some [13, if v then 1 else 0])) ?_ (hread.mapErr _) hwire ?_ ?_
  · rw [hcodec]
    rfl
  · apply h.reads_skip hne
    rw [hcodec]
    exact Reads.skip hwire
  · exact (Nat.le_refl 1).trans (by decide)

/-- The bytes to hash of a string. -/
def hashedString (value : String) : Except InventoryCodecError (Option Bytes) :=
  if (encodeUtf16 value).length ≤ i32Max then
    .ok (some (12 :: littleEndianI32 (.ofNat (encodeUtf16 value).length) ++
      (encodeUtf16 value).flatMap fun unit => (writeU16 unit).reverse))
  else .error (.valueOutOfRange "component string length" (encodeUtf16 value).length i32Max)

theorem hashPayload_string : hashPayload .string =
    onCodec (readString componentStringLimits) >>= fun value => Mut.ofExcept (hashedString value) := by
  rw [hashPayload]
  congr 1
  funext value
  dsimp only
  unfold hashedString
  split <;> rfl

theorem Valued.string {v : String} {bytes : Bytes}
    (h : Valued layout profile identifier payload hash patterns)
    (hcodec : componentCodec identifier = .string)
    (hread : Reads (readString componentStringLimits) payload v)
    (hwire : writeString v componentStringLimits = .ok bytes)
    (hsize : bytes.length ≤ maxComponentValueBytes) :
    Valued layout profile identifier bytes hash patterns := by
  have hne : componentCodec identifier ≠ .bannerPatterns := by
    rw [hcodec]
    exact nofun
  have hbytes := (reads_string hwire).mapErr InventoryCodecError.codec
  refine h.recode (m := onCodec (readString componentStringLimits)) (g := hashedString) ?_
    (hread.mapErr _) hbytes ?_ hsize
  · rw [hcodec]
    exact hashPayload_string
  · apply h.reads_skip hne
    rw [hcodec]
    exact Reads.skip hbytes

/-! ### The session's view -/

/-- A unit component has no bytes. -/
theorem Valued.unit (h : Valued layout profile identifier payload hash patterns)
    (hcodec : componentCodec identifier = .unit) : payload = [] := by
  have hread := h.reads [] []
  rw [hcodec] at hread
  obtain ⟨-, heq⟩ := Outcome.ok.inj hread
  exact (congrArg CodecReader.before heq).symm

end Profile

end Cubic.ItemWire
