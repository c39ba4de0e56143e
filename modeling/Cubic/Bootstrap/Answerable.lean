import Cubic.Bootstrap.Reaction
import Cubic.Codec.StringLimits
import Cubic.Codec.VarIntAgreement
import Cubic.Lib.Ends
import Cubic.Nbt.Wire

/-!
# Every answer can be encoded

What a client that joins takes from the server's packets goes back into its answers within the
same limits.
-/

namespace Cubic

set_option autoImplicit false

open Mut

/-- A string that is read and written within these limits. -/
structure StringLimits.Fits (limits : StringLimits) (value : String) : Prop where
  units : utf16Units value ≤ limits.maxUtf16Units
  bytes : (utf8Bytes value).length ≤ limits.maxEncodedBytes

theorem gives_readString (limits : StringLimits) : Gives limits.Fits (readString limits) :=
  fun _ _ _ h => ⟨(readString_ok h).1, (readString_ok h).2⟩

theorem writeString_isOk {limits : StringLimits} {value : String} (h : limits.Fits value)
    (hmax : limits.maxEncodedBytes ≤ i32Max) : ∃ bytes, writeString value limits = .ok bytes ∧
      bytes.length ≤ 5 + limits.maxEncodedBytes := by
  refine ⟨_, writeString_eq limits h.units h.bytes (h.bytes.trans hmax), ?_⟩
  rw [List.length_append]
  exact Nat.add_le_add (length_writeVarInt_le _) h.bytes

namespace Bootstrap

theorem frame_isOk {body : Bytes} (h : body.length ≤ maxBootstrapFrameSize) :
    ∃ bytes, frame body = .ok bytes := by
  refine ⟨writeVarInt (.ofNat body.length) ++ body, ?_⟩
  unfold frame encodeFrame writeLength
  dsimp only
  rw [show min maxBootstrapFrameSize minecraftMaxFrameSize = maxBootstrapFrameSize from rfl, if_neg (Nat.not_lt.mpr h), if_pos (Nat.le_trans h (by decide))]
  rfl

/-- The profile has an encoding of the packet. -/
def ClientPacket.Encodable (packet : ClientPacket) : Prop := ∃ bytes, packet.encode = .ok bytes

theorem encodable_cookie (id : Int32) {key : String} (h : identifierLimits.Fits key) :
    ∃ bytes, encodeEmptyCookieResponse id key = .ok bytes := by
  obtain ⟨bytes, hbytes, hlength⟩ := writeString_isOk h (by decide)
  unfold encodeEmptyCookieResponse
  rw [hbytes]
  refine frame_isOk ?_
  have hid := length_writeVarInt_le id
  have hmax : identifierLimits.maxEncodedBytes = 32767 := rfl
  have hframe : maxBootstrapFrameSize = 2 ^ 21 - 1 := rfl
  have hflag : (writeBool false).length = 1 := rfl
  rw [List.length_append, List.length_append]
  omega

theorem encodable_short (id : Int32) (body : Bytes) (h : body.length ≤ 8) :
    ∃ bytes, frame (writeVarInt id ++ body) = .ok bytes := by
  refine frame_isOk ?_
  have hid := length_writeVarInt_le id
  have hframe : maxBootstrapFrameSize = 2 ^ 21 - 1 := rfl
  rw [List.length_append]
  omega

theorem encodable_bare (id : Int32) : ∃ bytes, packetWithoutPayload id = .ok bytes :=
  frame_isOk (Nat.le_trans (length_writeVarInt_le id) (by decide))

theorem encodable_clientInformation : (ClientPacket.clientInformation .default).Encodable :=
  ⟨_, rfl⟩

theorem encodable_varInt (id value : Int32) :
    ∃ bytes, frame (writeVarInt id ++ writeVarInt value) = .ok bytes :=
  encodable_short id _ (Nat.le_trans (length_writeVarInt_le value) (by decide))

theorem encodable_pong (id value : Int32) :
    ∃ bytes, frame (writeVarInt id ++ writeI32 value) = .ok bytes :=
  encodable_short id _ (Nat.le_trans (Nat.le_of_eq (length_writeI32 value)) (by decide))

theorem encodable_pluginResponse (transactionId : Int32) :
    (ClientPacket.loginPluginResponse transactionId).Encodable := by
  refine encodable_short 0x02 _ ?_
  have hid := length_writeVarInt_le transactionId
  have hflag : (writeBool false).length = 1 := rfl
  rw [List.length_append]
  omega

theorem DevelopmentUsername.fits (username : DevelopmentUsername) :
    usernameLimits.Fits username.text := by
  have hbytes : username.text.utf8ByteSize ≤ maxUsernameUtf16Units := by
    have hvalid := username.valid
    unfold validateUsername at hvalid
    split at hvalid
    · cases hvalid
    · split at hvalid
      · cases hvalid
      · exact Nat.le_of_not_lt ‹_›
  exact ⟨(utf16Units_le _).trans hbytes, hbytes.trans (by decide)⟩

theorem encodable_loginStart (username : DevelopmentUsername) (uuid : Chat.ProtocolUuid) :
    (ClientPacket.loginStart username.text uuid).Encodable := by
  obtain ⟨bytes, hbytes, hlength⟩ := writeString_isOk username.fits (by decide)
  change ∃ bytes, encodeLoginStart username.text uuid = .ok bytes
  unfold encodeLoginStart
  rw [hbytes]
  refine frame_isOk ?_
  have hid := length_writeVarInt_le 0x00
  have hmax : usernameLimits.maxEncodedBytes = 48 := rfl
  have hframe : maxBootstrapFrameSize = 2 ^ 21 - 1 := rfl
  have huuid : uuid.toList.length = 16 := uuid.length_toList
  rw [List.length_append, List.length_append]
  omega

/-! ### The keys of cookies -/

theorem gives_wire {α : Type} {P : α → Prop} {m : ReaderM α} (h : Gives P m) :
    Gives P (wire m) := (h.mapErr _).mapErr _

theorem gives_decodeKey (context : String) :
    Gives identifierLimits.Fits (decodeKey context) := by
  unfold decodeKey
  refine (gives_wire (gives_readString identifierLimits)).bind fun key hkey => ?_
  exact gives_bind fun _ => gives_pure hkey

/-- A decoder of frames. -/
theorem gives_decodeFrame {α : Type} {P : α → Prop} {decode : Int32 → DecodeM α}
    (h : ∀ id, Gives P (decode id)) {frameBody : Bytes} {packet : α}
    (hdecode : decodeFrame frameBody decode = some (.ok packet)) : P packet := by
  unfold decodeFrame at hdecode
  split at hdecode
  · cases hdecode
  · rename_i raw _
    cases hs : decode raw.id (.new raw.payload) with
    | ok value r =>
      rw [hs] at hdecode
      cases hdecode
      exact h raw.id _ _ _ hs
    | err e r =>
      rw [hs] at hdecode
      cases hdecode
    | panic =>
      rw [hs] at hdecode
      cases hdecode

section
variable (username : DevelopmentUsername) (layout : NbtLayout)

/-- Everything that is answered can be encoded. -/
def Reaction.Encodable (reaction : Reaction) : Prop := ∀ packet ∈ reaction.1, packet.Encodable

theorem encodable_none (stage : Stage) : Reaction.Encodable ([], stage) := nofun

theorem encodable_one {packet : ClientPacket} (stage : Stage) (h : packet.Encodable) :
    Reaction.Encodable ([packet], stage) := List.forall_mem_singleton.mpr h

/-! ### Login -/

def LoginClientbound.KeyFits : LoginClientbound → Prop
  | cookieRequest key => identifierLimits.Fits key
  | _ => True

theorem gives_decodeLoginPayload (id : Int32) :
    Gives LoginClientbound.KeyFits (decodeLoginPayload id) := by
  unfold decodeLoginPayload
  repeat' first
    | exact (gives_decodeKey _).bind fun key hkey => gives_pure hkey
    | exact gives_pure trivial
    | exact gives_fail _
    | refine gives_ite ?_ ?_
    | refine gives_bind fun _ => ?_

theorem encodable_loginReaction {packet : LoginClientbound} (h : packet.KeyFits) :
    Reaction.Encodable (loginReaction username packet) := by
  cases packet with
  | pluginRequest transactionId channel payload =>
    exact encodable_one _ (encodable_pluginResponse transactionId)
  | cookieRequest key => exact encodable_one _ (encodable_cookie 0x04 h)
  | success success =>
    unfold loginReaction
    dsimp only
    split
    · exact List.forall_mem_cons.mpr ⟨encodable_bare 0x03,
        List.forall_mem_singleton.mpr encodable_clientInformation⟩
    · exact encodable_none _
  | disconnect reasonJson => exact encodable_none _
  | encryptionRequest request => exact encodable_none _
  | setCompression threshold => exact encodable_none _

/-! ### Configuration -/

def ConfigurationClientbound.KeyFits : ConfigurationClientbound → Prop
  | cookieRequest key => identifierLimits.Fits key
  | _ => True

theorem gives_decodeConfigurationDisconnect :
    Gives ConfigurationClientbound.KeyFits (decodeConfigurationDisconnect layout) := by
  unfold decodeConfigurationDisconnect
  refine gives_bind fun r => gives_bind fun _ => ?_
  split
  · exact gives_pure trivial
  · exact gives_fail _
  · exact gives_fault

theorem gives_decodeConfigurationPayload (id : Int32) :
    Gives ConfigurationClientbound.KeyFits (decodeConfigurationPayload layout id) := by
  unfold decodeConfigurationPayload
  repeat' first
    | exact (gives_decodeKey _).bind fun key hkey => gives_pure hkey
    | exact gives_decodeConfigurationDisconnect layout
    | exact gives_pure trivial
    | exact gives_fail _
    | refine gives_ite ?_ ?_
    | refine gives_bind fun _ => ?_

theorem encodable_configurationReaction {packet : ConfigurationClientbound} (h : packet.KeyFits) :
    Reaction.Encodable (configurationReaction packet) := by
  cases packet with
  | cookieRequest key => exact encodable_one _ (encodable_cookie 0x01 h)
  | finish => exact encodable_one _ (encodable_bare 0x03)
  | keepAlive id => exact encodable_one _ (encodable_short 0x04 (writeI64 id) (Nat.le_refl 8))
  | ping id => exact encodable_one _ (encodable_pong 0x05 id)
  | knownPacks packs => exact encodable_one _ (encodable_varInt 0x07 0)
  | _ => exact encodable_none _

/-! ### Play -/

def PlayClientbound.KeyFits : PlayClientbound → Prop
  | cookieRequest key => identifierLimits.Fits key
  | _ => True

theorem gives_decodeWhole {α : Type} {m : DecodeM α} {packet : α → PlayClientbound}
    (h : ∀ a, (packet a).KeyFits) : Gives PlayClientbound.KeyFits (decodeWhole m packet) :=
  gives_bind fun a => gives_pure (h a)

theorem gives_decodeField {α : Type} {m : DecodeM α} {context : String}
    {packet : α → PlayClientbound} (h : ∀ a, (packet a).KeyFits) :
    Gives PlayClientbound.KeyFits (decodeField m context packet) :=
  gives_bind fun a => gives_bind fun _ => gives_pure (h a)

theorem gives_decodeSetHealth : Gives PlayClientbound.KeyFits decodeSetHealth := by
  refine gives_bind fun health => gives_ite (gives_fail _) ?_
  exact gives_bind fun _ => gives_bind fun _ => gives_bind fun _ => gives_pure trivial

theorem gives_decodeSetEntityData : Gives PlayClientbound.KeyFits decodeSetEntityData := by
  refine gives_bind fun entityId => gives_bind fun metadata => ?_
  split
  · exact gives_pure trivial
  · exact gives_fail _
  · exact gives_fault

theorem gives_playDecoders :
    ∀ entry ∈ playDecoders layout, Gives PlayClientbound.KeyFits entry.2 := by
  refine List.forall_iff_forall_mem.mp ?_
  unfold playDecoders
  simp only [List.Forall]
  and_intros
  all_goals first
    | exact gives_decodeWhole fun _ => trivial
    | exact gives_decodeField fun _ => trivial
    | exact (gives_decodeKey _).bind fun key hkey => gives_pure hkey
    | exact gives_decodeSetHealth
    | exact gives_decodeSetEntityData
    | exact gives_pure trivial
    | exact gives_bind fun _ => gives_pure trivial
    | exact gives_bind fun _ => gives_bind fun _ => gives_pure trivial
    | exact gives_bind fun _ => gives_bind fun _ => gives_bind fun _ => gives_pure trivial

theorem gives_decodePlayPayload (id : Int32) :
    Gives PlayClientbound.KeyFits (decodePlayPayload layout id) := by
  unfold decodePlayPayload
  split
  · rename_i decode hlookup
    obtain ⟨before, after, hentries, -⟩ := List.lookup_eq_some_iff.mp hlookup
    refine gives_playDecoders layout (id, decode) ?_
    rw [hentries]
    exact List.mem_append_cons_self
  · exact gives_bind fun r => gives_pure trivial

theorem encodable_playReaction (loaded : Bool) {packet : PlayClientbound} (h : packet.KeyFits) :
    Reaction.Encodable (playReaction loaded packet) := by
  cases packet with
  | keepAlive id => exact encodable_one _ (encodable_short 0x1c (writeI64 id) (Nat.le_refl 8))
  | ping id => exact encodable_one _ (encodable_pong 0x2d id)
  | playerPosition position => exact encodable_one _ (encodable_varInt 0x00 position.teleportId)
  | chunkBatchFinished chunks =>
    have hreceived : (ClientPacket.playChunkBatchReceived desiredChunksPerTick).Encodable :=
      encodable_short 0x0b (writeF32 desiredChunksPerTick) (by decide)
    cases loaded with
    | true => exact encodable_one _ hreceived
    | false =>
      exact List.forall_mem_cons.mpr ⟨hreceived, List.forall_mem_singleton.mpr
        (encodable_bare 0x2c)⟩
  | cookieRequest key => exact encodable_one _ (encodable_cookie 0x15 h)
  | startConfiguration =>
    exact List.forall_mem_cons.mpr ⟨encodable_bare 0x10,
      List.forall_mem_singleton.mpr encodable_clientInformation⟩
  | _ => exact encodable_none _

/-! ### The joiner -/

theorem encodable_reactTo {α : Type} {reaction : α → Reaction} {d : Decoded α}
    (h : ∀ packet, d = some (.ok packet) → (reaction packet).Encodable) :
    (reactTo reaction d).Encodable := by
  rcases d with _ | e | packet
  · exact encodable_none _
  · exact encodable_none _
  · exact h packet rfl

theorem encodable_react (stage : Stage) (frame : Bytes) :
    (react username layout stage frame).Encodable := by
  cases stage with
  | login =>
    refine encodable_reactTo fun packet hpacket => ?_
    exact encodable_loginReaction username (gives_decodeFrame gives_decodeLoginPayload hpacket)
  | configuration =>
    refine encodable_reactTo fun packet hpacket => ?_
    exact encodable_configurationReaction
      (gives_decodeFrame (gives_decodeConfigurationPayload layout) hpacket)
  | play loaded =>
    refine encodable_reactTo fun packet hpacket => ?_
    exact encodable_playReaction loaded
      (gives_decodeFrame (gives_decodePlayPayload layout) hpacket)
  | joined => exact encodable_none _
  | ended => exact encodable_none _

end

end Bootstrap

end Cubic
