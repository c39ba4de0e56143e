import Cubic.Bootstrap.Join
import Cubic.Play.ChunkEnds

/-!
# No frame makes the client panic

Every decoder of a packet ends with the packet or an error, and so does every step of the session.
-/

namespace Cubic.Bootstrap

set_option autoImplicit false

open Mut

instance ends_protocol {α : Type} {m : PlayM α} [Ends m] : Ends (protocol m) := by
  unfold protocol
  infer_instance

instance ends_wire {α : Type} {m : ReaderM α} [Ends m] : Ends (wire m) := by
  unfold wire
  infer_instance

instance ends_consumed (context : String) : Ends (consumed context) := by
  unfold consumed
  infer_instance

instance ends_counted (context : String) (max : Nat) : Ends (counted context max) := by
  unfold counted
  infer_instance

instance ends_nbtTag (limits : NbtLimits) (layout : NbtLayout) : Ends (nbtTag limits layout) :=
  (pays_onReader pays_unnamedNetworkTag).ends

instance ends_checkPayload (context : String) (payload : Bytes) (max : Nat) :
    Ends (checkPayload context payload max) := by
  unfold checkPayload
  infer_instance

instance ends_optional {α : Type} {m : DecodeM α} [Ends m] : Ends (optional m) := by
  unfold optional
  infer_instance

instance ends_decodeChannelPayload (context : String) (max : Nat) :
    Ends (decodeChannelPayload context max) := by
  unfold decodeChannelPayload
  infer_instance

instance ends_decodeKey (context : String) : Ends (decodeKey context) := by
  unfold decodeKey
  infer_instance

/-- A frame gives a packet or an error. -/
theorem decodeFrame_isSome {α : Type} {decode : Int32 → DecodeM α} (h : ∀ id, Ends (decode id))
    (frameBody : Bytes) : ∃ r, decodeFrame frameBody decode = some r := by
  unfold decodeFrame
  split
  · exact ⟨_, rfl⟩
  · rename_i packet _
    cases hs : decode packet.id (.new packet.payload) with
    | ok value r => exact ⟨.ok value, rfl⟩
    | err e r => exact ⟨.error e, rfl⟩
    | panic => exact absurd hs ((h packet.id).ne_panic _)

/-! ### Login -/

instance ends_decodeEncryptionRequest : Ends decodeEncryptionRequest := by
  unfold decodeEncryptionRequest
  infer_instance

instance ends_decodeGameProfileProperty : Ends decodeGameProfileProperty := by
  unfold decodeGameProfileProperty
  infer_instance

instance ends_decodeLoginSuccess : Ends decodeLoginSuccess := by
  unfold decodeLoginSuccess
  infer_instance

instance ends_decodeLoginPayload (id : Int32) : Ends (decodeLoginPayload id) := by
  unfold decodeLoginPayload
  infer_instance

/-! ### Configuration -/

theorem pays_requireCompoundRoot :
    Pays DecodeContext.position 0 requireCompoundRoot fun _ => 0 := by
  refine ((pays_typeId _).mono fun _ => Nat.zero_le 1).bind fun id => ?_
  split
  · exact pays_fail
  split
  · exact pays_fail
  · exact pays_pure (Nat.le_refl 0)

theorem pays_unnamedNetworkRoot (limits : NbtLimits) (layout : NbtLayout) :
    Pays DecodeContext.position 0 (decodeUnnamedNetworkRoot limits layout)
      fun root => (NbtTree.compound root.val).textSize := by
  refine pays_requireCompoundRoot.bind fun _ => (pays_spend (pays_addTag 0)).bind fun _ => ?_
  exact (pays_compound fun type => pays_payload _ type 1 (Nat.lt_succ_self _)).certify

instance ends_decodeConfigurationDisconnect (layout : NbtLayout) :
    Ends (decodeConfigurationDisconnect layout) := by
  unfold decodeConfigurationDisconnect
  refine ends_get.bind fun r => (ends_checkPayload _ _ _).bind fun _ => ?_
  have hne := decodeComplete_ne_panic
    (pays_unnamedNetworkRoot disconnectNbtLimits layout) r.rest
  split
  · infer_instance
  · infer_instance
  · exact absurd ‹_› hne

instance ends_decodeRegistryEntry (layout : NbtLayout) : Ends (decodeRegistryEntry layout) := by
  unfold decodeRegistryEntry
  infer_instance

instance ends_decodeConfigurationRegistryData (layout : NbtLayout) :
    Ends (decodeConfigurationRegistryData layout) := by
  unfold decodeConfigurationRegistryData
  infer_instance

instance ends_decodeKnownPack : Ends decodeKnownPack := by
  unfold decodeKnownPack
  infer_instance

instance ends_decodeKnownPacks : Ends decodeKnownPacks := by
  unfold decodeKnownPacks
  infer_instance

instance ends_decodeEmptySkipped (packet : SkippedConfigurationPacket) (context : String) :
    Ends (decodeEmptySkipped packet context) := by
  unfold decodeEmptySkipped
  infer_instance

instance ends_skipPayload (packet : SkippedConfigurationPacket) : Ends (skipPayload packet) := by
  unfold skipPayload
  infer_instance

instance ends_decodeConfigurationPayload (layout : NbtLayout) (id : Int32) :
    Ends (decodeConfigurationPayload layout id) := by
  unfold decodeConfigurationPayload
  infer_instance

/-! ### Play -/

instance ends_readFloat : Ends readFloat := by
  unfold readFloat
  infer_instance

instance ends_readDouble : Ends readDouble := by
  unfold readDouble
  infer_instance

instance ends_readNonnegative (context : String) : Ends (readNonnegative context) := by
  unfold readNonnegative
  infer_instance

instance ends_chunkPart {α : Type} {m : ChunkM α} [Ends m] : Ends (chunkPart m) := by
  unfold chunkPart
  infer_instance

instance ends_decodeGlobalPosition : Ends decodeGlobalPosition := by
  unfold decodeGlobalPosition
  infer_instance

instance ends_decodeSpawnInfo : Ends decodeSpawnInfo := by
  unfold decodeSpawnInfo
  infer_instance

instance ends_decodeInitialPlayLogin : Ends decodeInitialPlayLogin := by
  unfold decodeInitialPlayLogin
  infer_instance

instance ends_decodeRespawn : Ends decodeRespawn := by
  unfold decodeRespawn
  infer_instance

instance ends_decodeDefaultSpawnPosition : Ends decodeDefaultSpawnPosition := by
  unfold decodeDefaultSpawnPosition
  infer_instance

instance ends_decodePlayerPosition : Ends decodePlayerPosition := by
  unfold decodePlayerPosition
  infer_instance

instance ends_decodePlayerRotation : Ends decodePlayerRotation := by
  unfold decodePlayerRotation
  infer_instance

instance ends_decodePlayerAbilities : Ends decodePlayerAbilities := by
  unfold decodePlayerAbilities
  infer_instance

instance ends_decodeLowPrecisionVec3 : Ends decodeLowPrecisionVec3 := by
  unfold decodeLowPrecisionVec3
  infer_instance

instance ends_decodeEntityMotion : Ends decodeEntityMotion := by
  unfold decodeEntityMotion
  infer_instance

instance ends_decodeWorldClock : Ends decodeWorldClock := by
  unfold decodeWorldClock
  infer_instance

instance ends_decodeWorldTime : Ends decodeWorldTime := by
  unfold decodeWorldTime
  infer_instance

instance ends_decodeInitializeBorder : Ends decodeInitializeBorder := by
  unfold decodeInitializeBorder
  infer_instance

section Layout
variable (layout : NbtLayout)

instance ends_textComponent : Ends (textComponent layout) := by
  unfold textComponent
  infer_instance

instance ends_decodeBoundChatType : Ends (decodeBoundChatType layout) := by
  unfold decodeBoundChatType
  infer_instance

instance ends_readLastSeenMessage : Ends readLastSeenMessage := by
  unfold readLastSeenMessage
  infer_instance

instance ends_readFilterMask : Ends readFilterMask := by
  unfold readFilterMask
  infer_instance

set_option synthInstance.maxSize 512 in
instance ends_decodePlayerChat : Ends (decodePlayerChat layout) := by
  unfold decodePlayerChat
  infer_instance

instance ends_decodeBlockEntityData : Ends (decodeBlockEntityData layout) := by
  unfold decodeBlockEntityData
  refine (ends_wire).bind fun position => (ends_wire).bind fun value => ?_
  refine (ends_protocol).bind fun typeRawId => (ends_nbtTag _ layout).bind fun tag => ?_
  dsimp only
  split
  · exact (ends_pure _).bind fun _ => inferInstance
  · infer_instance

instance ends_readAirSupply : Ends readAirSupply := by
  unfold readAirSupply
  infer_instance

instance ends_decodeField {α : Type} {m : DecodeM α} [Ends m] (context : String)
    (packet : α → PlayClientbound) : Ends (decodeField m context packet) := by
  unfold decodeField
  infer_instance

instance ends_decodeWhole {α : Type} {m : DecodeM α} [Ends m] (packet : α → PlayClientbound) :
    Ends (decodeWhole m packet) := by
  unfold decodeWhole
  infer_instance

instance ends_decodeForgetLevelChunk : Ends decodeForgetLevelChunk := by
  unfold decodeForgetLevelChunk
  infer_instance

instance ends_decodeChangeDifficulty : Ends decodeChangeDifficulty := by
  unfold decodeChangeDifficulty
  infer_instance

instance ends_decodeGameEvent : Ends decodeGameEvent := by
  unfold decodeGameEvent
  infer_instance

instance ends_decodeEntityEvent : Ends decodeEntityEvent := by
  unfold decodeEntityEvent
  infer_instance

instance ends_decodeSystemChat : Ends (decodeSystemChat layout) := by
  unfold decodeSystemChat
  infer_instance

instance ends_decodeDisguisedChat : Ends (decodeDisguisedChat layout) := by
  unfold decodeDisguisedChat
  infer_instance

instance ends_decodeSetHealth : Ends decodeSetHealth := by
  unfold decodeSetHealth
  infer_instance

instance ends_decodeSetEntityData : Ends decodeSetEntityData := by
  unfold decodeSetEntityData
  refine (ends_wire).bind fun entityId => (ends_wire).bind fun metadata => ?_
  have hne := ends_readAirSupply.ne_panic (.new metadata)
  split
  · infer_instance
  · infer_instance
  · exact absurd ‹_› hne

instance ends_decodePlayCustomPayload : Ends decodePlayCustomPayload := by
  unfold decodePlayCustomPayload
  infer_instance

theorem ends_playDecoders : ∀ entry ∈ playDecoders layout, Ends entry.2 := by
  refine List.forall_iff_forall_mem.mp ?_
  unfold playDecoders
  simp only [List.Forall]
  and_intros
  all_goals infer_instance

instance ends_decodePlayPayload (id : Int32) : Ends (decodePlayPayload layout id) := by
  unfold decodePlayPayload
  split
  · rename_i decode hlookup
    obtain ⟨before, after, hentries, -⟩ := List.lookup_eq_some_iff.mp hlookup
    refine ends_playDecoders layout (id, decode) ?_
    rw [hentries]
    exact List.mem_append_cons_self
  · infer_instance

end Layout

/-! ### The session -/

section Session
variable {χ ε : Type} (ops : ConnectionOps χ ε) (username : DevelopmentUsername)
  (layout : NbtLayout)

theorem ends_decodeFrame {α : Type} {decode : Int32 → DecodeM α} (h : ∀ id, Ends (decode id))
    (frameBody : Bytes) : Ends (decoded (decodeFrame frameBody decode) : JoinM χ ε α) := by
  obtain ⟨r, hr⟩ := decodeFrame_isSome h frameBody
  rw [hr]
  cases r with
  | ok packet => exact ends_pure packet
  | error e => exact ends_fail _

instance ends_decodeLoginClientbound (frame : Bytes) :
    Ends (decoded (decodeLoginClientbound frame) : JoinM χ ε LoginClientbound) :=
  ends_decodeFrame ends_decodeLoginPayload frame

instance ends_decodeConfigurationClientbound (frame : Bytes) :
    Ends (decoded (decodeConfigurationClientbound layout frame) :
      JoinM χ ε ConfigurationClientbound) :=
  ends_decodeFrame (ends_decodeConfigurationPayload layout) frame

instance ends_decodePlayClientbound (frame : Bytes) :
    Ends (decoded (decodePlayClientbound layout frame) : JoinM χ ε PlayClientbound) :=
  ends_decodeFrame (ends_decodePlayPayload layout) frame

instance ends_readFrame (phase : String) : Ends (readFrame ops phase) := by
  unfold readFrame
  infer_instance

instance ends_send (encodeError : CodecError → DevelopmentLoginError ε) (packet : ClientPacket)
    (operation : String) : Ends (send ops encodeError packet operation) := by
  unfold send
  infer_instance

instance ends_write (packet : ClientPacket) (operation : String) :
    Ends (write ops packet operation) := by
  unfold write
  infer_instance

instance ends_transition (expected next : ConnectionState) :
    Ends (transition expected next : JoinM χ ε Unit) := by
  unfold transition
  infer_instance

instance ends_disconnected {α : Type} (reason : String) :
    Ends (disconnected reason : JoinM χ ε α) := by
  unfold disconnected
  infer_instance

instance ends_unsupported {α : Type} (feature : UnsupportedPhase7Feature) (setting : String) :
    Ends (unsupported feature setting : JoinM χ ε α) := by
  unfold unsupported
  infer_instance

instance ends_packetLimitExceeded {α : Type} (max : Nat) :
    Ends (packetLimitExceeded max : JoinM χ ε α) := by
  unfold packetLimitExceeded
  infer_instance

instance ends_acknowledgeLogin : Ends (acknowledgeLogin ops) := by
  unfold acknowledgeLogin
  infer_instance

instance ends_answerLogin (packet : LoginClientbound) :
    Ends (answerLogin ops username packet) := by
  cases packet with
  | _ =>
    unfold answerLogin
    infer_instance

instance ends_answerConfiguration (phase : ConfigurationPhaseOutcome)
    (packet : ConfigurationClientbound) : Ends (answerConfiguration ops phase packet) := by
  cases packet with
  | _ =>
    unfold answerConfiguration
    infer_instance

instance ends_finishChunkBatch (loaded : Bool) : Ends (finishChunkBatch ops loaded) := by
  unfold finishChunkBatch
  infer_instance

instance ends_reconfigure : Ends (reconfigure ops) := by
  unfold reconfigure
  infer_instance

instance ends_answerPlay (loaded : Bool) (packet : PlayClientbound) :
    Ends (answerPlay ops loaded packet) := by
  cases packet with
  | _ =>
    unfold answerPlay
    infer_instance

instance ends_loginTurn (u : Unit) : Ends (loginTurn ops username u) := by
  unfold loginTurn
  infer_instance

instance ends_configurationTurn (phase : ConfigurationPhaseOutcome) :
    Ends (configurationTurn ops layout phase) := by
  unfold configurationTurn
  infer_instance

instance ends_playTurn (loaded : Bool) : Ends (playTurn ops layout loaded) := by
  unfold playTurn
  infer_instance

instance ends_runLogin : Ends (runLogin ops username) := by
  unfold runLogin
  infer_instance

instance ends_runConfigurationPhase : Ends (runConfigurationPhase ops layout) := by
  unfold runConfigurationPhase
  infer_instance

instance ends_awaitInitialPlayLogin : Ends (awaitInitialPlayLogin ops layout) := by
  unfold awaitInitialPlayLogin
  infer_instance

instance ends_reconfigurationTurn (kept : ConfigurationPhaseOutcome) :
    Ends (reconfigurationTurn ops layout kept) := by
  unfold reconfigurationTurn
  refine (ends_runConfigurationPhase ops layout).bind fun phase => ?_
  refine (ends_awaitInitialPlayLogin ops layout).bind fun accepted => ?_
  split
  · infer_instance
  · infer_instance

instance ends_runConfiguration : Ends (runConfiguration ops layout) := by
  unfold runConfiguration
  infer_instance

instance ends_connectToPlay (address : Network.ServerAddress) :
    Ends (connectToPlay ops layout address username) := by
  unfold connectToPlay
  infer_instance

end Session

end Cubic.Bootstrap
