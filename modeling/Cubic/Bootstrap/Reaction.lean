import Cubic.Bootstrap.Join

/-!
# What a client that joins answers

The answers to each frame, as a party that answers. The session sends nothing else, whatever
its connection does.
-/

namespace Cubic.Bootstrap

set_option autoImplicit false

open Exchange

/-- How far the client is. -/
inductive Stage where
  | login
  | configuration
  | play (sentPlayerLoaded : Bool)
  | joined
  | ended
  deriving DecidableEq

/-- Whether the client still reads. -/
def Stage.reads : Stage → Bool
  | login | configuration | play _ => true
  | joined | ended => false

/-- The answers to a packet, and the stage after it. -/
abbrev Reaction := List ClientPacket × Stage

def loginReaction (username : DevelopmentUsername) : LoginClientbound → Reaction
  | .pluginRequest transactionId _ _ => ([.loginPluginResponse transactionId], .login)
  | .cookieRequest key => ([.loginCookieResponse key], .login)
  | .success success =>
    if success.username = username.text ∧ success.uuid ≠ .replicate 16 0 then
      ([.loginAcknowledged, .clientInformation .default], .configuration)
    else ([], .ended)
  | .disconnect _ | .encryptionRequest _ | .setCompression _ => ([], .ended)

def configurationReaction : ConfigurationClientbound → Reaction
  | .cookieRequest key => ([.configurationCookieResponse key], .configuration)
  | .customPayload _ _ | .skipped _ _ => ([], .configuration)
  | .registryData registry entries =>
    ([], if (collectRegistry registry entries .empty).isOk then .configuration else .ended)
  | .finish => ([.finishConfiguration], .play false)
  | .keepAlive id => ([.configurationKeepAlive id], .configuration)
  | .ping id => ([.configurationPong id], .configuration)
  | .knownPacks _ => ([.knownPacksResponseEmpty], .configuration)
  | .disconnect _ | .resourcePackPush | .transfer | .codeOfConduct => ([], .ended)

def playReaction (loaded : Bool) : PlayClientbound → Reaction
  | .login _ => ([], .joined)
  | .keepAlive id => ([.playKeepAlive id], .play loaded)
  | .ping id => ([.playPong id], .play loaded)
  | .playerPosition position =>
    ([.playTeleportConfirmation position.teleportId], .play loaded)
  | .chunkBatchFinished _ =>
    (.playChunkBatchReceived desiredChunksPerTick :: if loaded then [] else [.playPlayerLoaded],
      .play true)
  | .cookieRequest key => ([.playCookieResponse key], .play loaded)
  | .startConfiguration =>
    ([.playAcknowledgeConfiguration, .clientInformation .default], .configuration)
  | .disconnect _ | .resourcePackPush | .transfer => ([], .ended)
  | _ => ([], .play loaded)

/-- A frame that is not understood ends the session. -/
def reactTo {α : Type} (reaction : α → Reaction) : Decoded α → Reaction
  | some (.ok packet) => reaction packet
  | _ => ([], .ended)

section
variable (username : DevelopmentUsername) (layout : NbtLayout)

def react : Stage → Bytes → Reaction
  | .login, frame => reactTo (loginReaction username) (decodeLoginClientbound frame)
  | .configuration, frame =>
    reactTo configurationReaction (decodeConfigurationClientbound layout frame)
  | .play loaded, frame => reactTo (playReaction loaded) (decodePlayClientbound layout frame)
  | .joined, _ => ([], .joined)
  | .ended, _ => ([], .ended)

def joiner : Responder Stage Bytes ClientPacket where
  answers stage frame := (react username layout stage frame).1
  next stage frame := (react username layout stage frame).2

/-- What is sent before anything is read. -/
def opening (address : Network.ServerAddress) : List ClientPacket :=
  [.handshake (loginHandshake address), .loginStart username.text (.replicate 16 0)]

end

/-! ### The session reacts so -/

section
variable {χ ε : Type} {ops : ConnectionOps χ ε} {username : DevelopmentUsername}
  {layout : NbtLayout} {start : Stage × List ClientPacket} {s : Joining χ}
  {stage : Stage} {owed : List ClientPacket} {state : ConnectionState}

variable (username layout start) in
/-- The history is one of the joiner's, of packets that can be encoded. It reads no frame after
the last one. -/
structure Follows (history : List JoinEvent) (point : Stage × List ClientPacket) : Prop where
  run : Run (joiner username layout).Step start history point
  encoded : ∀ packet ∈ writtenOf history, ∃ bytes, packet.encode = .ok bytes
  reading : ∀ before frame, before ++ [.received frame] <+: history →
    ((joiner username layout).stateAfter start.1 (receivedOf before)).reads = true

variable (username layout start) in
/-- These answers are owed. -/
structure Reached (stage : Stage) (owed : List ClientPacket) (state : ConnectionState)
    (s : Joining χ) : Prop where
  follows : Follows username layout start s.history (stage, owed)
  state : s.state = state

variable (username layout start) in
def Cut (s : Joining χ) : Prop := ∃ point, Follows username layout start s.history point

variable (username layout start) in
/-- On success `R` holds, and an error leaves the history of a joiner. -/
def orCut {α : Type} (R : α → Joining χ → Prop) :
    Post (DevelopmentLoginError ε) (Joining χ) α :=
  ⟨R, fun _ => Cut username layout start, True⟩

theorem Follows.receive {history : List JoinEvent} (frame : Bytes)
    (h : Follows username layout start history (stage, [])) (hreads : stage.reads = true) :
    Follows username layout start (history ++ [.received frame])
      ((react username layout stage frame).2, (react username layout stage frame).1) where
  run := h.run.trans (.single (.receive stage frame))
  encoded := by
    unfold writtenOf
    rw [List.filterMap_append]
    intro packet hpacket
    rcases List.mem_append.mp hpacket with hbefore | hnone
    · exact h.encoded packet hbefore
    · cases hnone
  reading := by
    intro before other hbefore
    rcases List.prefix_concat_iff.mp hbefore with hlast | hearlier
    · obtain ⟨rfl, -⟩ := List.append_inj' hlast rfl
      rw [← (Responder.written_of_run h.run).2]
      exact hreads
    · exact h.reading before other hearlier

theorem Follows.write {history : List JoinEvent} {packet : ClientPacket} {bytes : Bytes}
    (h : Follows username layout start history (stage, packet :: owed))
    (hencode : packet.encode = .ok bytes) :
    Follows username layout start (history ++ [.wrote packet]) (stage, owed) where
  run := h.run.trans (.single (.write stage packet owed))
  encoded := by
    unfold writtenOf
    rw [List.filterMap_append]
    intro other hother
    rcases List.mem_append.mp hother with hbefore | hlast
    · exact h.encoded other hbefore
    · obtain rfl := List.mem_singleton.mp hlast
      exact ⟨bytes, hencode⟩
  reading := by
    intro before frame hbefore
    rcases List.prefix_concat_iff.mp hbefore with hlast | hearlier
    · cases (List.append_inj' hlast rfl).2
    · exact h.reading before frame hearlier

theorem Reached.cut (h : Reached username layout start stage owed state s) :
    Cut username layout start s := ⟨_, h.follows⟩

theorem Cut.of_history {t : Joining χ} (h : Cut username layout start s)
    (ht : t.history = s.history) : Cut username layout start t := by
  obtain ⟨point, hpoint⟩ := h
  exact ⟨point, ht ▸ hpoint⟩

theorem wp_orCut_bind {α β : Type} {m : JoinM χ ε α} {f : α → JoinM χ ε β}
    {R : α → Joining χ → Prop} {R' : β → Joining χ → Prop}
    (h : Mut.wp m (orCut username layout start R) s)
    (hf : ∀ a t, R a t → Mut.wp (f a) (orCut username layout start R') t) :
    Mut.wp (m >>= f) (orCut username layout start R') s :=
  Mut.wp_seq h hf (fun _ _ => id) id

theorem wp_readFrame (phase : String) (h : Reached username layout start stage [] state s)
    (hreads : stage.reads = true) :
    Mut.wp (readFrame ops phase) (orCut username layout start fun frame =>
      Reached username layout start (react username layout stage frame).2
        (react username layout stage frame).1 state) s := by
  unfold readFrame
  simp only [Mut.wp_bind, Mut.wp_get, Mut.wp_set, Mut.wp_ofExcept, Mut.wp_modify, Mut.wp_pure]
  cases (ops.readFrame phase s.connection).1 with
  | error e => exact h.cut.of_history rfl
  | ok frame => exact ⟨h.follows.receive frame hreads, h.state⟩

theorem wp_send {encodeError : CodecError → DevelopmentLoginError ε} {packet : ClientPacket}
    (operation : String) (h : Reached username layout start stage (packet :: owed) state s) :
    Mut.wp (send ops encodeError packet operation)
      (orCut username layout start fun _ => Reached username layout start stage owed state) s := by
  unfold send
  simp only [Mut.wp_bind, Mut.wp_ofExcept, Mut.wp_get, Mut.wp_set]
  cases hencode : packet.encode with
  | error e => exact h.cut
  | ok bytes =>
    dsimp only [Except.mapError]
    cases (ops.writeAll bytes operation s.connection).1 with
    | error e => exact ⟨_, h.follows.write hencode⟩
    | ok _ => exact ⟨h.follows.write hencode, h.state⟩

theorem wp_transition {expected next : ConnectionState}
    (h : Reached username layout start stage owed expected s) :
    Mut.wp (transition expected next : JoinM χ ε Unit)
      (orCut username layout start fun _ => Reached username layout start stage owed next) s := by
  unfold transition
  rw [Mut.wp_bind, Mut.wp_get]
  dsimp only
  rw [if_neg (not_not.mpr h.state)]
  exact ⟨h.follows, rfl⟩

/-- A decoder that fails ends the session; `none` is a panic. -/
theorem wp_decoded {α : Type} {reaction : α → Reaction} {d : Decoded α}
    (h : Reached username layout start (reactTo reaction d).2 (reactTo reaction d).1 state s) :
    Mut.wp (decoded d : JoinM χ ε α) (orCut username layout start fun packet =>
      Reached username layout start (reaction packet).2 (reaction packet).1 state) s := by
  rcases d with _ | e | packet
  · trivial
  · exact h.cut
  · exact h

theorem wp_fail_of_cut {α : Type} {e : DevelopmentLoginError ε} {R : α → Joining χ → Prop}
    (h : Cut username layout start s) :
    Mut.wp (Mut.fail e : JoinM χ ε α) (orCut username layout start R) s := h

theorem wp_disconnected {α : Type} (reason : String) {R : α → Joining χ → Prop}
    (h : Reached username layout start stage owed state s) :
    Mut.wp (disconnected reason : JoinM χ ε α) (orCut username layout start R) s := h.cut

theorem wp_packetLimitExceeded {α : Type} (max : Nat) {R : α → Joining χ → Prop}
    (h : Reached username layout start stage owed state s) :
    Mut.wp (packetLimitExceeded max : JoinM χ ε α) (orCut username layout start R) s := h.cut

/-- One answer, and then the loop goes on. -/
theorem wp_answer {α : Type} {packet : ClientPacket} (operation : String) {a : α}
    {R : α → Joining χ → Prop}
    (h : Reached username layout start stage (packet :: owed) state s)
    (hR : ∀ t, Reached username layout start stage owed state t → R a t) :
    Mut.wp (do write ops packet operation; pure a) (orCut username layout start R) s :=
  wp_orCut_bind (wp_send operation h) fun _ t ht => hR t ht

/-! ### Login -/

variable (username layout start) in
/-- What a round of `run_login` leaves. -/
def AfterLogin (r : Unit ⊕ Chat.ProtocolUuid) (t : Joining χ) : Prop :=
  match r with
  | .inl _ => Reached username layout start .login [] .login t
  | .inr _ => Reached username layout start .configuration [] .configuration t

theorem wp_acknowledgeLogin
    (h : Reached username layout start .configuration
      [.loginAcknowledged, .clientInformation .default] .login s) :
    Mut.wp (acknowledgeLogin ops) (orCut username layout start fun _ =>
      Reached username layout start .configuration [] .configuration) s := by
  refine wp_orCut_bind (wp_send _ h) fun _ t ht => ?_
  refine wp_orCut_bind (wp_transition ht) fun _ u hu => ?_
  exact wp_send _ hu

theorem wp_answerLogin {packet : LoginClientbound}
    (h : Reached username layout start (loginReaction username packet).2
      (loginReaction username packet).1 .login s) :
    Mut.wp (answerLogin ops username packet)
      (orCut username layout start (AfterLogin username layout start)) s := by
  cases packet with
  | disconnect reasonJson => exact wp_disconnected reasonJson h
  | encryptionRequest request => exact h.cut
  | setCompression threshold => exact h.cut
  | pluginRequest transactionId channel payload => exact wp_answer _ h fun t ht => ht
  | cookieRequest key => exact wp_answer _ h fun t ht => ht
  | success success =>
    unfold answerLogin
    dsimp only
    by_cases hname : success.username = username.text
    · rw [if_neg (not_not.mpr hname)]
      by_cases hzero : success.uuid = .replicate 16 0
      · rw [if_pos hzero]
        exact h.cut
      · rw [if_neg hzero]
        unfold loginReaction at h
        dsimp only at h
        rw [if_pos ⟨hname, hzero⟩] at h
        exact wp_orCut_bind (wp_acknowledgeLogin h) fun _ t ht => ht
    · rw [if_pos hname]
      exact h.cut

theorem wp_runLogin (h : Reached username layout start .login [] .login s) :
    Mut.wp (runLogin ops username) (orCut username layout start fun _ =>
      Reached username layout start .configuration [] .configuration) s := by
  refine wp_rounds (I := fun _ => Reached username layout start .login [] .login) ?_
    (fun _ t ht => wp_packetLimitExceeded maxLoginPackets ht) maxLoginPackets h
  intro _ t ht
  have hturn : Mut.wp (loginTurn ops username ()) (orCut username layout start
      (AfterLogin username layout start)) t := by
    refine wp_orCut_bind (wp_readFrame _ ht rfl) fun frame u hu => ?_
    exact wp_orCut_bind (wp_decoded hu) fun packet v hv => wp_answerLogin hv
  refine Mut.wp_mono hturn ?_ (fun _ _ => id) id
  intro r u hr
  cases r with
  | inl _ => exact hr
  | inr _ => exact hr

/-! ### Configuration -/

/-- Whether the entries are taken has nothing to do with what was collected before. -/
theorem collectRegistry_isOk (registry : String) (entries : List ConfigurationRegistryEntry)
    (phase : ConfigurationPhaseOutcome) : (collectRegistry registry entries phase).isOk =
      (collectRegistry registry entries .empty).isOk := by
  unfold collectRegistry
  split
  · cases (dimensionTypes entries).mapError ConfigurationDataError.registry <;> rfl
  split
  · cases (biomes entries).mapError ConfigurationDataError.registry <;> rfl
  split
  · cases entryIdentifiers .bannerPattern entries <;> rfl
  split
  · cases entryIdentifiers (fun _ => .entityRegistry) entries <;> rfl
  · rfl

variable (username layout start) in
/-- What a round of `run_configuration_phase` leaves. -/
def AfterConfiguration (r : ConfigurationPhaseOutcome ⊕ ConfigurationPhaseOutcome)
    (t : Joining χ) : Prop :=
  match r with
  | .inl _ => Reached username layout start .configuration [] .configuration t
  | .inr _ => Reached username layout start (.play false) [] .play t

theorem wp_answerConfiguration (phase : ConfigurationPhaseOutcome)
    {packet : ConfigurationClientbound}
    (h : Reached username layout start (configurationReaction packet).2
      (configurationReaction packet).1 .configuration s) :
    Mut.wp (answerConfiguration ops phase packet)
      (orCut username layout start (AfterConfiguration username layout start)) s := by
  cases packet with
  | cookieRequest key => exact wp_answer _ h fun t ht => ht
  | customPayload channel payload => exact h
  | skipped packet bytes => exact h
  | registryData registry entries =>
    have hok := collectRegistry_isOk registry entries phase.skip
    unfold answerConfiguration
    rw [Mut.wp_bind, Mut.wp_ofExcept]
    unfold configurationReaction at h
    dsimp only at h
    rw [← hok] at h
    cases hcollect : collectRegistry registry entries phase.skip with
    | error e => exact h.cut
    | ok phase' =>
      rw [hcollect] at h
      exact h
  | disconnect reason => exact wp_disconnected _ h
  | finish =>
    refine wp_orCut_bind (wp_send _ h) fun _ t ht => ?_
    exact wp_orCut_bind (wp_transition ht) fun _ u hu => hu
  | keepAlive id => exact wp_answer _ h fun t ht => ht
  | ping id => exact wp_answer _ h fun t ht => ht
  | knownPacks packs => exact wp_answer _ h fun t ht => ht
  | resourcePackPush => exact h.cut
  | transfer => exact h.cut
  | codeOfConduct => exact h.cut

theorem wp_runConfigurationPhase
    (h : Reached username layout start .configuration [] .configuration s) :
    Mut.wp (runConfigurationPhase ops layout) (orCut username layout start fun _ =>
      Reached username layout start (.play false) [] .play) s := by
  refine wp_rounds (I := fun _ => Reached username layout start .configuration [] .configuration) ?_
    (fun _ t ht => wp_packetLimitExceeded maxConfigurationPackets ht) maxConfigurationPackets h
  intro phase t ht
  have hturn : Mut.wp (configurationTurn ops layout phase) (orCut username layout start
      (AfterConfiguration username layout start)) t := by
    refine wp_orCut_bind (wp_readFrame _ ht rfl) fun frame u hu => ?_
    exact wp_orCut_bind (wp_decoded hu) fun packet v hv => wp_answerConfiguration phase hv
  refine Mut.wp_mono hturn ?_ (fun _ _ => id) id
  intro r u hr
  cases r with
  | inl _ => exact hr
  | inr _ => exact hr

/-! ### The first packets of Play -/

variable (username layout start) in
/-- What a round of `await_initial_play_login` leaves. -/
def AfterPlay (r : Bool ⊕ PlayAcceptance) (t : Joining χ) : Prop :=
  match r with
  | .inl loaded => Reached username layout start (.play loaded) [] .play t
  | .inr (.login _) => Reached username layout start .joined [] .play t
  | .inr .reconfigure => Reached username layout start .configuration [] .configuration t

theorem wp_finishChunkBatch (loaded : Bool) {owed : List ClientPacket}
    (howed : owed = .playChunkBatchReceived desiredChunksPerTick ::
      if loaded then [] else [.playPlayerLoaded])
    (h : Reached username layout start (.play true) owed .play s) :
    Mut.wp (finishChunkBatch ops loaded)
      (orCut username layout start (AfterPlay username layout start)) s := by
  subst howed
  refine wp_orCut_bind (wp_send _ h) fun _ t ht => ?_
  cases loaded with
  | true => exact ht
  | false => exact wp_answer _ ht fun u hu => hu

theorem wp_reconfigure
    (h : Reached username layout start .configuration
      [.playAcknowledgeConfiguration, .clientInformation .default] .play s) :
    Mut.wp (reconfigure ops) (orCut username layout start fun _ =>
      Reached username layout start .configuration [] .configuration) s := by
  refine wp_orCut_bind (wp_send _ h) fun _ t ht => ?_
  refine wp_orCut_bind (wp_transition ht) fun _ u hu => ?_
  exact wp_send _ hu

theorem wp_answerPlay (loaded : Bool) {packet : PlayClientbound}
    (h : Reached username layout start (playReaction loaded packet).2
      (playReaction loaded packet).1 .play s) :
    Mut.wp (answerPlay ops loaded packet)
      (orCut username layout start (AfterPlay username layout start)) s := by
  cases packet with
  | keepAlive id => exact wp_answer _ h fun t ht => ht
  | ping id => exact wp_answer _ h fun t ht => ht
  | playerPosition position => exact wp_answer _ h fun t ht => ht
  | chunkBatchFinished chunks => exact wp_finishChunkBatch loaded rfl h
  | cookieRequest key => exact wp_answer _ h fun t ht => ht
  | disconnect reason => exact wp_disconnected _ h
  | startConfiguration => exact wp_orCut_bind (wp_reconfigure h) fun _ t ht => ht
  | resourcePackPush => exact h.cut
  | transfer => exact h.cut
  | _ => exact h

theorem wp_awaitInitialPlayLogin (h : Reached username layout start (.play false) [] .play s) :
    Mut.wp (awaitInitialPlayLogin ops layout) (orCut username layout start fun accepted =>
      AfterPlay username layout start (.inr accepted)) s := by
  refine wp_rounds (I := fun loaded => Reached username layout start (.play loaded) [] .play) ?_
    (fun _ t ht => wp_fail_of_cut ht.cut) maxPlayAcceptancePackets h
  intro loaded t ht
  have hturn : Mut.wp (playTurn ops layout loaded) (orCut username layout start
      (AfterPlay username layout start)) t := by
    refine wp_orCut_bind (wp_readFrame _ ht rfl) fun frame u hu => ?_
    exact wp_orCut_bind (wp_decoded hu) fun packet v hv => wp_answerPlay loaded hv
  refine Mut.wp_mono hturn ?_ (fun _ _ => id) id
  intro r u hr
  cases r with
  | inl _ => exact hr
  | inr _ => exact hr

/-! ### The whole of it -/

theorem wp_runConfiguration
    (h : Reached username layout start .configuration [] .configuration s) :
    Mut.wp (runConfiguration ops layout) (orCut username layout start fun _ =>
      Reached username layout start .joined [] .play) s := by
  refine wp_rounds (I := fun _ => Reached username layout start .configuration [] .configuration) ?_
    (fun _ t ht => wp_fail_of_cut ht.cut) _ h
  intro kept t ht
  refine Mut.wp_seq (wp_runConfigurationPhase ht) ?_ (fun _ _ => id) id
  intro phase u hu
  refine Mut.wp_seq (wp_awaitInitialPlayLogin hu) ?_ (fun _ _ => id) id
  intro accepted v hv
  cases accepted with
  | login initialLogin => exact hv
  | reconfigure => exact hv

theorem wp_connectToPlay (address : Network.ServerAddress) (connection : χ) :
    Mut.wp (connectToPlay ops layout address username)
      (orCut username layout (.login, opening username address) fun _ =>
        Reached username layout (.login, opening username address) .joined [] .play)
      (.start connection) := by
  have hstart : Reached username layout (.login, opening username address) .login
      (opening username address) .handshake (Joining.start connection) :=
    ⟨⟨.nil _, fun _ hnone => absurd hnone List.not_mem_nil,
      fun before _ hnone => absurd (List.prefix_nil.mp hnone) (List.concat_ne_nil _ before)⟩, rfl⟩
  refine wp_orCut_bind (wp_send _ hstart) fun _ t ht => ?_
  refine wp_orCut_bind (wp_transition ht) fun _ u hu => ?_
  refine wp_orCut_bind (wp_send _ hu) fun _ v hv => ?_
  refine wp_orCut_bind (wp_runLogin hv) fun uuid w hw => ?_
  exact wp_orCut_bind (wp_runConfiguration hw) fun _ x hx => hx

end

end Cubic.Bootstrap
