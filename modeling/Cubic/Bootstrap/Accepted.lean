import Cubic.Bootstrap.Answerable
import Cubic.Lib.Script

/-!
# The frames that a client joins on

A client joins a server if and only if the server's frames are a login, some configurations that
are taken up again, and one that is followed by the login of Play.
-/

namespace Cubic.Bootstrap

set_option autoImplicit false

open Chat (ProtocolUuid)
open Grammar

/-! ### The frames -/

def LoginClientbound.isRequest : LoginClientbound → Bool
  | pluginRequest _ _ _ | cookieRequest _ => true
  | _ => false

/-- What a packet of the configuration adds to what is known. -/
def ConfigurationPhaseOutcome.take (phase : ConfigurationPhaseOutcome) :
    ConfigurationClientbound → Option ConfigurationPhaseOutcome
  | .cookieRequest _ | .keepAlive _ | .ping _ | .knownPacks _ => some phase
  | .customPayload _ _ | .skipped _ _ => some phase.skip
  | .registryData registry entries => (collectRegistry registry entries phase.skip).toOption
  | _ => none

def PlayClientbound.isPassed : PlayClientbound → Bool
  | login _ | startConfiguration | disconnect _ | resourcePackPush | transfer => false
  | _ => true

def PlayClientbound.acceptance? : PlayClientbound → Option PlayAcceptance
  | login initialLogin => some (.login initialLogin)
  | startConfiguration => some .reconfigure
  | _ => none

section
variable (username : DevelopmentUsername) (layout : NbtLayout)

/-- Requests, and then the success that is waited for. -/
def LoginFrames : Grammar Bytes ProtocolUuid := fun frames uuid => ∃ requests last,
  frames = requests ++ [last] ∧ requests.length < maxLoginPackets ∧
    (∀ frame ∈ requests, ∃ packet, decodeLoginClientbound frame = some (.ok packet) ∧
      packet.isRequest = true) ∧
    ∃ success, decodeLoginClientbound last = some (.ok (.success success)) ∧
      success.username = username.text ∧ success.uuid ≠ .replicate 16 0 ∧ success.uuid = uuid

def ConfigurationPhaseOutcome.takeFrame (phase : ConfigurationPhaseOutcome) (frame : Bytes) :
    Option ConfigurationPhaseOutcome :=
  match decodeConfigurationClientbound layout frame with
  | some (.ok packet) => phase.take packet
  | _ => none

/-- Packets that are collected, and then the end of the phase. -/
def ConfigurationFrames : Grammar Bytes ConfigurationPhaseOutcome := fun frames phase =>
  ∃ packets last, frames = packets ++ [last] ∧ packets.length < maxConfigurationPackets ∧
    packets.foldlM (ConfigurationPhaseOutcome.takeFrame layout) .empty = some phase ∧
    decodeConfigurationClientbound layout last = some (.ok .finish)

/-- Packets that are passed over, and then one that is waited for. -/
def PlayFrames : Grammar Bytes PlayAcceptance := fun frames accepted => ∃ packets last,
  frames = packets ++ [last] ∧ packets.length < maxPlayAcceptancePackets ∧
    (∀ frame ∈ packets, ∃ packet, decodePlayClientbound layout frame = some (.ok packet) ∧
      packet.isPassed = true) ∧
    ∃ packet, decodePlayClientbound layout last = some (.ok packet) ∧
      packet.acceptance? = some accepted

/-- A configuration that is taken up again. -/
def ReconfiguredFrames : Grammar Bytes ConfigurationPhaseOutcome := fun frames phase =>
  ∃ u v, frames = u ++ v ∧ ConfigurationFrames layout u phase ∧ PlayFrames layout v .reconfigure

/-- The last configuration. -/
def ConfiguredFrames (kept : ConfigurationPhaseOutcome) : Grammar Bytes ConfigurationOutcome :=
  fun frames outcome => ∃ u v phase, frames = u ++ v ∧ ConfigurationFrames layout u phase ∧
    PlayFrames layout v (.login outcome.initialLogin) ∧ outcome.registries = kept.merge phase

/-- All that a client that joins is sent. -/
def JoinFrames : Grammar Bytes ConnectedPlay := fun frames play =>
  ∃ (login last : List Bytes) (earlier : List (List Bytes × ConfigurationPhaseOutcome)),
    frames = login ++ (earlier.flatMap Prod.fst ++ last) ∧
    LoginFrames username login play.profileUuid ∧
    earlier.length ≤ maxReconfigurationsDuringAcceptance ∧
    (∀ part ∈ earlier, ReconfiguredFrames layout part.1 part.2) ∧
    ConfiguredFrames layout ((earlier.map Prod.snd).foldl ConfigurationPhaseOutcome.merge .empty)
      last play.configuration

end

/-! ### A connection that gives these frames -/

/-- The frames are all there, and everything that is written goes out. -/
def scripted : ConnectionOps (List Bytes) Unit where
  readFrame _ frames := match frames with
    | [] => (.error (), [])
    | frame :: rest => (.ok frame, rest)
  writeAll _ _ frames := (.ok (), frames)

def tape : Tape (Joining (List Bytes)) Bytes ConnectionState := ⟨Joining.connection, Joining.state⟩

section
variable {k : ConnectionState} {after : ConnectionState → ConnectionState}

theorem recognizes_readFrame (phase : String) :
    Recognizes tape (readFrame scripted phase) k (fun _ => k) fun word frame => word = [frame] where
  sound s frame t hk hs := by
    obtain ⟨frames, state, history⟩ := s
    cases frames with
    | nil => cases hs
    | cons first rest =>
      cases hs
      exact ⟨hk, [frame], rfl, rfl⟩
  complete s word rest frame hk hs hword := by
    obtain ⟨frames, state, history⟩ := s
    subst hword
    cases hs
    exact ⟨_, rfl, rfl⟩

theorem recognizes_decoded {α : Type} (d : Decoded α) :
    Recognizes tape (decoded d : JoinM (List Bytes) Unit α) k (fun _ => k)
      (unread fun packet => d = some (.ok packet)) where
  sound s packet t hk hs := by
    rcases d with _ | e | packet
    · cases hs
    · cases hs
    · cases hs
      exact ⟨hk, [], rfl, rfl, rfl⟩
  complete s word rest packet hk hs hd := by
    obtain ⟨rfl, rfl⟩ := hd
    exact ⟨s, rfl, hs⟩

theorem recognizes_send {encodeError : CodecError → DevelopmentLoginError Unit}
    (packet : ClientPacket) {operation : String} (h : packet.Encodable) :
    Recognizes tape (send scripted encodeError packet operation) k (fun _ => k)
      (unread fun _ => True) := by
  obtain ⟨bytes, hbytes⟩ := h
  refine recognizes_silent fun s hk => ?_
  unfold send
  rw [hbytes]
  exact ⟨_, rfl, rfl, hk⟩

theorem recognizes_transition (next : ConnectionState) :
    Recognizes tape (transition k next : JoinM (List Bytes) Unit Unit) k (fun _ => next)
      (unread fun _ => True) := by
  refine recognizes_silent fun s hk => ?_
  have hstate : s.state = k := hk
  refine ⟨{ s with state := next }, ?_, rfl, rfl⟩
  unfold transition
  rw [Mut.get_bind, if_neg (not_not.mpr hstate)]
  rfl

theorem recognizes_stop {α : Type} {m : JoinM (List Bytes) Unit α} {after : α → ConnectionState}
    (h : ∀ s a t, m s ≠ .ok a t) : Recognizes tape m k after (unread fun a => none = some a) :=
  (recognizes_never h).congr fun _ _ => ⟨False.elim, fun h => nomatch h.2⟩

theorem recognizes_value {α : Type} {after : α → ConnectionState} (a : α) (h : after a = k) :
    Recognizes tape (pure a : JoinM (List Bytes) Unit α) k after (unread fun b => some a = some b) :=
  (recognizes_pure a h).congr fun _ _ =>
    and_congr_right fun _ => ⟨fun h => congrArg some h.symm, fun h => (Option.some.inj h).symm⟩

/-- One answer, and then the loop goes on. -/
theorem recognizes_answer {α : Type} {after : α → ConnectionState} (packet : ClientPacket)
    {operation : String} (h : packet.Encodable) {a : α} (hafter : after a = k) :
    Recognizes tape (do write scripted packet operation; pure a) k after
      (unread fun b => some a = some b) :=
  (recognizes_send packet h).silent (recognizes_value a hafter)

theorem packetLimitExceeded_ne_ok {α : Type} (max : Nat) (s : Joining (List Bytes)) (a : α)
    (t : Joining (List Bytes)) :
    (packetLimitExceeded max : JoinM (List Bytes) Unit α) s ≠ .ok a t := by
  intro h
  cases h

/-- A round reads one frame. -/
theorem recognizes_turn {α β : Type} {phase : String} {decode : Bytes → Decoded α}
    {answer : α → JoinM (List Bytes) Unit β} {value : α → Option β} {after : β → ConnectionState}
    (h : ∀ frame packet, decode frame = some (.ok packet) →
      Recognizes tape (answer packet) k after (unread fun r => value packet = some r)) :
    Recognizes tape (do
      let frame ← readFrame scripted phase
      let packet ← decoded (decode frame)
      answer packet) k after fun word r => ∃ frame packet, word = [frame] ∧
        decode frame = some (.ok packet) ∧ value packet = some r := by
  refine ((recognizes_readFrame phase).bind fun word frame _ =>
    (recognizes_decoded (decode frame)).bind_unread fun packet hpacket =>
      h frame packet hpacket).congr fun word r => ?_
  constructor
  · rintro ⟨u, v, frame, rfl, rfl, packet, hpacket, rfl, hvalue⟩
    exact ⟨frame, packet, rfl, hpacket, hvalue⟩
  · rintro ⟨frame, packet, rfl, hpacket, hvalue⟩
    exact ⟨[frame], [], frame, rfl, rfl, packet, hpacket, rfl, hvalue⟩

/-- Rounds that read one packet each and pass over some of them. -/
theorem rounds_packets {α β γ : Type} {f : Bytes → Decoded α} {g : β → α → Option (β ⊕ γ)}
    {P : α → Prop} {Q : Bytes → γ → Prop}
    (hpassed : ∀ b packet, (∃ b', g b packet = some (.inl b')) ↔ P packet)
    (hlast : ∀ b frame c,
      (∃ packet, f frame = some (.ok packet) ∧ g b packet = some (.inr c)) ↔ Q frame c)
    {n : Nat} {b : β} {frames : List Bytes} {c : γ} :
    Rounds (fun b word r => ∃ frame packet, word = [frame] ∧ f frame = some (.ok packet) ∧
      g b packet = some r) n b frames c ↔
    ∃ before last, frames = before ++ [last] ∧ before.length < n ∧
      (∀ frame ∈ before, ∃ packet, f frame = some (.ok packet) ∧ P packet) ∧ Q last c := by
  refine rounds_passed ?_ ?_
  · intro b word
    constructor
    · rintro ⟨b', frame, packet, rfl, hpacket, hvalue⟩
      exact ⟨frame, rfl, packet, hpacket, (hpassed b packet).mp ⟨b', hvalue⟩⟩
    · rintro ⟨frame, rfl, packet, hpacket, h⟩
      obtain ⟨b', hvalue⟩ := (hpassed b packet).mpr h
      exact ⟨b', frame, packet, rfl, hpacket, hvalue⟩
  · intro b word c
    constructor
    · rintro ⟨frame, packet, rfl, hpacket, hvalue⟩
      exact ⟨frame, rfl, (hlast b frame c).mp ⟨packet, hpacket, hvalue⟩⟩
    · rintro ⟨frame, rfl, h⟩
      obtain ⟨packet, hpacket, hvalue⟩ := (hlast b frame c).mpr h
      exact ⟨frame, packet, rfl, hpacket, hvalue⟩

end

/-! ### Login -/

section
variable (username : DevelopmentUsername)

/-- How a round of `run_login` ends on a packet. -/
def loginValue : LoginClientbound → Option (Unit ⊕ ProtocolUuid)
  | .pluginRequest _ _ _ | .cookieRequest _ => some (.inl ())
  | .success success =>
    if success.username = username.text ∧ success.uuid ≠ .replicate 16 0 then
      some (.inr success.uuid)
    else none
  | _ => none

theorem loginValue_eq_inl {packet : LoginClientbound} :
    (∃ u, loginValue username packet = some (.inl u)) ↔ packet.isRequest = true := by
  cases packet with
  | success success =>
    unfold loginValue
    dsimp only
    split
    · exact ⟨nofun, nofun⟩
    · exact ⟨nofun, nofun⟩
  | pluginRequest transactionId channel payload => exact ⟨fun _ => rfl, fun _ => ⟨(), rfl⟩⟩
  | cookieRequest key => exact ⟨fun _ => rfl, fun _ => ⟨(), rfl⟩⟩
  | _ => exact ⟨nofun, nofun⟩

theorem loginValue_eq_inr {packet : LoginClientbound} {uuid : ProtocolUuid} :
    loginValue username packet = some (.inr uuid) ↔ ∃ success, packet = .success success ∧
      success.username = username.text ∧ success.uuid ≠ .replicate 16 0 ∧ success.uuid = uuid := by
  constructor
  · intro h
    cases packet with
    | success success =>
      unfold loginValue at h
      dsimp only at h
      split at h
      · rename_i hgood
        cases h
        exact ⟨success, rfl, hgood.1, hgood.2, rfl⟩
      · cases h
    | _ => cases h
  · rintro ⟨success, rfl, hname, huuid, rfl⟩
    exact if_pos ⟨hname, huuid⟩

theorem recognizes_acknowledgeLogin : Recognizes tape (acknowledgeLogin scripted) .login
    (fun _ => .configuration) (unread fun _ => True) :=
  (recognizes_send .loginAcknowledged (encodable_bare 0x03)).silent
    ((recognizes_transition .configuration).silent
      (recognizes_send _ encodable_clientInformation))

theorem recognizes_answerLogin {packet : LoginClientbound} (h : packet.KeyFits) :
    Recognizes tape (answerLogin scripted username packet) .login
      (Sum.elim (fun _ => .login) fun _ => .configuration)
      (unread fun r => loginValue username packet = some r) := by
  cases packet with
  | disconnect reasonJson => exact recognizes_stop fun s a t => nofun
  | encryptionRequest request => exact recognizes_stop fun s a t => nofun
  | setCompression threshold => exact recognizes_stop fun s a t => nofun
  | pluginRequest transactionId channel payload =>
    exact recognizes_answer _ (encodable_pluginResponse transactionId) rfl
  | cookieRequest key =>
    exact recognizes_answer (.loginCookieResponse key) (encodable_cookie 0x04 h) rfl
  | success success =>
    unfold answerLogin loginValue
    dsimp only
    by_cases hname : success.username = username.text
    · rw [if_neg (not_not.mpr hname)]
      by_cases hzero : success.uuid = .replicate 16 0
      · rw [if_pos hzero, if_neg fun hgood => hgood.2 hzero]
        exact recognizes_stop fun s a t => nofun
      · rw [if_neg hzero, if_pos ⟨hname, hzero⟩]
        exact recognizes_acknowledgeLogin.silent (recognizes_value _ rfl)
    · rw [if_pos hname, if_neg fun hgood => hname hgood.1]
      exact recognizes_stop fun s a t => nofun

theorem recognizes_runLogin : Recognizes tape (runLogin scripted username) .login
    (fun _ => .configuration) (LoginFrames username) := by
  refine (recognizes_rounds (fun _ => recognizes_turn fun frame packet hdecode =>
    recognizes_answerLogin username (gives_decodeFrame gives_decodeLoginPayload hdecode))
    (packetLimitExceeded_ne_ok maxLoginPackets) maxLoginPackets ()).congr fun frames uuid => ?_
  refine rounds_packets (f := decodeLoginClientbound) (P := fun packet => packet.isRequest = true)
    (Q := fun frame uuid => ∃ success, decodeLoginClientbound frame = some (.ok (.success success)) ∧
      success.username = username.text ∧ success.uuid ≠ .replicate 16 0 ∧ success.uuid = uuid)
    (fun _ packet => ?_) fun _ frame uuid => ?_
  · exact loginValue_eq_inl username
  · constructor
    · rintro ⟨packet, hpacket, hvalue⟩
      obtain ⟨success, rfl, hsuccess⟩ := (loginValue_eq_inr username).mp hvalue
      exact ⟨success, hpacket, hsuccess⟩
    · rintro ⟨success, hpacket, hsuccess⟩
      exact ⟨_, hpacket, (loginValue_eq_inr username).mpr ⟨success, rfl, hsuccess⟩⟩

end

/-! ### Configuration -/

section
variable (layout : NbtLayout)

/-- How a round of `run_configuration_phase` ends on a packet. -/
def configurationValue (phase : ConfigurationPhaseOutcome) : ConfigurationClientbound →
    Option (ConfigurationPhaseOutcome ⊕ ConfigurationPhaseOutcome)
  | .finish => some (.inr phase)
  | packet => (phase.take packet).map .inl

theorem configurationValue_eq_inl {phase phase' : ConfigurationPhaseOutcome}
    {packet : ConfigurationClientbound} :
    configurationValue phase packet = some (.inl phase') ↔ phase.take packet = some phase' := by
  cases packet with
  | finish => exact ⟨nofun, nofun⟩
  | _ =>
    unfold configurationValue
    simp only [Option.map_eq_some_iff, Sum.inl.injEq, exists_eq_right]

theorem configurationValue_eq_inr {phase phase' : ConfigurationPhaseOutcome}
    {packet : ConfigurationClientbound} :
    configurationValue phase packet = some (.inr phase') ↔ packet = .finish ∧ phase = phase' := by
  cases packet with
  | finish =>
    unfold configurationValue
    simp only [Option.some.injEq, Sum.inr.injEq, true_and]
  | _ =>
    unfold configurationValue
    simp only [Option.map_eq_some_iff, reduceCtorEq, and_false, exists_false, false_and]

theorem takeFrame_eq_some {phase phase' : ConfigurationPhaseOutcome} {frame : Bytes} :
    phase.takeFrame layout frame = some phase' ↔ ∃ packet,
      decodeConfigurationClientbound layout frame = some (.ok packet) ∧
        phase.take packet = some phase' := by
  unfold ConfigurationPhaseOutcome.takeFrame
  rcases decodeConfigurationClientbound layout frame with _ | e | packet
  · exact ⟨nofun, nofun⟩
  · exact ⟨nofun, nofun⟩
  · refine ⟨fun h => ⟨packet, rfl, h⟩, ?_⟩
    rintro ⟨_, hpacket, h⟩
    cases hpacket
    exact h

theorem recognizes_answerConfiguration (phase : ConfigurationPhaseOutcome)
    {packet : ConfigurationClientbound} (h : packet.KeyFits) :
    Recognizes tape (answerConfiguration scripted phase packet) .configuration
      (Sum.elim (fun _ => .configuration) fun _ => .play)
      (unread fun r => configurationValue phase packet = some r) := by
  cases packet with
  | cookieRequest key =>
    exact recognizes_answer (.configurationCookieResponse key) (encodable_cookie 0x01 h) rfl
  | customPayload channel payload => exact recognizes_value _ rfl
  | skipped packet bytes => exact recognizes_value _ rfl
  | registryData registry entries =>
    unfold answerConfiguration configurationValue
    dsimp only [ConfigurationPhaseOutcome.take]
    cases collectRegistry registry entries phase.skip with
    | error e => exact recognizes_stop fun s a t => nofun
    | ok phase' => exact recognizes_value _ rfl
  | disconnect reason => exact recognizes_stop fun s a t => nofun
  | finish =>
    refine (recognizes_send .finishConfiguration (encodable_bare 0x03)).silent ?_
    exact (recognizes_transition .play).silent (recognizes_value _ rfl)
  | keepAlive id =>
    exact recognizes_answer (.configurationKeepAlive id)
      (encodable_short 0x04 (writeI64 id) (Nat.le_refl 8)) rfl
  | ping id => exact recognizes_answer (.configurationPong id) (encodable_pong 0x05 id) rfl
  | knownPacks packs => exact recognizes_answer .knownPacksResponseEmpty (encodable_varInt 0x07 0) rfl
  | resourcePackPush => exact recognizes_stop fun s a t => nofun
  | transfer => exact recognizes_stop fun s a t => nofun
  | codeOfConduct => exact recognizes_stop fun s a t => nofun

theorem recognizes_runConfigurationPhase : Recognizes tape (runConfigurationPhase scripted layout)
    .configuration (fun _ => .play) (ConfigurationFrames layout) := by
  refine (recognizes_rounds (fun phase => recognizes_turn fun frame packet hdecode =>
    recognizes_answerConfiguration phase
      (gives_decodeFrame (gives_decodeConfigurationPayload layout) hdecode))
    (packetLimitExceeded_ne_ok maxConfigurationPackets) maxConfigurationPackets .empty).congr
    fun frames phase => ?_
  refine (rounds_letters (f := ConfigurationPhaseOutcome.takeFrame layout)
    (Q := fun phase frame phase' =>
      decodeConfigurationClientbound layout frame = some (.ok .finish) ∧ phase = phase')
    ?_ ?_).trans ?_
  · intro phase word phase'
    constructor
    · rintro ⟨frame, packet, rfl, hpacket, hvalue⟩
      exact ⟨frame, rfl, (takeFrame_eq_some layout).mpr
        ⟨packet, hpacket, configurationValue_eq_inl.mp hvalue⟩⟩
    · rintro ⟨frame, rfl, htake⟩
      obtain ⟨packet, hpacket, htake⟩ := (takeFrame_eq_some layout).mp htake
      exact ⟨frame, packet, rfl, hpacket, configurationValue_eq_inl.mpr htake⟩
  · intro phase word phase'
    constructor
    · rintro ⟨frame, packet, rfl, hpacket, hvalue⟩
      obtain ⟨rfl, rfl⟩ := configurationValue_eq_inr.mp hvalue
      exact ⟨frame, rfl, hpacket, rfl⟩
    · rintro ⟨frame, rfl, hpacket, rfl⟩
      exact ⟨frame, .finish, rfl, hpacket, rfl⟩
  · constructor
    · rintro ⟨packets, last, _, rfl, hlength, hpackets, hlast, rfl⟩
      exact ⟨packets, last, rfl, hlength, hpackets, hlast⟩
    · rintro ⟨packets, last, rfl, hlength, hpackets, hlast⟩
      exact ⟨packets, last, phase, rfl, hlength, hpackets, hlast, rfl⟩

/-! ### The first packets of Play -/

/-- How a round of `await_initial_play_login` ends on a packet. -/
def playValue (loaded : Bool) : PlayClientbound → Option (Bool ⊕ PlayAcceptance)
  | .login initialLogin => some (.inr (.login initialLogin))
  | .startConfiguration => some (.inr .reconfigure)
  | .disconnect _ | .resourcePackPush | .transfer => none
  | .chunkBatchFinished _ => some (.inl true)
  | _ => some (.inl loaded)

theorem playValue_eq_inl {loaded : Bool} {packet : PlayClientbound} :
    (∃ loaded', playValue loaded packet = some (.inl loaded')) ↔ packet.isPassed = true := by
  cases packet with
  | login initialLogin => exact ⟨nofun, nofun⟩
  | startConfiguration => exact ⟨nofun, nofun⟩
  | disconnect reason => exact ⟨nofun, nofun⟩
  | resourcePackPush => exact ⟨nofun, nofun⟩
  | transfer => exact ⟨nofun, nofun⟩
  | chunkBatchFinished chunks => exact ⟨fun _ => rfl, fun _ => ⟨true, rfl⟩⟩
  | _ => exact ⟨fun _ => rfl, fun _ => ⟨loaded, rfl⟩⟩

theorem playValue_eq_inr {loaded : Bool} {packet : PlayClientbound} {accepted : PlayAcceptance} :
    playValue loaded packet = some (.inr accepted) ↔ packet.acceptance? = some accepted := by
  cases packet with
  | login initialLogin =>
    unfold playValue PlayClientbound.acceptance?
    simp only [Option.some.injEq, Sum.inr.injEq]
  | startConfiguration =>
    unfold playValue PlayClientbound.acceptance?
    simp only [Option.some.injEq, Sum.inr.injEq]
  | _ => exact ⟨nofun, nofun⟩

def PlayAcceptance.state : PlayAcceptance → ConnectionState
  | login _ => .play
  | reconfigure => .configuration

theorem recognizes_finishChunkBatch (loaded : Bool) :
    Recognizes tape (finishChunkBatch scripted loaded) .play
      (Sum.elim (fun _ => .play) PlayAcceptance.state)
      (unread fun r => some (.inl true) = some r) := by
  have hreceived : (ClientPacket.playChunkBatchReceived desiredChunksPerTick).Encodable :=
    encodable_short 0x0b (writeF32 desiredChunksPerTick) (by decide)
  refine (recognizes_send _ hreceived).silent ?_
  cases loaded with
  | true => exact recognizes_value _ rfl
  | false => exact recognizes_answer .playPlayerLoaded (encodable_bare 0x2c) rfl

theorem recognizes_reconfigure : Recognizes tape (reconfigure scripted) .play
    (fun _ => .configuration) (unread fun _ => True) :=
  (recognizes_send .playAcknowledgeConfiguration (encodable_bare 0x10)).silent
    ((recognizes_transition .configuration).silent
      (recognizes_send _ encodable_clientInformation))

theorem recognizes_answerPlay (loaded : Bool) {packet : PlayClientbound} (h : packet.KeyFits) :
    Recognizes tape (answerPlay scripted loaded packet) .play
      (Sum.elim (fun _ => .play) PlayAcceptance.state)
      (unread fun r => playValue loaded packet = some r) := by
  cases packet with
  | keepAlive id =>
    exact recognizes_answer (.playKeepAlive id)
      (encodable_short 0x1c (writeI64 id) (Nat.le_refl 8)) rfl
  | ping id => exact recognizes_answer (.playPong id) (encodable_pong 0x2d id) rfl
  | playerPosition position =>
    exact recognizes_answer (.playTeleportConfirmation position.teleportId)
      (encodable_varInt 0x00 position.teleportId) rfl
  | chunkBatchFinished chunks => exact recognizes_finishChunkBatch loaded
  | cookieRequest key =>
    exact recognizes_answer (.playCookieResponse key) (encodable_cookie 0x15 h) rfl
  | disconnect reason => exact recognizes_stop fun s a t => nofun
  | startConfiguration => exact recognizes_reconfigure.silent (recognizes_value _ rfl)
  | resourcePackPush => exact recognizes_stop fun s a t => nofun
  | transfer => exact recognizes_stop fun s a t => nofun
  | _ => exact recognizes_value _ rfl

theorem recognizes_awaitInitialPlayLogin : Recognizes tape (awaitInitialPlayLogin scripted layout)
    .play PlayAcceptance.state (PlayFrames layout) := by
  refine (recognizes_rounds (fun loaded => recognizes_turn fun frame packet hdecode =>
    recognizes_answerPlay loaded (gives_decodeFrame (gives_decodePlayPayload layout) hdecode))
    (fun s a t h => by cases h) maxPlayAcceptancePackets false).congr fun frames accepted => ?_
  refine rounds_packets (f := decodePlayClientbound layout)
    (P := fun packet => packet.isPassed = true) (Q := fun frame accepted => ∃ packet,
      decodePlayClientbound layout frame = some (.ok packet) ∧ packet.acceptance? = some accepted)
    (fun loaded packet => ?_) fun loaded frame accepted => ?_
  · exact playValue_eq_inl
  · exact exists_congr fun packet => and_congr_right fun _ => playValue_eq_inr

/-! ### The whole of it -/

/-- How a round of `run_configuration` ends. -/
def roundValue (kept phase : ConfigurationPhaseOutcome) :
    PlayAcceptance → ConfigurationPhaseOutcome ⊕ ConfigurationOutcome
  | .login initialLogin => .inr ⟨initialLogin, kept.merge phase⟩
  | .reconfigure => .inl (kept.merge phase)

theorem recognizes_reconfigurationTurn (kept : ConfigurationPhaseOutcome) :
    Recognizes tape (reconfigurationTurn scripted layout kept) .configuration
      (Sum.elim (fun _ => .configuration) fun _ => .play) fun frames r => ∃ u v phase accepted,
        frames = u ++ v ∧ ConfigurationFrames layout u phase ∧ PlayFrames layout v accepted ∧
          r = roundValue kept phase accepted := by
  refine ((recognizes_runConfigurationPhase layout).bind fun _ phase _ =>
    (recognizes_awaitInitialPlayLogin layout).bind (K := fun accepted =>
      unread (· = roundValue kept phase accepted)) ?_).congr ?_
  · intro _ accepted _
    cases accepted with
    | login initialLogin => exact recognizes_pure _ rfl
    | reconfigure => exact recognizes_pure _ rfl
  · intro frames r
    constructor
    · rintro ⟨u, _, phase, rfl, hu, v, _, accepted, rfl, hv, rfl, hr⟩
      exact ⟨u, v, phase, accepted, by rw [List.append_nil], hu, hv, hr⟩
    · rintro ⟨u, v, phase, accepted, rfl, hu, hv, hr⟩
      exact ⟨u, v, phase, rfl, hu, v, [], accepted, (List.append_nil v).symm, hv, rfl, hr⟩

theorem recognizes_runConfiguration : Recognizes tape (runConfiguration scripted layout)
    .configuration (fun _ => .play) fun frames outcome =>
      ∃ (earlier : List (List Bytes × ConfigurationPhaseOutcome)) (last : List Bytes),
        frames = earlier.flatMap Prod.fst ++ last ∧
        earlier.length < maxReconfigurationsDuringAcceptance + 1 ∧
        (∀ part ∈ earlier, ReconfiguredFrames layout part.1 part.2) ∧
        ConfiguredFrames layout
          ((earlier.map Prod.snd).foldl ConfigurationPhaseOutcome.merge .empty) last outcome := by
  refine (recognizes_rounds (recognizes_reconfigurationTurn layout) (fun s a t h => by cases h)
    (maxReconfigurationsDuringAcceptance + 1) .empty).congr fun frames outcome => ?_
  refine rounds_parts (P := ReconfiguredFrames layout) (Q := ConfiguredFrames layout) ?_ ?_
  · intro kept word kept'
    constructor
    · rintro ⟨u, v, phase, accepted, rfl, hu, hv, hr⟩
      cases accepted with
      | login initialLogin => cases hr
      | reconfigure =>
        cases hr
        exact ⟨phase, ⟨u, v, rfl, hu, hv⟩, rfl⟩
    · rintro ⟨phase, ⟨u, v, rfl, hu, hv⟩, rfl⟩
      exact ⟨u, v, phase, .reconfigure, rfl, hu, hv, rfl⟩
  · intro kept word outcome
    constructor
    · rintro ⟨u, v, phase, accepted, rfl, hu, hv, hr⟩
      cases accepted with
      | login initialLogin =>
        cases hr
        exact ⟨u, v, phase, rfl, hu, hv, rfl⟩
      | reconfigure => cases hr
    · rintro ⟨u, v, phase, rfl, hu, hv, hregistries⟩
      obtain ⟨initialLogin, registries⟩ := outcome
      change registries = kept.merge phase at hregistries
      subst hregistries
      exact ⟨u, v, phase, .login initialLogin, rfl, hu, hv, rfl⟩

end

section
variable (username : DevelopmentUsername) (layout : NbtLayout) (address : Network.ServerAddress)

theorem recognizes_connectToPlay
    (h : (ClientPacket.handshake (loginHandshake address)).Encodable) :
    Recognizes tape (connectToPlay scripted layout address username) .handshake (fun _ => .play)
      (JoinFrames username layout) := by
  have hdone (play : ConnectedPlay) : Recognizes tape (pure play : JoinM (List Bytes) Unit _) .play
      (fun _ => .play) (unread (· = play)) := recognizes_pure play rfl
  have hsession := (recognizes_runLogin username).bind fun _ uuid _ =>
    (recognizes_runConfiguration layout).bind fun _ configuration _ => hdone ⟨uuid, configuration⟩
  refine ((recognizes_send (.handshake (loginHandshake address)) h).silent
    ((recognizes_transition .login).silent
      ((recognizes_send _ (encodable_loginStart username (.replicate 16 0))).silent
        hsession))).congr fun frames play => ?_
  constructor
  · rintro ⟨login, _, uuid, rfl, hlogin, _, _, configuration, rfl,
      ⟨earlier, last, rfl, hlength, hearlier, hlast⟩, rfl, rfl⟩
    refine ⟨login, last, earlier, ?_, hlogin, Nat.le_of_lt_succ hlength, hearlier, hlast⟩
    rw [List.append_nil]
  · rintro ⟨login, last, earlier, rfl, hlogin, hlength, hearlier, hlast⟩
    exact ⟨login, _, play.profileUuid, rfl, hlogin, _, [], play.configuration,
      (List.append_nil _).symm, ⟨earlier, last, rfl, Nat.lt_succ_of_le hlength, hearlier, hlast⟩,
      rfl, rfl⟩

/-- Where nothing gets lost, a client joins exactly on these frames, and leaves those behind them
to Play. -/
theorem connectToPlay_scripted (frames rest : List Bytes) (play : ConnectedPlay) :
    (∃ s, connectToPlay scripted layout address username (.start frames) = .ok play s ∧
      s.connection = rest) ↔
    (ClientPacket.handshake (loginHandshake address)).Encodable ∧
      ∃ used, frames = used ++ rest ∧ JoinFrames username layout used play := by
  constructor
  · rintro ⟨s, hs, rfl⟩
    have hencodes : (ClientPacket.handshake (loginHandshake address)).Encodable := by
      obtain ⟨_, _, hsend, _⟩ := Mut.bind_eq_ok.mp hs
      obtain ⟨bytes, _, hbytes, _⟩ := Mut.bind_eq_ok.mp hsend
      exact ⟨bytes, Mut.mapError_eq_ok.mp (Mut.ofExcept_eq_ok.mp hbytes).1⟩
    obtain ⟨-, used, hframes, hused⟩ :=
      (recognizes_connectToPlay username layout address hencodes).sound _ _ _ rfl hs
    exact ⟨hencodes, used, hframes, hused⟩
  · rintro ⟨hencodes, used, rfl, hused⟩
    exact (recognizes_connectToPlay username layout address hencodes).complete _ used rest play rfl
      rfl hused

end

end Cubic.Bootstrap
