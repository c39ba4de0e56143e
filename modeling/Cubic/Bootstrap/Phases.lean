import Cubic.Bootstrap.Reaction
import Cubic.Schema.RoundTrip

/-!
# The server that is joined

A server changes its phase when it is told to, and each phase has packets of its own. It reads
what a client that joins has written, frame by frame.
-/

namespace Cubic.Bootstrap

set_option autoImplicit false

open Exchange

inductive ServerPhase where
  | handshake
  | hello
  | login
  | configuration
  | play
  deriving DecidableEq

/-- The phase after a packet, which must be one of the phase. -/
def ServerPhase.accept : ServerPhase → ClientPacket → Option ServerPhase
  | handshake, .handshake intention => if intention.nextState = .login then some hello else none
  | hello, .loginStart _ _ => some login
  | login, .encryptionResponse _ _ => some login
  | login, .loginPluginResponse _ => some login
  | login, .loginCookieResponse _ => some login
  | login, .loginAcknowledged => some configuration
  | configuration, .clientInformation _ => some configuration
  | configuration, .configurationCookieResponse _ => some configuration
  | configuration, .configurationKeepAlive _ => some configuration
  | configuration, .configurationPong _ => some configuration
  | configuration, .knownPacksResponseEmpty => some configuration
  | configuration, .finishConfiguration => some play
  | play, .playTeleportConfirmation _ => some play
  | play, .playChunkBatchReceived _ => some play
  | play, .playCookieResponse _ => some play
  | play, .playKeepAlive _ => some play
  | play, .playPlayerLoaded => some play
  | play, .playPong _ => some play
  | play, .playAcknowledgeConfiguration => some configuration
  | _, _ => none

/-! ### What the server reads -/

/-- The cookie is absent. -/
def readCookieResponse (packet : String → ClientPacket) : ReaderM (Option ClientPacket) := do
  let key ← readString identifierLimits
  let present ← readBool
  pure (if present then none else some (packet key))

def readHandshake : ReaderM (Option ClientPacket) := do
  let version ← readVarInt
  let host ← readString handshakeHostLimits
  let port ← readU16
  let next ← readVarInt
  pure (if next = 1 then some (.handshake ⟨version, host, port, .status⟩)
    else if next = 2 then some (.handshake ⟨version, host, port, .login⟩) else none)

def readLoginStart : ReaderM (Option ClientPacket) := do
  let username ← readString usernameLimits
  let uuid ← Schema.readUuid
  pure (some (.loginStart username uuid))

def readEncryptionResponse : ReaderM (Option ClientPacket) := do
  let secret ← readByteArray (4 * 1024)
  let token ← readByteArray (4 * 1024)
  pure (some (.encryptionResponse secret token))

def readPluginResponse : ReaderM (Option ClientPacket) := do
  let transactionId ← readVarInt
  let understood ← readBool
  pure (if understood then none else some (.loginPluginResponse transactionId))

def readClientInformation : ReaderM (Option ClientPacket) := do
  let locale ← readString localeLimits
  let viewDistance ← readI8
  let chatMode ← readVarInt
  let chatColors ← readBool
  let displayedSkinParts ← readU8
  let mainHand ← readVarInt
  let textFiltering ← readBool
  let allowsServerListing ← readBool
  let particleStatus ← readVarInt
  pure (some (.clientInformation ⟨locale, viewDistance, chatMode, chatColors, displayedSkinParts,
    mainHand, textFiltering, allowsServerListing, particleStatus⟩))

def readKnownPacks : ReaderM (Option ClientPacket) := do
  let count ← readVarInt
  pure (if count = 0 then some .knownPacksResponseEmpty else none)

/-- A packet of one field. -/
def readOne {α : Type} (m : ReaderM α) (packet : α → ClientPacket) :
    ReaderM (Option ClientPacket) := do
  let value ← m
  pure (some (packet value))

/-- The packets of each phase by their identifiers. -/
def serverboundReaders : ServerPhase → List (Int32 × ReaderM (Option ClientPacket))
  | .handshake => [(0x00, readHandshake)]
  | .hello => [(0x00, readLoginStart)]
  | .login => [(0x01, readEncryptionResponse), (0x02, readPluginResponse),
    (0x03, pure (some .loginAcknowledged)), (0x04, readCookieResponse .loginCookieResponse)]
  | .configuration => [(0x00, readClientInformation),
    (0x01, readCookieResponse .configurationCookieResponse),
    (0x03, pure (some .finishConfiguration)), (0x04, readOne readI64 .configurationKeepAlive),
    (0x05, readOne readI32 .configurationPong), (0x07, readKnownPacks)]
  | .play => [(0x00, readOne readVarInt .playTeleportConfirmation),
    (0x0b, readOne readF32 .playChunkBatchReceived),
    (0x10, pure (some .playAcknowledgeConfiguration)),
    (0x15, readCookieResponse .playCookieResponse), (0x1c, readOne readI64 .playKeepAlive),
    (0x2c, pure (some .playPlayerLoaded)), (0x2d, readOne readI32 .playPong)]

def readServerbound (phase : ServerPhase) (id : Int32) : ReaderM (Option ClientPacket) :=
  match (serverboundReaders phase).lookup id with
  | some read => read
  | none => pure none

/-- The frame is the packet, and nothing else. -/
def readServerFrame (phase : ServerPhase) : ReaderM (Option ClientPacket) := do
  let length ← readVarInt
  let body ← Mut.get
  let id ← readVarInt
  let packet ← readServerbound phase id
  let r ← Mut.get
  pure (if length.toInt = body.remaining ∧ r.remaining = 0 then packet else none)

def serverPacket? (phase : ServerPhase) (frame : Bytes) : Option ClientPacket :=
  match readServerFrame phase (.new frame) with
  | .ok packet _ => packet
  | _ => none

def ServerPhase.receive (phase : ServerPhase) (frame : Bytes) : Option ServerPhase :=
  (serverPacket? phase frame).bind phase.accept

/-! ### It reads what was meant -/

theorem frame_ok {body bytes : Bytes} (h : frame body = .ok bytes) :
    bytes = writeVarInt (.ofNat body.length) ++ body ∧ body.length ≤ i32Max := by
  unfold frame encodeFrame at h
  dsimp only at h
  split at h
  · cases h
  · unfold writeLength at h
    split at h
    · rename_i hle
      cases h
      exact ⟨rfl, hle⟩
    · cases h

theorem serverPacket?_frame {phase : ServerPhase} (id : Int32) {body bytes : Bytes}
    {packet : ClientPacket} {read : ReaderM (Option ClientPacket)}
    (hframe : frame (writeVarInt id ++ body) = .ok bytes)
    (hread : (serverboundReaders phase).lookup id = some read)
    (hreads : ReadsAll read body (some packet)) : serverPacket? phase bytes = some packet := by
  obtain ⟨rfl, hle⟩ := frame_ok hframe
  have hlength := reads_varInt (.ofNat (writeVarInt id ++ body).length) []
    (writeVarInt id ++ body)
  have hbound : (Int32.ofNat (writeVarInt id ++ body).length).toInt =
      (writeVarInt id ++ body).length := toInt_ofNat_i32 hle
  unfold serverPacket? readServerFrame
  rw [show CodecReader.new (writeVarInt (.ofNat (writeVarInt id ++ body).length) ++
    (writeVarInt id ++ body)) = ⟨[], writeVarInt (.ofNat (writeVarInt id ++ body).length) ++
      (writeVarInt id ++ body)⟩ from rfl, Mut.bind_of_ok hlength, Mut.get_bind,
    Mut.bind_of_ok (reads_varInt id _ body)]
  unfold readServerbound
  rw [hread]
  dsimp only
  rw [Mut.bind_of_ok (hreads _), Mut.get_bind, if_pos ⟨hbound, rfl⟩]
  rfl

section
variable {phase : ServerPhase} {bytes : Bytes}

theorem serverPacket?_bare (id : Int32) {packet : ClientPacket}
    (hread : (serverboundReaders phase).lookup id = some (pure (some packet)))
    (h : packetWithoutPayload id = .ok bytes) : serverPacket? phase bytes = some packet := by
  unfold packetWithoutPayload at h
  rw [← List.append_nil (writeVarInt id)] at h
  exact serverPacket?_frame id h hread (reads_pure _).all

theorem serverPacket?_one (id : Int32) {α : Type} {m : ReaderM α} {packet : α → ClientPacket} {body : Bytes}
    {value : α} (hread : (serverboundReaders phase).lookup id = some (readOne m packet))
    (hm : Reads m body value) (h : frame (writeVarInt id ++ body) = .ok bytes) :
    serverPacket? phase bytes = some (packet value) :=
  serverPacket?_frame id h hread (hm.map fun value => some (packet value)).all

theorem serverPacket?_cookie (id : Int32) {packet : String → ClientPacket} {key : String}
    (hread : (serverboundReaders phase).lookup id = some (readCookieResponse packet))
    (h : encodeEmptyCookieResponse id key = .ok bytes) :
    serverPacket? phase bytes = some (packet key) := by
  obtain ⟨keyBytes, hkey, hframe⟩ := Mut.except_bind_eq_ok.mp h
  have hreads : Reads (readCookieResponse packet) (keyBytes ++ writeBool false)
      (some (packet key)) := (reads_string hkey).bind ((reads_bool false).map fun present =>
    if present then none else some (packet key))
  exact serverPacket?_frame id hframe hread hreads.all

theorem serverPacket?_handshake {intention : Handshake} (hnext : intention.nextState = .login)
    (h : encodeHandshake intention = .ok bytes) :
    serverPacket? .handshake bytes = some (.handshake intention) := by
  obtain ⟨version, host, port, next⟩ := intention
  cases hnext
  obtain ⟨hostBytes, hhost, hframe⟩ := Mut.except_bind_eq_ok.mp h
  refine serverPacket?_frame 0x00 hframe rfl (Reads.all ?_)
  exact (reads_varInt version).bind ((reads_string hhost).bind ((reads_u16 port).bind
    ((reads_varInt 2).map fun next =>
      if next = 1 then some (ClientPacket.handshake ⟨version, host, port, .status⟩)
      else if next = 2 then some (ClientPacket.handshake ⟨version, host, port, .login⟩) else none)))

theorem serverPacket?_loginStart {username : String} {uuid : Chat.ProtocolUuid}
    (h : encodeLoginStart username uuid = .ok bytes) :
    serverPacket? .hello bytes = some (.loginStart username uuid) := by
  obtain ⟨name, hname, hframe⟩ := Mut.except_bind_eq_ok.mp h
  refine serverPacket?_frame 0x00 hframe rfl (Reads.all ?_)
  exact (reads_string hname).bind ((Schema.reads_uuid uuid).map fun uuid =>
    some (ClientPacket.loginStart username uuid))

theorem serverPacket?_encryptionResponse {secret token : Bytes}
    (h : encodeEncryptionResponse secret token = .ok bytes) :
    serverPacket? .login bytes = some (.encryptionResponse secret token) := by
  obtain ⟨secretBytes, hsecret, h⟩ := Mut.except_bind_eq_ok.mp h
  obtain ⟨tokenBytes, htoken, hframe⟩ := Mut.except_bind_eq_ok.mp h
  refine serverPacket?_frame 0x01 hframe rfl (Reads.all ?_)
  exact (reads_byteArray hsecret).bind ((reads_byteArray htoken).map fun token =>
    some (ClientPacket.encryptionResponse secret token))

theorem serverPacket?_clientInformation {information : ClientInformation}
    (h : encodeClientInformation information = .ok bytes) :
    serverPacket? .configuration bytes = some (.clientInformation information) := by
  obtain ⟨fields, hfields, hframe⟩ := Mut.except_bind_eq_ok.mp h
  obtain ⟨locale, hlocale, hpure⟩ := Mut.except_bind_eq_ok.mp hfields
  cases hpure
  refine serverPacket?_frame 0x00 hframe rfl (Reads.all ?_)
  exact (reads_string hlocale).bind ((reads_i8 information.viewDistance).bind
    ((reads_varInt information.chatMode).bind ((reads_bool information.chatColors).bind
      ((reads_u8 information.displayedSkinParts).bind ((reads_varInt information.mainHand).bind
        ((reads_bool information.textFiltering).bind
          ((reads_bool information.allowsServerListing).bind
            ((reads_varInt information.particleStatus).map fun particleStatus =>
              some (ClientPacket.clientInformation { information with particleStatus })))))))))

/-- A packet of the phase is read back. -/
theorem serverPacket?_encode {packet : ClientPacket} (haccept : (phase.accept packet).isSome)
    (h : packet.encode = .ok bytes) : serverPacket? phase bytes = some packet := by
  cases phase with
  | handshake =>
    cases packet with
    | handshake intention =>
      by_cases hnext : intention.nextState = .login
      · exact serverPacket?_handshake hnext h
      · change (if intention.nextState = .login then some ServerPhase.hello else none).isSome
          at haccept
        rw [if_neg hnext] at haccept
        cases haccept
    | _ => cases haccept
  | hello =>
    cases packet with
    | loginStart username uuid => exact serverPacket?_loginStart h
    | _ => cases haccept
  | login =>
    cases packet with
    | encryptionResponse secret token => exact serverPacket?_encryptionResponse h
    | loginPluginResponse transactionId =>
      refine serverPacket?_frame 0x02 h rfl (Reads.all ?_)
      exact (reads_varInt transactionId).bind ((reads_bool false).map fun understood =>
        if understood then none else some (ClientPacket.loginPluginResponse transactionId))
    | loginCookieResponse key => exact serverPacket?_cookie 0x04 rfl h
    | loginAcknowledged => exact serverPacket?_bare 0x03 rfl h
    | _ => cases haccept
  | configuration =>
    cases packet with
    | clientInformation information => exact serverPacket?_clientInformation h
    | configurationCookieResponse key => exact serverPacket?_cookie 0x01 rfl h
    | configurationKeepAlive id => exact serverPacket?_one 0x04 rfl (reads_i64 id) h
    | configurationPong id => exact serverPacket?_one 0x05 rfl (reads_i32 id) h
    | knownPacksResponseEmpty =>
      have hreads : Reads readKnownPacks (writeVarInt 0) (some .knownPacksResponseEmpty) :=
        (reads_varInt 0).map fun count =>
          if count = 0 then some ClientPacket.knownPacksResponseEmpty else none
      have hframe : frame (writeVarInt 0x07 ++ writeVarInt 0) = .ok bytes := h
      exact serverPacket?_frame 0x07 hframe rfl hreads.all
    | finishConfiguration => exact serverPacket?_bare 0x03 rfl h
    | _ => cases haccept
  | play =>
    cases packet with
    | playTeleportConfirmation teleportId =>
      exact serverPacket?_one 0x00 rfl (reads_varInt teleportId) h
    | playChunkBatchReceived desired => exact serverPacket?_one 0x0b rfl (reads_u32 desired) h
    | playCookieResponse key => exact serverPacket?_cookie 0x15 rfl h
    | playKeepAlive id => exact serverPacket?_one 0x1c rfl (reads_i64 id) h
    | playPlayerLoaded => exact serverPacket?_bare 0x2c rfl h
    | playPong id => exact serverPacket?_one 0x2d rfl (reads_i32 id) h
    | playAcknowledgeConfiguration => exact serverPacket?_bare 0x10 rfl h
    | _ => cases haccept

theorem receive_encode {packet : ClientPacket} {next : ServerPhase}
    (haccept : phase.accept packet = some next) (h : packet.encode = .ok bytes) :
    phase.receive bytes = some next := by
  unfold ServerPhase.receive
  rw [serverPacket?_encode (Option.isSome_of_eq_some haccept) h]
  exact haccept

end

/-- The frames of packets that were accepted one after the other. -/
theorem receive_frames {packets : List ClientPacket} {phase next : ServerPhase}
    (haccept : packets.foldlM ServerPhase.accept phase = some next)
    (hencoded : ∀ packet ∈ packets, ∃ bytes, packet.encode = .ok bytes) :
    ∃ frames, packets.mapM ClientPacket.encode = .ok frames ∧
      frames.foldlM ServerPhase.receive phase = some next := by
  induction packets generalizing phase with
  | nil => exact ⟨[], rfl, haccept⟩
  | cons packet packets ih =>
    rw [List.foldlM_cons] at haccept
    obtain ⟨between, hpacket, hrest⟩ := Option.bind_eq_some_iff.mp haccept
    obtain ⟨⟨bytes, hbytes⟩, hencoded⟩ := List.forall_mem_cons.mp hencoded
    obtain ⟨frames, hframes, hreceived⟩ := ih hrest hencoded
    refine ⟨bytes :: frames, ?_, ?_⟩
    · rw [List.mapM_cons, hbytes, hframes]
      rfl
    · rw [List.foldlM_cons, receive_encode hpacket hbytes]
      exact hreceived

/-! ### The phases of a run -/

/-- The phase that the client takes the server to be in. -/
def Stage.phase? : Stage → Option ServerPhase
  | .login => some .login
  | .configuration => some .configuration
  | .play _ | .joined => some .play
  | .ended => none

/-- The server is in the phase that the client takes it to be in. -/
def Agrees (stage : Stage) (phase : ServerPhase) : Prop := ∀ p, stage.phase? = some p → phase = p

/-- The server takes the answers of a reaction, and agrees with the client again. -/
def Taken (phase : ServerPhase) (reaction : Reaction) : Prop :=
  ∃ next, reaction.1.foldlM ServerPhase.accept phase = some next ∧ Agrees reaction.2 next

theorem agrees_self {stage : Stage} {phase : ServerPhase} (h : stage.phase? = some phase) :
    Agrees stage phase := fun _ hp => Option.some.inj (h.symm.trans hp)

theorem taken_ended (phase : ServerPhase) : Taken phase ([], .ended) := ⟨phase, rfl, nofun⟩

theorem taken_loginReaction (username : DevelopmentUsername) (packet : LoginClientbound) :
    Taken .login (loginReaction username packet) := by
  cases packet with
  | pluginRequest transactionId channel payload => exact ⟨.login, rfl, agrees_self rfl⟩
  | cookieRequest key => exact ⟨.login, rfl, agrees_self rfl⟩
  | success success =>
    unfold loginReaction
    dsimp only
    split
    · exact ⟨.configuration, rfl, agrees_self rfl⟩
    · exact taken_ended .login
  | disconnect reasonJson => exact taken_ended .login
  | encryptionRequest request => exact taken_ended .login
  | setCompression threshold => exact taken_ended .login

theorem taken_configurationReaction (packet : ConfigurationClientbound) :
    Taken .configuration (configurationReaction packet) := by
  cases packet with
  | registryData registry entries =>
    unfold configurationReaction
    dsimp only
    split
    · exact ⟨.configuration, rfl, agrees_self rfl⟩
    · exact taken_ended .configuration
  | finish => exact ⟨.play, rfl, agrees_self rfl⟩
  | disconnect reason => exact taken_ended .configuration
  | resourcePackPush => exact taken_ended .configuration
  | transfer => exact taken_ended .configuration
  | codeOfConduct => exact taken_ended .configuration
  | _ => exact ⟨.configuration, rfl, agrees_self rfl⟩

theorem taken_playReaction (loaded : Bool) (packet : PlayClientbound) :
    Taken .play (playReaction loaded packet) := by
  cases packet with
  | chunkBatchFinished chunks =>
    cases loaded with
    | true => exact ⟨.play, rfl, agrees_self rfl⟩
    | false => exact ⟨.play, rfl, agrees_self rfl⟩
  | startConfiguration => exact ⟨.configuration, rfl, agrees_self rfl⟩
  | disconnect reason => exact taken_ended .play
  | resourcePackPush => exact taken_ended .play
  | transfer => exact taken_ended .play
  | _ => exact ⟨.play, rfl, agrees_self rfl⟩

theorem taken_reactTo {α : Type} {phase : ServerPhase} {reaction : α → Reaction}
    (h : ∀ packet, Taken phase (reaction packet)) (d : Decoded α) :
    Taken phase (reactTo reaction d) := by
  rcases d with _ | e | packet
  · exact taken_ended phase
  · exact taken_ended phase
  · exact h packet

theorem taken_react (username : DevelopmentUsername) (layout : NbtLayout) (stage : Stage)
    (phase : ServerPhase) (frame : Bytes) (h : Agrees stage phase) :
    ∃ next, ((joiner username layout).answers stage frame).foldlM ServerPhase.accept phase =
      some next ∧ Agrees ((joiner username layout).next stage frame) next := by
  change Taken phase (react username layout stage frame)
  cases stage with
  | login =>
    obtain rfl := h .login rfl
    exact taken_reactTo (taken_loginReaction username) _
  | configuration =>
    obtain rfl := h .configuration rfl
    exact taken_reactTo taken_configurationReaction _
  | play loaded =>
    obtain rfl := h .play rfl
    exact taken_reactTo (taken_playReaction loaded) _
  | joined => exact ⟨phase, rfl, h⟩
  | ended => exact taken_ended phase

theorem accept_opening (username : DevelopmentUsername) (address : Network.ServerAddress) :
    (opening username address).foldlM ServerPhase.accept .handshake = some .login := rfl

section
variable {username : DevelopmentUsername} {layout : NbtLayout} {address : Network.ServerAddress}
  {history before : List JoinEvent} {point : Stage × List ClientPacket} {frame : Bytes}

/-- The server follows what is written, and agrees once nothing is owed. -/
theorem Follows.received (h : Follows username layout (.login, opening username address) history
      point) :
    ∃ frames phase, (writtenOf history).mapM ClientPacket.encode = .ok frames ∧
      frames.foldlM ServerPhase.receive .handshake = some phase ∧
      (point.2 = [] → Agrees point.1 phase) := by
  obtain ⟨phase, after, haccepted, howed, hagrees⟩ := Responder.followed
    (taken_react username layout) h.run (accept_opening username address) (agrees_self rfl)
  obtain ⟨frames, hframes, hreceived⟩ := receive_frames haccepted h.encoded
  refine ⟨frames, phase, hframes, hreceived, ?_⟩
  intro hnone
  rw [hnone] at howed
  cases howed
  exact hagrees

theorem Follows.of_prefix {start : Stage × List ClientPacket}
    (h : Follows username layout start history point)
    (hbefore : before <+: history) : ∃ m, Follows username layout start before m := by
  obtain ⟨m, hm⟩ := h.run.of_prefix hbefore
  refine ⟨m, hm, ?_, fun earlier frame hearlier => h.reading earlier frame (hearlier.trans hbefore)⟩
  intro packet hpacket
  refine h.encoded packet ?_
  exact (hbefore.filterMap _).subset hpacket

end

end Cubic.Bootstrap
