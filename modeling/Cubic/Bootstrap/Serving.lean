import Cubic.Bootstrap.PanicFree
import Cubic.Bootstrap.Phases

/-!
# Every way a join can end

Whatever the connection does, what was written follows from what was read, and a server that reads
it takes every frame.
-/

namespace Cubic.Bootstrap

set_option autoImplicit false

open Exchange

section
variable {username : DevelopmentUsername} {layout : NbtLayout} {address : Network.ServerAddress}
  {history : List JoinEvent} {stage : Stage} {owed : List ClientPacket}

variable (username layout address) in
/-- What a client that joins sends when it is sent these frames. -/
def answersTo (frames : List Bytes) : List ClientPacket :=
  opening username address ++ (joiner username layout).outputs .login frames

variable (username layout) in
def stageAt (frames : List Bytes) : Stage := (joiner username layout).stateAfter .login frames

variable (username layout address) in
/-- The frames are answered in order, up to the answers that are owed. All were sent before
another frame was read, and none is read once the client has joined or gives up. -/
structure Answered (history : List JoinEvent) (owed : List ClientPacket) : Prop where
  written : writtenOf history ++ owed = answersTo username layout address (receivedOf history)
  prompt : ∀ before frame, before ++ [.received frame] <+: history →
    writtenOf before = answersTo username layout address (receivedOf before) ∧
      (stageAt username layout (receivedOf before)).reads = true

variable (username layout) in
/-- A server that reads the frames in its own phases takes them all. Where the client reads, the
server is in the phase that the client takes it to be in. -/
structure Served (history : List JoinEvent) (phase : ServerPhase) : Prop where
  taken : ∃ frames, (writtenOf history).mapM ClientPacket.encode = .ok frames ∧
    frames.foldlM ServerPhase.receive .handshake = some phase
  agreed : ∀ before frame, before ++ [.received frame] <+: history →
    ∃ frames p, (writtenOf before).mapM ClientPacket.encode = .ok frames ∧
      frames.foldlM ServerPhase.receive .handshake = some p ∧
      (stageAt username layout (receivedOf before)).phase? = some p

theorem Follows.answered
    (h : Follows username layout (.login, opening username address) history (stage, owed)) :
    Answered username layout address history owed where
  written := (Responder.written_of_run h.run).1
  prompt before frame hbefore :=
    ⟨Responder.written_before_received h.run hbefore, h.reading before frame hbefore⟩

theorem phase?_of_reads (h : stage.reads = true) : ∃ p, stage.phase? = some p := by
  cases stage with
  | login => exact ⟨.login, rfl⟩
  | configuration => exact ⟨.configuration, rfl⟩
  | play loaded => exact ⟨.play, rfl⟩
  | joined => cases h
  | ended => cases h

/-- A history that ends where a frame is read owes nothing. -/
theorem Follows.settled {before : List JoinEvent} {frame : Bytes}
    {start point : Stage × List ClientPacket} (h : Follows username layout start history point)
    (hbefore : before ++ [.received frame] <+: history) : Follows username layout start before
      ((joiner username layout).stateAfter start.1 (receivedOf before), []) := by
  obtain ⟨m, hm⟩ := h.of_prefix hbefore
  obtain ⟨t, hrun, hlast⟩ := Run.append_iff.mp hm.run
  cases hlast with
  | cons hstep hnil =>
    cases hstep with
    | receive k message =>
      obtain ⟨between, hbetween⟩ := h.of_prefix ((List.prefix_append before _).trans hbefore)
      have hstate := (Responder.written_of_run hrun).2
      exact ⟨hstate ▸ hrun, hbetween.encoded, hbetween.reading⟩

theorem Follows.served
    (h : Follows username layout (.login, opening username address) history (stage, owed)) :
    ∃ phase, Served username layout history phase ∧ (owed = [] → Agrees stage phase) := by
  obtain ⟨frames, phase, hframes, hreceived, hagrees⟩ := h.received
  refine ⟨phase, ⟨⟨frames, hframes, hreceived⟩, ?_⟩, hagrees⟩
  intro before frame hbefore
  obtain ⟨earlier, p, hearlier, hp, hsettled⟩ := (h.settled hbefore).received
  obtain ⟨q, hq⟩ := phase?_of_reads (h.reading before frame hbefore)
  obtain rfl := hsettled rfl q hq
  exact ⟨earlier, p, hearlier, hp, hq⟩

end

section
variable {χ ε : Type} (ops : ConnectionOps χ ε) (username : DevelopmentUsername)
  (layout : NbtLayout) (address : Network.ServerAddress)

/-- A join sends the answers to what it reads and nothing else, however it ends. -/
theorem connectToPlay_answered (connection : χ) :
    Mut.wp (connectToPlay ops layout address username)
      ⟨fun _ s => Answered username layout address s.history [] ∧
          stageAt username layout (receivedOf s.history) = .joined ∧ s.state = .play,
        fun _ s => ∃ owed, Answered username layout address s.history owed, False⟩
      (.start connection) := by
  refine (ends_connectToPlay ops username layout address).wp
    (Mut.wp_mono (wp_connectToPlay address connection) ?_ ?_ id)
  · intro play s hs
    exact ⟨hs.follows.answered, (Responder.written_of_run hs.follows.run).2.symm, hs.state⟩
  · intro e s hs
    obtain ⟨point, hpoint⟩ := hs
    exact ⟨point.2, hpoint.answered⟩

/-- No frame makes a decoder panic, nor a session that reads it. -/
theorem connectToPlay_ne_panic (s : Joining χ) (frame : Bytes) :
    (∃ r, decodeLoginClientbound frame = some r) ∧
      (∃ r, decodeConfigurationClientbound layout frame = some r) ∧
      (∃ r, decodePlayClientbound layout frame = some r) ∧
      connectToPlay ops layout address username s ≠ .panic := by
  refine ⟨?_, ?_, ?_, (ends_connectToPlay ops username layout address).ne_panic s⟩
  · exact decodeFrame_isSome ends_decodeLoginPayload frame
  · exact decodeFrame_isSome (ends_decodeConfigurationPayload layout) frame
  · exact decodeFrame_isSome (ends_decodePlayPayload layout) frame

end

end Cubic.Bootstrap
