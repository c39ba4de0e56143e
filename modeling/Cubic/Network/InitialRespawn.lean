import Cubic.Codec.Frame
import Cubic.Network.PlaySession
import Cubic.World.BlockEntities

/-!
# Who is respawned

The recovery is told of a chunk in an arm that chunk packets do not reach.
-/

namespace Cubic.Network

open World Mut

set_option autoImplicit false

namespace SessionEvent

def isRespawn : SessionEvent → Bool
  | wrote .performRespawn => true
  | _ => false

def isChunk : SessionEvent → Bool
  | handled (.levelChunkWithLight _) => true
  | _ => false

end SessionEvent

/-- At most one respawn request is written, and none after a chunk. -/
structure RespawnsInitially (history : List SessionEvent) : Prop where
  atMostOnce : history.countP SessionEvent.isRespawn ≤ 1
  notAfterChunk : history.Pairwise fun earlier later => earlier.isChunk → ¬ later.isRespawn

variable {σ E : Type} {parts : SessionParts σ E} {s t : PlaySession σ}

/-- The frame is left to the last stage, as this packet. -/
structure PlaySession.Receives (parts : SessionParts σ E) (s : PlaySession σ) (frame : Bytes)
    (packet : PlayClientbound) : Prop where
  entity : parts.decodeEntityPacket s.rest frame = .ok none ∨
    parts.decodeEntityPacket s.rest frame = .ok (some (.velocity parts.playerEntityId))
  inventory : parts.decodeInventoryClientbound s.rest frame = .ok false
  packet : parts.decodePlayClientbound frame = .ok packet

/-- The first health of a dead player does not come after a chunk. -/
def PlaySession.Meets (parts : SessionParts σ E) (s : PlaySession σ) : SessionInput → Prop
  | .frame bytes => ∀ health : F32, s.Receives parts bytes (.health health) →
      health.le F32.zero = true → s.history.any SessionEvent.isChunk = true →
        s.recovery.requested = true
  | _ => True

/-! ### What a turn of the loop adds -/

/-- More happens, but no respawn request. -/
def Extends (s t : PlaySession σ) : Prop :=
  t.worldMode = s.worldMode ∧ t.recovery = s.recovery ∧
    ∃ more, t.history = s.history ++ more ∧ ∀ event ∈ more, event.isRespawn = false

/-- A dead player asks to be respawned, and then more happens. -/
def Requests (s : PlaySession σ) (health : F32) (t : PlaySession σ) : Prop :=
  t.worldMode = s.worldMode ∧ t.recovery = { s.recovery with requested := true } ∧
    ∃ more, t.history = s.history ++ .handled (.health health) :: .wrote .performRespawn :: more ∧
      ∀ event ∈ more, event.isRespawn = false

theorem Extends.refl (s : PlaySession σ) : Extends s s :=
  ⟨rfl, rfl, [], (List.append_nil _).symm, fun _ h => absurd h List.not_mem_nil⟩

theorem Extends.trans {u : PlaySession σ} (h : Extends s t) (h' : Extends t u) : Extends s u := by
  obtain ⟨hmode, hrecovery, more, hmore, hquiet⟩ := h
  obtain ⟨hmode', hrecovery', more', hmore', hquiet'⟩ := h'
  refine ⟨hmode'.trans hmode, hrecovery'.trans hrecovery, more ++ more', ?_, ?_⟩
  · rw [hmore', hmore, List.append_assoc]
  · exact List.forall_mem_append.mpr ⟨hquiet, hquiet'⟩

/-- Whether or not it succeeds, `m` adds no respawn request. -/
def Quiet {α : Type} (m : SessionM σ E α) : Prop :=
  ∀ s, wp m ⟨fun _ t => Extends s t, fun _ t => Extends s t, True⟩ s

section
variable {α β : Type} {m : SessionM σ E α} {f : α → SessionM σ E β}

theorem Quiet.bind (hm : Quiet m) (hf : ∀ a, Quiet (f a)) : Quiet (m >>= f) := by
  intro s
  refine wp_seq (hm s) (fun a t ht => ?_) (fun _ _ => id) id
  exact wp_mono (hf a t) (fun _ _ => ht.trans) (fun _ _ => ht.trans) id

theorem quiet_pure (a : α) : Quiet (pure a : SessionM σ E α) := Extends.refl

theorem quiet_fail (e : SessionEnd E) : Quiet (Mut.fail e : SessionM σ E α) := Extends.refl

theorem quiet_get : Quiet (Mut.get : SessionM σ E (PlaySession σ)) := Extends.refl

theorem quiet_ofExcept (r : Except (SessionEnd E) α) : Quiet (Mut.ofExcept r : SessionM σ E α) := by
  cases r with
  | ok a => exact quiet_pure a
  | error e => exact quiet_fail e

theorem quiet_ofOption (o : Option α) : Quiet (Mut.ofOption o : SessionM σ E α) := by
  cases o with
  | some a => exact quiet_pure a
  | none => exact fun _ => trivial

theorem quiet_modify {g : PlaySession σ → PlaySession σ} (h : ∀ s, Extends s (g s)) :
    Quiet (Mut.modify g : SessionM σ E Unit) := h

theorem quiet_record {event : SessionEvent} (h : event.isRespawn = false) :
    Quiet (record event : SessionM σ E Unit) :=
  quiet_modify fun _ => ⟨rfl, rfl, [event], rfl, List.forall_mem_singleton.mpr h⟩

theorem quiet_withRest (f : σ → Except E (σ × α)) : Quiet (withRest f) := by
  unfold withRest
  refine quiet_get.bind fun s => (quiet_ofExcept _).bind fun result => ?_
  have hkeep : ∀ s : PlaySession σ, Extends s { s with rest := result.1 } := Extends.refl
  exact (quiet_modify hkeep).bind fun _ => quiet_pure _

theorem quiet_onRest (f : σ → Except E σ) : Quiet (onRest f) := quiet_withRest _

theorem quiet_ite {n : SessionM σ E α} (c : Prop) [Decidable c] (hm : Quiet m) (hn : Quiet n) :
    Quiet (if c then m else n) := by
  split
  · exact hm
  · exact hn

end

theorem quiet_handlePacket (frame : Bytes) {packet : PlayClientbound}
    (hhealth : ∀ health, packet ≠ .health health)
    (hchunk : ∀ chunk, packet ≠ .levelChunkWithLight chunk) :
    Quiet (handlePacket parts frame packet) := by
  cases packet with
  | health health => exact absurd rfl (hhealth health)
  | levelChunkWithLight chunk => exact absurd rfl (hchunk chunk)
  | keepAlive id => exact quiet_record rfl
  | ping id => exact quiet_record rfl
  | cookieRequest key => exact quiet_record rfl
  | playerPosition teleportId => exact (quiet_record rfl).bind fun _ => quiet_onRest _
  | chunkBatchFinished =>
    refine (quiet_record rfl).bind fun _ => quiet_get.bind fun s => quiet_ite _ (quiet_pure _) ?_
    exact (quiet_record rfl).bind fun _ => quiet_modify fun s => Extends.refl s
  | playerChat =>
    refine (quiet_withRest _).bind fun due => ?_
    cases due with
    | some count => exact quiet_record rfl
    | none => exact quiet_pure _
  | disconnect => exact (quiet_onRest _).bind fun _ => quiet_fail _
  | startConfiguration =>
    refine (quiet_record rfl).bind fun _ => (quiet_record rfl).bind fun _ => ?_
    refine (quiet_onRest _).bind fun _ => quiet_get.bind fun s => ?_
    exact quiet_ite _ (quiet_record rfl) (quiet_pure _)
  | resourcePackPush => exact quiet_fail _
  | transfer => exact quiet_fail _
  | blockChangedAck _ => exact quiet_onRest _
  | playerRotation => exact quiet_onRest _
  | setEntityMotion => exact quiet_onRest _
  | playerAbilities => exact quiet_onRest _
  | entityEvent => exact quiet_onRest _
  | disguisedChat => exact quiet_onRest _
  | systemChat => exact quiet_onRest _
  | entityData => exact quiet_onRest _
  | _ => exact quiet_pure _

/-- What is passed on is the packet itself, and no chunk. -/
def PassesOn (packet : PlayClientbound) (s : PlaySession σ) :
    Post (SessionEnd E) (PlaySession σ) ChunkAdaptation :=
  ⟨fun adapted t => t = s ∧ ∀ passed, adapted = .other passed →
      passed = packet ∧ ∀ chunk, packet ≠ .levelChunkWithLight chunk,
    fun _ t => t = s, True⟩

theorem passesOn_of_never {packet : PlayClientbound} {α : Type} {m : SessionM σ E α}
    {f : α → ChunkAdaptation} {s : PlaySession σ}
    (hm : wp m ⟨fun _ t => t = s, fun _ t => t = s, True⟩ s)
    (hf : ∀ a passed, f a ≠ .other passed) :
    wp (do
      let a ← m
      pure (f a)) (PassesOn packet s) s :=
  wp_seq hm (fun a _ ht => ⟨ht, fun passed h => absurd h (hf a passed)⟩) (fun _ _ => id) id

/-- A chunk leaves the loop before the last match. -/
theorem adaptChunkPacket_spec (packet : PlayClientbound) (s : PlaySession σ) :
    wp (adaptChunkPacket packet : SessionM σ E ChunkAdaptation) (PassesOn packet s) s := by
  cases packet with
  | levelChunkWithLight chunk =>
    refine passesOn_of_never ?_ fun _ _ h => ChunkAdaptation.noConfusion h
    cases semanticChunk chunk <;> exact rfl
  | sectionBlocksUpdate update =>
    refine passesOn_of_never ?_ fun _ _ h => ChunkAdaptation.noConfusion h
    cases adaptSectionBlocksUpdate update with
    | some updates => exact rfl
    | none => exact trivial
  | blockEntityData update =>
    refine passesOn_of_never ?_ fun _ _ h => ChunkAdaptation.noConfusion h
    cases semanticBlockEntity update.data <;> exact rfl
  | forgetLevelChunk x z => exact ⟨rfl, fun _ h => ChunkAdaptation.noConfusion h⟩
  | lightUpdate update => exact ⟨rfl, fun _ h => ChunkAdaptation.noConfusion h⟩
  | blockUpdate update => exact ⟨rfl, fun _ h => ChunkAdaptation.noConfusion h⟩
  | _ =>
    refine ⟨rfl, fun passed h => ?_⟩
    cases h
    exact ⟨rfl, fun chunk h => PlayClientbound.noConfusion h⟩

theorem quiet_dispatchPacket (frame : Bytes) {packet : PlayClientbound}
    (hhealth : ∀ health, packet ≠ .health health) : Quiet (dispatchPacket parts frame packet) := by
  refine (quiet_record rfl).bind fun _ s => ?_
  refine wp_seq (adaptChunkPacket_spec packet s) (fun adapted t h => ?_)
    (fun _ t ht => ht ▸ Extends.refl s) id
  obtain ⟨rfl, hpassed⟩ := h
  cases adapted with
  | other passed =>
    obtain ⟨rfl, hchunk⟩ := hpassed passed rfl
    have hlast : Quiet (handlePacket parts frame passed) := quiet_handlePacket frame hhealth hchunk
    exact quiet_ite _ ((quiet_onRest _).bind fun _ => hlast) hlast t
  | load chunk => exact quiet_onRest _ t
  | unload coordinate => exact quiet_onRest _ t
  | light coordinate light => exact quiet_onRest _ t
  | blocks updates => exact quiet_onRest _ t
  | blockEntity position typeRawId data => exact quiet_onRest _ t

/-! ### The health of a dead player -/

/-- What a health packet leads to. -/
def Answers (s : PlaySession σ) (health : F32) (t : PlaySession σ) : Prop :=
  if (s.recovery.requestIfInitiallyDead health s.worldMode).1 then Requests s health t
  else Extends s t

theorem Answers.extend {u : PlaySession σ} {health : F32} (h : Answers s health t)
    (h' : Extends t u) : Answers s health u := by
  unfold Answers at *
  split
  · rename_i hrequest
    rw [if_pos hrequest] at h
    obtain ⟨hmode, hrecovery, more, hmore, hquiet⟩ := h
    obtain ⟨hmode', hrecovery', more', hmore', hquiet'⟩ := h'
    refine ⟨hmode'.trans hmode, hrecovery'.trans hrecovery, more ++ more', ?_, ?_⟩
    · rw [hmore', hmore, List.append_assoc, List.cons_append, List.cons_append]
    · exact List.forall_mem_append.mpr ⟨hquiet, hquiet'⟩
  · rename_i hrequest
    rw [if_neg hrequest] at h
    exact h.trans h'

theorem dispatchPacket_health (frame : Bytes) (health : F32) (s : PlaySession σ) :
    wp (dispatchPacket parts frame (.health health))
      ⟨fun _ t => Answers s health t, fun _ t => Answers s health t, True⟩ s := by
  have hrun : ∃ u, Answers s health u ∧
      dispatchPacket parts frame (.health health) s = onRest (parts.react frame) u := by
    unfold Answers
    change ∃ u, _ ∧ handlePacket parts frame (.health health)
      { s with history := s.history ++ [.handled (.health health)] } = _
    simp only [handlePacket, get_bind, InitialRespawnRecovery.requestIfInitiallyDead]
    split
    · let asked : PlaySession σ :=
        { s with
          recovery := { s.recovery with requested := true }
          history := s.history ++ [.handled (.health health)] ++ [.wrote .performRespawn] }
      refine ⟨asked, ⟨rfl, rfl, [], ?_, fun _ h => absurd h List.not_mem_nil⟩, rfl⟩
      exact List.append_assoc _ _ _
    · let told : PlaySession σ :=
        { s with history := s.history ++ [.handled (.health health)] }
      exact ⟨told, ⟨rfl, rfl, [_], rfl, List.forall_mem_singleton.mpr rfl⟩, rfl⟩
  obtain ⟨u, hu, hrun⟩ := hrun
  unfold wp
  rw [hrun]
  exact wp_mono (quiet_onRest _ u) (fun _ _ => hu.extend) (fun _ _ => hu.extend) id

/-! ### A turn of the loop -/

/-- A turn asks for a respawn only when the last stage sees the health of a dead player. -/
structure Turn (parts : SessionParts σ E) (s : PlaySession σ) (frame : Bytes)
    (t : PlaySession σ) : Prop where
  health : ∀ health, s.Receives parts frame (.health health) → Answers s health t
  other : (∀ health, ¬ s.Receives parts frame (.health health)) → Extends s t

/-- An earlier stage uses the frame up. -/
def UsesUp (parts : SessionParts σ E) (s : PlaySession σ) (frame : Bytes) (t : PlaySession σ) :
    Prop :=
  (∀ packet, ¬ s.Receives parts frame packet) ∧ Extends s t

theorem Turn.extend {frame : Bytes} {u : PlaySession σ} (h : Turn parts s frame t)
    (h' : Extends t u) : Turn parts s frame u :=
  ⟨fun health hreceives => (h.health health hreceives).extend h', fun hno => (h.other hno).trans h'⟩

theorem UsesUp.turn {frame : Bytes} (h : UsesUp parts s frame t) : Turn parts s frame t :=
  ⟨fun _ hreceives => absurd hreceives (h.1 _), fun _ => h.2⟩

/-- A stage uses the frame up, or leaves it as it is to the next one. -/
def Leaves (parts : SessionParts σ E) (s : PlaySession σ) (frame : Bytes) (left : Prop) :
    Post (SessionEnd E) (PlaySession σ) Bool :=
  ⟨fun used t => if used then UsesUp parts s frame t else t = s ∧ left,
    fun _ t => UsesUp parts s frame t, True⟩

theorem leaves_onRest {frame : Bytes} {left : Prop}
    (hno : ∀ packet, ¬ s.Receives parts frame packet) (f : σ → Except E σ) :
    wp (do
      onRest f
      pure true) (Leaves parts s frame left) s :=
  wp_seq (quiet_onRest f s) (fun _ _ ht => ⟨hno, ht⟩) (fun _ _ ht => ⟨hno, ht⟩) id

theorem entityStage_spec (frame : Bytes) (s : PlaySession σ) :
    wp (entityStage parts frame) (Leaves parts s frame
      (parts.decodeEntityPacket s.rest frame = .ok none ∨ parts.decodeEntityPacket s.rest frame =
        .ok (some (.velocity parts.playerEntityId)))) s := by
  have hreceives := fun packet (h : s.Receives parts frame packet) => h.entity
  unfold entityStage
  simp only [wp_bind, wp_get]
  cases hdecode : parts.decodeEntityPacket s.rest frame with
  | error e =>
    rw [hdecode] at hreceives
    exact ⟨fun packet h => by simpa using hreceives packet h, Extends.refl s⟩
  | ok event =>
    rw [hdecode] at hreceives
    cases event with
    | none => exact ⟨rfl, .inl rfl⟩
    | some event =>
      cases event with
      | spawn id =>
        have hno : ∀ packet, ¬ s.Receives parts frame packet :=
          fun packet h => by simpa using hreceives packet h
        by_cases hid : id = parts.playerEntityId
        · simp only [Except.mapError, wp_ofExcept, if_pos hid]
          exact ⟨hno, Extends.refl s⟩
        · simp only [Except.mapError, wp_ofExcept, if_neg hid]
          exact leaves_onRest hno _
      | velocity id =>
        by_cases hid : id = parts.playerEntityId
        · simp only [Except.mapError, wp_ofExcept, if_pos hid]
          exact ⟨rfl, .inr (hid ▸ rfl)⟩
        · simp only [Except.mapError, wp_ofExcept, if_neg hid]
          exact leaves_onRest (fun packet h => hid (by simpa using hreceives packet h)) _
      | other => exact leaves_onRest (fun packet h => by simpa using hreceives packet h) _

theorem inventoryStage_spec (frame : Bytes) (s : PlaySession σ) :
    wp (inventoryStage parts frame) (Leaves parts s frame
      (parts.decodeInventoryClientbound s.rest frame = .ok false)) s := by
  have hreceives := fun packet (h : s.Receives parts frame packet) => h.inventory
  unfold inventoryStage
  simp only [wp_bind, wp_get]
  cases hdecode : parts.decodeInventoryClientbound s.rest frame with
  | error e =>
    rw [hdecode] at hreceives
    exact ⟨fun packet h => by simpa using hreceives packet h, Extends.refl s⟩
  | ok known =>
    rw [hdecode] at hreceives
    cases known with
    | true => exact leaves_onRest (fun packet h => by simpa using hreceives packet h) _
    | false => exact ⟨rfl, rfl⟩

theorem worldStage_spec {frame : Bytes} {s : PlaySession σ}
    (hreceives : ∀ packet, parts.decodePlayClientbound frame = .ok packet →
      s.Receives parts frame packet) :
    wp (worldStage parts frame)
      ⟨fun _ t => Turn parts s frame t, fun _ t => Turn parts s frame t, True⟩ s := by
  have hpacket := fun packet (h : s.Receives parts frame packet) => h.packet
  unfold worldStage
  simp only [wp_bind]
  cases hdecode : parts.decodePlayClientbound frame with
  | error e =>
    rw [hdecode] at hpacket
    exact UsesUp.turn ⟨fun packet h => by simpa using hpacket packet h, Extends.refl s⟩
  | ok packet =>
    have hsame : ∀ other, s.Receives parts frame other → packet = other := by
      intro other h
      simpa [hdecode] using hpacket other h
    change wp (dispatchPacket parts frame packet) _ s
    by_cases hhealth : ∃ health, packet = .health health
    · obtain ⟨health, rfl⟩ := hhealth
      have hturn : ∀ t, Answers s health t → Turn parts s frame t := by
        refine fun t ht => ⟨fun other h => ?_, fun hno => absurd (hreceives _ hdecode) (hno _)⟩
        cases hsame _ h
        exact ht
      exact wp_mono (dispatchPacket_health frame health s) (fun _ t => hturn t)
        (fun _ t => hturn t) id
    · have hturn : ∀ t, Extends s t → Turn parts s frame t :=
        fun t ht => ⟨fun health h => absurd ⟨health, hsame _ h⟩ hhealth, fun _ => ht⟩
      exact wp_mono (quiet_dispatchPacket frame (fun health h => hhealth ⟨health, h⟩) s)
        (fun _ t => hturn t) (fun _ t => hturn t) id

theorem handleFrame_spec (frame : Bytes) (s : PlaySession σ) :
    wp (handleFrame parts frame)
      ⟨fun _ t => Turn parts s frame t, fun _ t => Turn parts s frame t, True⟩ s := by
  refine wp_seq (entityStage_spec frame s) (fun used t h => ?_) (fun _ _ => UsesUp.turn) id
  cases used with
  | true => exact UsesUp.turn h
  | false =>
    obtain ⟨rfl, hentity⟩ := h
    refine wp_seq (inventoryStage_spec frame t) (fun used u h => ?_) (fun _ _ => UsesUp.turn) id
    cases used with
    | true => exact UsesUp.turn h
    | false =>
      obtain ⟨rfl, hinventory⟩ := h
      exact worldStage_spec fun packet hpacket => ⟨hentity, hinventory, hpacket⟩

/-- An error that ends the loop adds nothing. -/
theorem exists_extends_of_next {input : SessionInput} {P : PlaySession σ → Prop}
    (hinput : wp (handleInput parts input) ⟨fun _ u => P u, fun _ u => P u, True⟩ s)
    (h : s.next parts input = some t) : ∃ u, P u ∧ Extends u t := by
  unfold PlaySession.next at h
  unfold wp at hinput
  split at h
  · cases h
  · cases hrun : handleInput parts input s with
    | ok a u =>
      rw [hrun] at h hinput
      cases h
      exact ⟨t, hinput, Extends.refl t⟩
    | err e u =>
      rw [hrun] at h hinput
      cases h
      exact ⟨u, hinput, Extends.refl u⟩
    | panic =>
      rw [hrun] at h
      cases h

theorem next_frame {bytes : Bytes} (h : s.next parts (.frame bytes) = some t) :
    Turn parts s bytes t := by
  have hinput : wp (handleInput parts (.frame bytes))
    ⟨fun _ t => Turn parts s bytes t, fun _ t => Turn parts s bytes t, True⟩ s :=
    handleFrame_spec bytes s
  obtain ⟨u, hu, hut⟩ := exists_extends_of_next hinput h
  exact hu.extend hut

theorem next_other {input : SessionInput} (hinput : ∀ bytes, input ≠ .frame bytes)
    (h : s.next parts input = some t) : Extends s t := by
  have hquiet : Quiet (handleInput parts input) := by
    cases input with
    | frame bytes => exact absurd rfl (hinput bytes)
    | movementTick => exact quiet_get.bind fun s => quiet_ite _ (quiet_onRest _) (quiet_pure _)
    | sendMessage message => exact quiet_onRest _
    | disconnect => exact quiet_fail _
  obtain ⟨u, hu, hut⟩ := exists_extends_of_next (hquiet s) h
  exact hu.trans hut

/-! ### Whole sessions -/

/-- The recovery is never told of a chunk; it remembers its request. -/
structure InWorldMode (s : PlaySession σ) : Prop where
  worldMode : s.worldMode = true
  receivedChunk : s.recovery.receivedChunk = false
  respawns : RespawnsInitially s.history
  remembered : s.recovery.requested = false → ∀ event ∈ s.history, event.isRespawn = false

theorem request_iff (h : InWorldMode s) (health : F32) :
    (s.recovery.requestIfInitiallyDead health s.worldMode).1 = true ↔
      health.le F32.zero = true ∧ s.recovery.requested = false := by
  unfold InitialRespawnRecovery.requestIfInitiallyDead
  rw [h.worldMode, h.receivedChunk]
  cases health.le F32.zero <;> cases s.recovery.requested <;> simp

theorem RespawnsInitially.append {history more : List SessionEvent} (h : RespawnsInitially history)
    (hquiet : ∀ event ∈ more, event.isRespawn = false) : RespawnsInitially (history ++ more) := by
  have hno : ∀ event ∈ more, ¬ event.isRespawn = true := fun event hevent => by
    simp [hquiet event hevent]
  constructor
  · rw [List.countP_append, List.countP_eq_zero.mpr hno]
    exact h.atMostOnce
  · refine List.pairwise_append.mpr
      ⟨h.notAfterChunk, ?_, fun _ _ event hevent _ => hno event hevent⟩
    exact List.pairwise_of_forall_mem_list fun _ _ event hevent _ => hno event hevent

theorem InWorldMode.extend (h : InWorldMode s) (h' : Extends s t) : InWorldMode t := by
  obtain ⟨hmode, hrecovery, more, hmore, hquiet⟩ := h'
  refine ⟨hmode ▸ h.worldMode, hrecovery ▸ h.receivedChunk, hmore ▸ h.respawns.append hquiet, ?_⟩
  rw [hmore, hrecovery]
  exact fun hrequested => List.forall_mem_append.mpr ⟨h.remembered hrequested, hquiet⟩

theorem InWorldMode.request {health : F32} (h : InWorldMode s) (h' : Requests s health t)
    (hrequested : s.recovery.requested = false)
    (hchunk : ∀ event ∈ s.history, event.isChunk = false) : InWorldMode t := by
  obtain ⟨hmode, hrecovery, more, hmore, hquiet⟩ := h'
  have hno : ∀ event ∈ s.history, ¬ event.isRespawn = true := fun event hevent => by
    simp [h.remembered hrequested event hevent]
  have hfirst : RespawnsInitially
      (s.history ++ [.handled (.health health), .wrote .performRespawn]) := by
    constructor
    · rw [List.countP_append, List.countP_eq_zero.mpr hno]
      exact Nat.le_refl 1
    · refine List.pairwise_append.mpr ⟨h.respawns.notAfterChunk, ?_, ?_⟩
      · exact List.pairwise_pair.mpr fun h => absurd h Bool.false_ne_true
      · intro earlier hearlier _ _ hisChunk
        rw [hchunk earlier hearlier] at hisChunk
        cases hisChunk
  refine ⟨hmode ▸ h.worldMode, hrecovery ▸ h.receivedChunk, ?_, fun hfalse => ?_⟩
  · have happend := hfirst.append hquiet
    rw [List.append_assoc] at happend
    exact hmore ▸ happend
  · rw [hrecovery] at hfalse
    cases hfalse

theorem InWorldMode.next {input : SessionInput} (h : InWorldMode s)
    (hstep : s.next parts input = some t) (hmeets : s.Meets parts input) : InWorldMode t := by
  by_cases hframe : ∃ bytes health, input = .frame bytes ∧ s.Receives parts bytes (.health health)
  · obtain ⟨bytes, health, rfl, hreceives⟩ := hframe
    have hanswers := (next_frame hstep).health health hreceives
    unfold Answers at hanswers
    split at hanswers
    · rename_i hrequest
      obtain ⟨hdead, hrequested⟩ := (request_iff h health).mp hrequest
      refine h.request hanswers hrequested fun event hevent => ?_
      -- a chunk before the first death is what the condition rules out
      by_contra hchunk
      have hany := List.any_eq_true.mpr ⟨event, hevent, Bool.not_eq_false _ ▸ hchunk⟩
      rw [hmeets health hreceives hdead hany] at hrequested
      cases hrequested
    · exact h.extend hanswers
  · refine h.extend ?_
    cases input with
    | frame bytes =>
      exact (next_frame hstep).other fun health hreceives => hframe ⟨bytes, health, rfl, hreceives⟩
    | movementTick => exact next_other (fun _ h => SessionInput.noConfusion h) hstep
    | sendMessage message => exact next_other (fun _ h => SessionInput.noConfusion h) hstep
    | disconnect => exact next_other (fun _ h => SessionInput.noConfusion h) hstep

theorem InWorldMode.meets {input : SessionInput} (h : InWorldMode s)
    (hstep : s.next parts input = some t) (ht : RespawnsInitially t.history) :
    s.Meets parts input := by
  cases input with
  | frame bytes =>
    intro health hreceives hdead hany
    by_contra hrequested
    have hanswers := (next_frame hstep).health health hreceives
    unfold Answers at hanswers
    rw [if_pos ((request_iff h health).mpr ⟨hdead, Bool.not_eq_true _ ▸ hrequested⟩)] at hanswers
    obtain ⟨-, -, more, hmore, -⟩ := hanswers
    obtain ⟨chunk, hmem, hchunk⟩ := List.any_eq_true.mp hany
    have hafter := ht.notAfterChunk
    rw [hmore] at hafter
    have hpair := (List.pairwise_append.mp hafter).2.2 chunk hmem (.wrote .performRespawn)
      (List.mem_cons_of_mem _ List.mem_cons_self)
    exact hpair hchunk rfl
  | movementTick => trivial
  | sendMessage message => trivial
  | disconnect => trivial

/-- A session in World Mode respawns only an initially dead player exactly when the first
health of a dead player does not come after a chunk. -/
theorem respawnsInitially_iff_meets {rest : σ} {inputs : List SessionInput} {t : PlaySession σ}
    (hrun : Run (fun s i t => s.next parts i = some t) (PlaySession.start true rest) inputs t) :
    (∀ before m, before <+: inputs →
        Run (fun s i t => s.next parts i = some t) (PlaySession.start true rest) before m →
        RespawnsInitially m.history) ↔
      Run (fun s i t => s.next parts i = some t ∧ s.Meets parts i) (PlaySession.start true rest)
        inputs t := by
  refine Run.forall_iff_of_keeps (I := InWorldMode) ?_ (fun s h => h.respawns)
    (fun s i t h => h.next) (fun s i t h => h.meets) hrun ?_
  · intro s i t t' h h'
    exact Option.some.inj (h.symm.trans h')
  · refine ⟨rfl, rfl, ⟨Nat.zero_le 1, .nil⟩, fun _ event hevent => absurd hevent List.not_mem_nil⟩

/-! ### Two sessions -/

/-- A packet that is read as a whole. -/
def readWhole {ε α : Type} (m : Mut CodecReader ε α) (payload : Bytes) : Except Unit α :=
  match m (.new payload) with
  | .ok a r => if r.remaining = 0 then .ok a else .error ()
  | _ => .error ()

def decodeSetHealth (payload : Bytes) : Except Unit F32 := do
  let bits ← readWhole (do
    let bits ← readF32
    let _food ← readVarInt
    let _saturation ← readF32
    pure bits) payload
  if (F32.mk bits).isFinite then .ok ⟨bits⟩ else .error ()

/-- A session that knows chunks and health only. -/
def bareSession : SessionParts Unit Unit where
  playerEntityId := 7
  decodeEntityPacket _ _ := .ok none
  applyEntityWireEvent _ := .ok
  decodeInventoryClientbound _ _ := .ok false
  applyInventoryPacket _ := .ok
  decodePlayClientbound frame := do
    let packet ← (splitRawPacket frame).mapError fun _ => ()
    if packet.id = 0x2d then do
      let chunk ← readWhole (Chunk.decodeLevelChunkWithLight ⟨24, 32⟩) packet.payload
      pure (.levelChunkWithLight chunk)
    else if packet.id = 0x68 then do
      let health ← decodeSetHealth packet.payload
      pure (.health health)
    else pure .ignored
  applyChunk _ := .ok
  applyWorldEvent _ := .ok
  react _ := .ok
  acceptIncoming _ rest := .ok (rest, none)
  authenticated _ := false
  serviceMovementTick := .ok
  sendChat _ rest := rest

def chunkFrame : SessionInput := .frame (0x2d :: levelChunkPayload [0])

/-- No health, full hunger, no saturation. -/
def deathFrame : SessionInput := .frame [0x68, 0, 0, 0, 0, 20, 0, 0, 0, 0]

/-- What a session told of, as the recovery should see it. -/
def outline (history : List SessionEvent) : List (Bool × Bool) :=
  history.map fun event => (event.isChunk, event.isRespawn)

/-- A player who is dead on arrival respawns before the chunk comes. -/
theorem respawnsInitially_dead : ∃ t, Run (fun s i t => s.next bareSession i = some t)
    (PlaySession.start true ()) [deathFrame, chunkFrame] t ∧
      outline t.history = [(false, false), (false, true), (true, false)] ∧
      ((∀ before m, before <+: [deathFrame, chunkFrame] →
          Run (fun s i t => s.next bareSession i = some t) (PlaySession.start true ()) before m →
          RespawnsInitially m.history) ↔
        Run (fun s i t => s.next bareSession i = some t ∧ s.Meets bareSession i)
          (PlaySession.start true ()) [deathFrame, chunkFrame] t) := by
  have hruns : (List.foldlM (fun (s : PlaySession Unit) i => s.next bareSession i)
      (PlaySession.start true ()) [deathFrame, chunkFrame]).any (fun t => decide
        (outline t.history = [(false, false), (false, true), (true, false)])) = true := by
    decide +kernel
  obtain ⟨t, hrun, hhistory⟩ := Run.exists_of_foldlM hruns
  exact ⟨t, hrun, hhistory, respawnsInitially_iff_meets hrun⟩

/-- A player who dies after the chunk is respawned as well. -/
theorem respawnsInitially_fails : ∃ t, Run (fun s i t => s.next bareSession i = some t)
    (PlaySession.start true ()) [chunkFrame, deathFrame] t ∧ ¬ RespawnsInitially t.history := by
  have hruns : (List.foldlM (fun (s : PlaySession Unit) i => s.next bareSession i)
      (PlaySession.start true ()) [chunkFrame, deathFrame]).any (fun t => decide
        (outline t.history = [(true, false), (false, false), (false, true)])) = true := by
    decide +kernel
  obtain ⟨t, hrun, hhistory⟩ := Run.exists_of_foldlM hruns
  refine ⟨t, hrun, fun h => ?_⟩
  have hafter : (outline t.history).Pairwise fun earlier later => earlier.1 → ¬ later.2 :=
    List.pairwise_map.mpr h.notAfterChunk
  rw [hhistory] at hafter
  exact absurd hafter (by decide)

end Cubic.Network
