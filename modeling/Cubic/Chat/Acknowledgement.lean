import Cubic.Chat.SecureChat

/-!
# What is acknowledged, over a whole session

A run of calls is logged: the messages accepted, the standalone acknowledgements and the
messages prepared. The log accounts for the pending count as long as no prepared message
is given up after it has taken the count.
-/

namespace Cubic.Chat

set_option autoImplicit false

inductive ChatCall (AuthError : Type) where
  | acceptIncoming (globalIndex : Int32) (signature : Option MessageSignature) (display : Bool)
  | standaloneAcknowledgement
  | prepareOutgoing (certificate : ChatCertificate AuthError) (now : SystemTime)
      (message : String) (timestampMillis salt : Int64)

/-- What a successful call tells the server, or takes note of. -/
inductive ChatEvent where
  | accepted (index : Int32) (signature : Option MessageSignature)
  | acknowledged (offset : Int32)
  | prepared (index offset : Int32)

variable {AuthError : Type}

def ChatCall.run : ChatCall AuthError →
    Mut SecureChatSession (SecureChatError AuthError) (List ChatEvent)
  | acceptIncoming globalIndex signature display => do
    SecureChatSession.acceptIncoming globalIndex signature display
    pure [.accepted globalIndex signature]
  | standaloneAcknowledgement => do
    let offset ← SecureChatSession.standaloneAcknowledgement
    pure (offset.toList.map .acknowledged)
  | prepareOutgoing certificate now message timestampMillis salt => do
    let s ← Mut.get
    let prepared ← SecureChatSession.prepareOutgoing certificate now message timestampMillis salt
    pure [.prepared s.sequence.nextOutgoingIndex prepared.lastSeenUpdate.offset]

abbrev ChatLog := Logged SecureChatSession ChatEvent

def ChatStep (l : ChatLog) (call : ChatCall AuthError) (l' : ChatLog) : Prop :=
  l.next call.run = some l'

/-! ### The property -/

def ChatEvent.offset : ChatEvent → Int
  | accepted _ _ => 0
  | acknowledged offset => offset.toInt
  | prepared _ offset => offset.toInt

def ChatEvent.acceptedIndex? : ChatEvent → Option Int32
  | accepted index _ => some index
  | _ => none

def ChatEvent.acceptedSignature? : ChatEvent → Option MessageSignature
  | accepted _ signature => signature
  | _ => none

def ChatEvent.preparedIndex? : ChatEvent → Option Int32
  | prepared index _ => some index
  | _ => none

/-- How many entries differ from the one before them; `last` stands before the first. -/
def changes {α : Type} [DecidableEq α] : Option α → List α → Nat
  | _, [] => 0
  | last, a :: rest => (if last = some a then 0 else 1) + changes (some a) rest

/-- The indexes are 0, 1, 2 and so on. -/
def Consecutive (indexes : List Int32) : Prop :=
  indexes.map Int32.toInt = (List.range indexes.length).map Int.ofNat

instance decidableConsecutive (indexes : List Int32) : Decidable (Consecutive indexes) :=
  inferInstanceAs (Decidable (_ = _))

structure Accounted (l : ChatLog) : Prop where
  offsets : (l.log.map ChatEvent.offset).sum + l.state.sequence.lastSeen.offset.toInt =
    changes none (l.log.filterMap ChatEvent.acceptedSignature?)
  incoming : Consecutive (l.log.filterMap ChatEvent.acceptedIndex?)
  outgoing : Consecutive (l.log.filterMap ChatEvent.preparedIndex?)

/-! ### The condition -/

/-- The message has at most `i32::MAX` bytes, the certificate signs it, and an outgoing
index is left. -/
def CanSign (s : SecureChatSession) (certificate : ChatCertificate AuthError) (message : String)
    (timestampMillis salt : Int64) (lastSeen : List MessageSignature) : Prop :=
  ∃ input signature next,
    (buildSigningInput (s.signingContext message timestampMillis salt lastSeen) :
      Except (SecureChatError AuthError) Bytes) = .ok input ∧
    certificate.signChat input = .ok signature ∧
    checkedAddI32 s.sequence.nextOutgoingIndex 1 = some next

/-- A call that does not lose a pending count: a message is refused before the count is
taken, or there is nothing to lose, or it can be signed. -/
def Lossless (s : SecureChatSession) : ChatCall AuthError → Prop
  | .prepareOutgoing certificate now message timestampMillis salt =>
    certificate.isExpired now ∨ s.sequence.lastSeen.entries.length ≠ 20 ∨
      s.sequence.lastSeen.offset = 0 ∨
      CanSign s certificate message timestampMillis salt s.sequence.lastSeen.seen.2
  | _ => True

/-! ### Logs that grow by one event -/

theorem changes_snoc {α : Type} [DecidableEq α] (a : α) (xs : List α) : ∀ last : Option α,
    changes last (xs ++ [a]) =
      changes last xs + if xs.getLast?.or last = some a then 0 else 1 := by
  induction xs with
  | nil =>
    intro last
    exact Nat.add_comm _ 0
  | cons x xs ih =>
    intro last
    rw [List.cons_append, changes, changes, ih, Nat.add_assoc]
    cases xs with
    | nil => rfl
    | cons y ys => simp [List.getLast?_cons]

theorem consecutive_snoc {indexes : List Int32} {index : Int32} (h : Consecutive indexes)
    (hindex : index.toInt = indexes.length) : Consecutive (indexes ++ [index]) := by
  unfold Consecutive at h ⊢
  rw [List.map_append, h, List.length_append, List.length_singleton, List.range_succ,
    List.map_append, List.map_singleton, List.map_singleton, hindex]
  rfl

/-! ### What a call does -/

theorem and_mask_zero {a b mask : UInt8} (ha : a &&& mask = 0) (hb : b &&& mask = 0) :
    (a ||| b) &&& mask = 0 := by
  rw [← UInt8.toBitVec_inj] at *
  simp only [UInt8.toBitVec_and, UInt8.toBitVec_or] at *
  rw [BitVec.and_comm, BitVec.and_or_distrib_left, BitVec.and_comm, ha, BitVec.and_comm, hb]
  rfl

/-- Twenty entries use the low four bits of the third byte only. -/
theorem collectSeen_mask (entries : List (Option MessageSignature)) :
    ∀ {index : Nat} {acknowledged : Vector UInt8 3} {signatures : List MessageSignature},
      index + entries.length ≤ 20 → acknowledged.get 2 &&& 0xf0 = 0 →
      (collectSeen index entries acknowledged signatures).1.get 2 &&& 0xf0 = 0 := by
  induction entries with
  | nil => exact fun _ h => h
  | cons entry rest ih =>
    intro index acknowledged signatures hlength h
    rw [List.length_cons] at hlength
    cases entry with
    | none => exact ih (by omega) h
    | some signature =>
      refine ih (by omega) ?_
      change (Vector.mapIdx _ acknowledged)[2] &&& 0xf0 = 0
      rw [Vector.getElem_mapIdx]
      split
      · rename_i hindex
        refine and_mask_zero h ?_
        have hbit : index % 8 < 4 := by omega
        generalize index % 8 = bit at hbit
        decide +revert
      · exact h

theorem chatLastSeenUpdate_new {offset : Int32} {acknowledged : Vector UInt8 3} (checksum : UInt8)
    (hoffset : 0 ≤ offset.toInt) (hmask : acknowledged.get 2 &&& 0xf0 = 0) :
    ChatLastSeenUpdate.new offset acknowledged checksum = .ok ⟨offset, acknowledged, checksum⟩ := by
  have hneg : ¬ offset < 0 := by
    rw [Int32.lt_iff_toInt_lt]
    exact Int.not_lt.mpr hoffset
  rw [ChatLastSeenUpdate.new, if_neg hneg]
  exact if_neg (not_not.mpr hmask)

/-- A full window empties the pending count into the update. -/
theorem generateUpdate_full {tracker : LastSeenTracker} (hlength : tracker.entries.length = 20)
    (hoffset : 0 ≤ tracker.offset.toInt) :
    (LastSeenTracker.generateUpdate : Mut _ (SecureChatError AuthError) _) tracker =
      .ok (⟨tracker.offset, tracker.seen.1, acknowledgementChecksum tracker.seen.2⟩, tracker.seen.2)
        { tracker with offset := 0 } := by
  have hmask : tracker.seen.1.get 2 &&& 0xf0 = 0 :=
    collectSeen_mask tracker.entries (by omega) rfl
  unfold LastSeenTracker.generateUpdate
  rw [Mut.get_bind, if_neg (not_not.mpr hlength)]
  refine (Mut.bind_of_ok rfl).trans ?_
  rw [chatLastSeenUpdate_new _ hoffset hmask]
  rfl

theorem generateUpdate_short {tracker : LastSeenTracker} (hlength : tracker.entries.length ≠ 20) :
    (LastSeenTracker.generateUpdate : Mut _ (SecureChatError AuthError) _) tracker =
      .err .incompatibleAcknowledgementWindow tracker := by
  unfold LastSeenTracker.generateUpdate
  rw [Mut.get_bind, if_pos hlength]
  rfl

theorem add_run {tracker : LastSeenTracker} (hroom : tracker.offset.toInt < i32Max)
    (hoffset : 0 ≤ tracker.offset.toInt) (signature : MessageSignature) (displayed : Bool) :
    ∃ tracker', (LastSeenTracker.add signature displayed : Mut _ (SecureChatError AuthError) _)
        tracker = .ok () tracker' ∧ tracker'.lastAdded = some signature ∧
      tracker'.offset.toInt = tracker.offset.toInt + changes tracker.lastAdded [signature] := by
  unfold LastSeenTracker.add
  rw [Mut.get_bind, changes, changes]
  by_cases hlast : tracker.lastAdded = some signature
  · rw [if_pos hlast, if_pos hlast]
    exact ⟨tracker, rfl, hlast, (Int.add_zero _).symm⟩
  · rw [if_neg hlast, if_neg hlast, Mut.set_bind]
    have hnext : ∃ next, checkedAddI32 tracker.offset 1 = some next := by
      refine ⟨tracker.offset + 1, if_pos ⟨?_, ?_⟩⟩
      · change -2 ^ 31 ≤ tracker.offset.toInt + 1
        omega
      · change tracker.offset.toInt + 1 < 2 ^ 31
        rw [i32Max] at hroom
        omega
    obtain ⟨next, hnext⟩ := hnext
    refine ⟨_, Mut.bind_of_ok (Mut.okOr_eq_ok.mpr ⟨hnext, rfl⟩), rfl, ?_⟩
    exact checkedAddI32_eq_some.mp hnext

/-- What a call does to the session, and what it puts out. -/
inductive ChatEffect (s : SecureChatSession) :
    ChatCall AuthError → List ChatEvent → SecureChatSession → Prop
  | none (call : ChatCall AuthError) (h : Lossless s call) : ChatEffect s call [] s
  | accepted (index : Int32) (signature : Option MessageSignature) (display : Bool)
    (s' : SecureChatSession) (hindex : s.sequence.nextIncomingIndex = index)
    (hnext : s'.sequence.nextIncomingIndex.toInt = s.sequence.nextIncomingIndex.toInt + 1)
    (hout : s'.sequence.nextOutgoingIndex = s.sequence.nextOutgoingIndex)
    (hlast : s'.sequence.lastSeen.lastAdded = signature.or s.sequence.lastSeen.lastAdded)
    (hoffset : s'.sequence.lastSeen.offset.toInt = s.sequence.lastSeen.offset.toInt +
      changes s.sequence.lastSeen.lastAdded signature.toList) :
    ChatEffect s (.acceptIncoming index signature display) [.accepted index signature] s'
  | acknowledged : ChatEffect s .standaloneAcknowledgement
      [.acknowledged s.sequence.lastSeen.offset]
      (s.setLastSeen { s.sequence.lastSeen with offset := 0 })
  | prepared (certificate : ChatCertificate AuthError) (now : SystemTime) (message : String)
    (timestampMillis salt : Int64) (next : Int32)
    (hsign : CanSign s certificate message timestampMillis salt s.sequence.lastSeen.seen.2)
    (hnext : next.toInt = s.sequence.nextOutgoingIndex.toInt + 1) :
    ChatEffect s (.prepareOutgoing certificate now message timestampMillis salt)
      [.prepared s.sequence.nextOutgoingIndex s.sequence.lastSeen.offset]
      { s with sequence :=
        { s.sequence with
          nextOutgoingIndex := next
          lastSeen := { s.sequence.lastSeen with offset := 0 } } }
  | lost (call : ChatCall AuthError) (h : Lossless s call ↔ s.sequence.lastSeen.offset = 0) :
    ChatEffect s call [] (s.setLastSeen { s.sequence.lastSeen with offset := 0 })

theorem onLastSeen_ok {α : Type} {m : Mut LastSeenTracker (SecureChatError AuthError) α}
    {s : SecureChatSession} {a : α} {tracker : LastSeenTracker}
    (h : m s.sequence.lastSeen = .ok a tracker) :
    SecureChatSession.onLastSeen m s = .ok a (s.setLastSeen tracker) := by
  unfold SecureChatSession.onLastSeen Mut.zoom
  rw [h]

theorem onLastSeen_err {α : Type} {m : Mut LastSeenTracker (SecureChatError AuthError) α}
    {s : SecureChatSession} {e : SecureChatError AuthError} {tracker : LastSeenTracker}
    (h : m s.sequence.lastSeen = .err e tracker) :
    SecureChatSession.onLastSeen m s = .err e (s.setLastSeen tracker) := by
  unfold SecureChatSession.onLastSeen Mut.zoom
  rw [h]

section Effect
variable {s s' : SecureChatSession}

/-- How a call ends: with an effect, and what it puts out when it succeeds. -/
def Effects (s : SecureChatSession) (call : ChatCall AuthError) : Prop :=
  (∃ out s', call.run s = .ok out s' ∧ ChatEffect s call out s') ∨
    ∃ e s', call.run s = .err e s' ∧ ChatEffect s call [] s'

theorem acceptIncoming_effects (hnonneg : 0 ≤ s.sequence.lastSeen.offset.toInt)
    (hle : s.sequence.lastSeen.offset.toInt ≤ s.sequence.nextIncomingIndex.toInt)
    (index : Int32) (signature : Option MessageSignature) (display : Bool) :
    Effects s (.acceptIncoming index signature display : ChatCall AuthError) := by
  by_cases hindex : index = s.sequence.nextIncomingIndex
  swap
  · refine .inr ⟨.incomingSequence s.sequence.nextIncomingIndex index, s, ?_, .none _ trivial⟩
    refine Mut.bind_of_err (Mut.bind_of_err ?_)
    unfold Mut.zoom SecureChatSession.advanceIncomingIndex
    rw [Mut.get_bind, if_pos hindex]
    rfl
  subst hindex
  cases hnext : checkedAddI32 s.sequence.nextIncomingIndex 1 with
  | none =>
    refine .inr ⟨.numericRange, s, ?_, .none _ trivial⟩
    refine Mut.bind_of_err (Mut.bind_of_err ?_)
    unfold Mut.zoom SecureChatSession.advanceIncomingIndex
    rw [Mut.get_bind, if_neg (not_not.mpr rfl), hnext]
    rfl
  | some next =>
    have hadvance : Mut.zoom (fun s => s.sequence.nextIncomingIndex)
        (fun next s => { s with sequence := { s.sequence with nextIncomingIndex := next } })
        (SecureChatSession.advanceIncomingIndex s.sequence.nextIncomingIndex :
          Mut Int32 (SecureChatError AuthError) Unit) s =
        .ok () { s with sequence := { s.sequence with nextIncomingIndex := next } } := by
      unfold Mut.zoom SecureChatSession.advanceIncomingIndex
      rw [Mut.get_bind, if_neg (not_not.mpr rfl), hnext]
      rfl
    have hnext' := checkedAddI32_eq_some.mp hnext
    have hroom : s.sequence.lastSeen.offset.toInt < i32Max := by
      have hlt := next.toInt_lt
      change _ = _ + 1 at hnext'
      rw [i32Max]
      omega
    cases signature with
    | none =>
      exact .inl ⟨_, _, Mut.bind_of_ok (Mut.bind_of_ok hadvance),
        .accepted _ _ _ _ rfl hnext' rfl rfl (Int.add_zero _).symm⟩
    | some signature =>
      obtain ⟨tracker, hadd, hlast, hoffset⟩ :=
        @add_run AuthError _ hroom hnonneg signature display
      refine .inl ⟨_, _, Mut.bind_of_ok ((Mut.bind_of_ok hadvance).trans
        (Mut.zoom_eq_ok.mpr ⟨tracker, hadd, rfl⟩)), ?_⟩
      exact .accepted _ _ _ _ rfl hnext' rfl hlast hoffset

theorem standaloneAcknowledgement_effects :
    Effects s (.standaloneAcknowledgement : ChatCall AuthError) := by
  by_cases h : s.rules.standaloneAcknowledgementThreshold < s.sequence.lastSeen.offset
  · have hrun : (SecureChatSession.standaloneAcknowledgement :
        Mut _ (SecureChatError AuthError) _) s =
        .ok (some s.sequence.lastSeen.offset)
          (s.setLastSeen { s.sequence.lastSeen with offset := 0 }) := by
      unfold SecureChatSession.standaloneAcknowledgement
      rw [Mut.get_bind, if_pos h]
      rfl
    exact .inl ⟨_, _, Mut.bind_of_ok hrun, .acknowledged⟩
  · have hrun : (SecureChatSession.standaloneAcknowledgement :
        Mut _ (SecureChatError AuthError) _) s = .ok none s := by
      unfold SecureChatSession.standaloneAcknowledgement
      rw [Mut.get_bind, if_neg h]
      rfl
    exact .inl ⟨_, _, Mut.bind_of_ok hrun, .none .standaloneAcknowledgement trivial⟩

variable (certificate : ChatCertificate AuthError) (now : SystemTime) (message : String)
  (timestampMillis salt : Int64)

variable {update : ChatLastSeenUpdate} {lastSeen : List MessageSignature}

theorem signOutgoing_ok (h : CanSign s certificate message timestampMillis salt lastSeen) :
    ∃ signature next, checkedAddI32 s.sequence.nextOutgoingIndex 1 = some next ∧
      SecureChatSession.signOutgoing certificate message timestampMillis salt update lastSeen s =
        .ok ⟨signature, update⟩
          { s with sequence := { s.sequence with nextOutgoingIndex := next } } := by
  obtain ⟨input, signature, next, hinput, hsign, hnext⟩ := h
  refine ⟨signature, next, hnext, ?_⟩
  unfold SecureChatSession.signOutgoing
  rw [Mut.get_bind, Mut.bind_of_ok (Mut.ofExcept_eq_ok.mpr ⟨hinput, rfl⟩), hsign]
  refine (Mut.bind_of_ok rfl).trans ?_
  rw [Mut.bind_of_ok (Mut.okOr_eq_ok.mpr ⟨hnext, rfl⟩)]
  rfl

theorem signOutgoing_err (h : ¬ CanSign s certificate message timestampMillis salt lastSeen) :
    ∃ e, SecureChatSession.signOutgoing certificate message timestampMillis salt update lastSeen s =
      .err e s := by
  unfold SecureChatSession.signOutgoing
  rw [Mut.get_bind]
  cases hinput : (buildSigningInput (s.signingContext message timestampMillis salt lastSeen) :
      Except (SecureChatError AuthError) Bytes) with
  | error e =>
    exact ⟨e, Mut.bind_of_err rfl⟩
  | ok input =>
    cases hsign : certificate.signChat input with
    | error e =>
      refine ⟨.authentication e, (Mut.bind_of_ok rfl).trans (Mut.bind_of_err ?_)⟩
      rw [hsign]
      rfl
    | ok signature =>
      refine ⟨.numericRange, (Mut.bind_of_ok rfl).trans ?_⟩
      rw [hsign]
      refine (Mut.bind_of_ok rfl).trans (Mut.bind_of_err ?_)
      cases hnext : checkedAddI32 s.sequence.nextOutgoingIndex 1 with
      | none => rfl
      | some next => exact absurd ⟨input, signature, next, hinput, hsign, hnext⟩ h

theorem run_prepareOutgoing_ok {prepared : PreparedSignedMessage}
    (h : SecureChatSession.prepareOutgoing certificate now message timestampMillis salt s =
      .ok prepared s') :
    (ChatCall.prepareOutgoing certificate now message timestampMillis salt).run s =
      .ok [.prepared s.sequence.nextOutgoingIndex prepared.lastSeenUpdate.offset] s' :=
  (Mut.get_bind _ s).trans (Mut.bind_of_ok h)

theorem run_prepareOutgoing_err {e : SecureChatError AuthError}
    (h : SecureChatSession.prepareOutgoing certificate now message timestampMillis salt s =
      .err e s') :
    (ChatCall.prepareOutgoing certificate now message timestampMillis salt).run s = .err e s' :=
  (Mut.get_bind _ s).trans (Mut.bind_of_err h)

/-- A message that is not refused takes the pending count before it is signed. -/
theorem prepareOutgoing_full (hexpired : ¬ certificate.isExpired now)
    (hlength : s.sequence.lastSeen.entries.length = 20)
    (hnonneg : 0 ≤ s.sequence.lastSeen.offset.toInt) :
    SecureChatSession.prepareOutgoing certificate now message timestampMillis salt s =
      SecureChatSession.signOutgoing certificate message timestampMillis salt
        ⟨s.sequence.lastSeen.offset, s.sequence.lastSeen.seen.1,
          acknowledgementChecksum s.sequence.lastSeen.seen.2⟩ s.sequence.lastSeen.seen.2
        (s.setLastSeen { s.sequence.lastSeen with offset := 0 }) := by
  unfold SecureChatSession.prepareOutgoing
  rw [if_neg hexpired, Mut.bind_of_ok (onLastSeen_ok (generateUpdate_full hlength hnonneg))]

theorem prepareOutgoing_effects (hnonneg : 0 ≤ s.sequence.lastSeen.offset.toInt) :
    Effects s (.prepareOutgoing certificate now message timestampMillis salt) := by
  by_cases hexpired : certificate.isExpired now
  · refine .inr ⟨.expiredCertificate, s, run_prepareOutgoing_err _ _ _ _ _ ?_, .none _ (.inl hexpired)⟩
    unfold SecureChatSession.prepareOutgoing
    rw [if_pos hexpired]
    rfl
  by_cases hlength : s.sequence.lastSeen.entries.length = 20
  swap
  · refine .inr ⟨.incompatibleAcknowledgementWindow, s, run_prepareOutgoing_err _ _ _ _ _ ?_,
      .none _ (.inr (.inl hlength))⟩
    unfold SecureChatSession.prepareOutgoing
    rw [if_neg hexpired]
    exact Mut.bind_of_err (onLastSeen_err (generateUpdate_short hlength))
  have hfull := prepareOutgoing_full certificate now message timestampMillis salt hexpired hlength
    hnonneg
  by_cases hsign : CanSign s certificate message timestampMillis salt s.sequence.lastSeen.seen.2
  · obtain ⟨signature, next, hnext, hrun⟩ := signOutgoing_ok certificate message timestampMillis salt
      (s := s.setLastSeen { s.sequence.lastSeen with offset := 0 }) hsign
    exact .inl ⟨_, _, run_prepareOutgoing_ok _ _ _ _ _ (hfull.trans hrun),
      .prepared _ _ _ _ _ next hsign (checkedAddI32_eq_some.mp hnext)⟩
  · obtain ⟨e, hrun⟩ := signOutgoing_err certificate message timestampMillis salt
      (s := s.setLastSeen { s.sequence.lastSeen with offset := 0 }) hsign
    refine .inr ⟨e, _, run_prepareOutgoing_err _ _ _ _ _ (hfull.trans hrun), .lost _ ?_⟩
    simp [Lossless, hexpired, hlength, hsign]

end Effect

/-! ### Runs -/

/-- What holds of a log whether or not a count was lost. -/
structure Booked (l : ChatLog) : Prop where
  incoming : Consecutive (l.log.filterMap ChatEvent.acceptedIndex?)
  outgoing : Consecutive (l.log.filterMap ChatEvent.preparedIndex?)
  nextIncoming : l.state.sequence.nextIncomingIndex.toInt =
    (l.log.filterMap ChatEvent.acceptedIndex?).length
  nextOutgoing : l.state.sequence.nextOutgoingIndex.toInt =
    (l.log.filterMap ChatEvent.preparedIndex?).length
  lastAdded : l.state.sequence.lastSeen.lastAdded =
    (l.log.filterMap ChatEvent.acceptedSignature?).getLast?
  nonneg : 0 ≤ l.state.sequence.lastSeen.offset.toInt
  le : l.state.sequence.lastSeen.offset.toInt ≤ l.state.sequence.nextIncomingIndex.toInt

theorem Booked.effect {l l' : ChatLog} {call : ChatCall AuthError} (h : Booked l)
    (hstep : ChatStep l call l') :
    ∃ out, l'.log = l.log ++ out ∧ ChatEffect l.state call out l'.state := by
  have heffects : Effects l.state call := by
    cases call with
    | acceptIncoming index signature display =>
      exact acceptIncoming_effects h.nonneg h.le index signature display
    | standaloneAcknowledgement => exact standaloneAcknowledgement_effects
    | prepareOutgoing certificate now message timestampMillis salt =>
      exact prepareOutgoing_effects certificate now message timestampMillis salt h.nonneg
  rcases Logged.next_cases hstep with ⟨out, hok, hlog⟩ | ⟨⟨e, herr⟩, hlog⟩
  · rcases heffects with ⟨out', s', hrun, heffect⟩ | ⟨e', s', hrun, _⟩
    · cases hok.symm.trans hrun
      exact ⟨out, hlog, heffect⟩
    · cases hok.symm.trans hrun
  · rcases heffects with ⟨out', s', hrun, _⟩ | ⟨e', s', hrun, heffect⟩
    · cases herr.symm.trans hrun
    · cases herr.symm.trans hrun
      exact ⟨[], hlog.trans (List.append_nil _).symm, heffect⟩

theorem changes_toList_le {α : Type} [DecidableEq α] (last a : Option α) :
    changes last a.toList ≤ 1 := by
  cases a with
  | none => exact Nat.zero_le 1
  | some a =>
    change (if last = some a then 0 else 1) + 0 ≤ 1
    split <;> omega

theorem Booked.step {l l' : ChatLog} {call : ChatCall AuthError} (h : Booked l)
    (hstep : ChatStep l call l') : Booked l' := by
  obtain ⟨out, hlog, heffect⟩ := h.effect hstep
  obtain ⟨s', log'⟩ := l'
  obtain rfl : log' = l.log ++ out := hlog
  cases heffect with
  | none _ _ =>
    rw [List.append_nil]
    exact ⟨h.incoming, h.outgoing, h.nextIncoming, h.nextOutgoing, h.lastAdded, h.nonneg, h.le⟩
  | accepted index signature display _ hindex hnext hout hlast hoffset =>
    have hone := changes_toList_le l.state.sequence.lastSeen.lastAdded signature
    have hnonneg := h.nonneg
    have hle := h.le
    subst hindex
    dsimp only at hnext hoffset
    constructor <;> simp only [List.filterMap_append, List.filterMap_cons, List.filterMap_nil,
      ChatEvent.acceptedIndex?, ChatEvent.preparedIndex?, ChatEvent.acceptedSignature?,
      List.append_nil]
    · exact consecutive_snoc h.incoming h.nextIncoming
    · exact h.outgoing
    · rw [hnext, h.nextIncoming, List.length_append]
      rfl
    · rw [hout, h.nextOutgoing]
    · rw [hlast, h.lastAdded]
      cases signature <;> simp
    · omega
    · omega
  | acknowledged =>
    have hincoming : 0 ≤ l.state.sequence.nextIncomingIndex.toInt := h.nonneg.trans h.le
    constructor <;> simp only [List.filterMap_append, List.filterMap_cons, List.filterMap_nil,
      ChatEvent.acceptedIndex?, ChatEvent.preparedIndex?, ChatEvent.acceptedSignature?,
      List.append_nil]
    · exact h.incoming
    · exact h.outgoing
    · exact h.nextIncoming
    · exact h.nextOutgoing
    · exact h.lastAdded
    · exact Int.le_refl 0
    · exact hincoming
  | prepared certificate now message timestampMillis salt next _ hnext =>
    have hincoming : 0 ≤ l.state.sequence.nextIncomingIndex.toInt := h.nonneg.trans h.le
    constructor <;> simp only [List.filterMap_append, List.filterMap_cons, List.filterMap_nil,
      ChatEvent.acceptedIndex?, ChatEvent.preparedIndex?, ChatEvent.acceptedSignature?,
      List.append_nil]
    · exact h.incoming
    · exact consecutive_snoc h.outgoing h.nextOutgoing
    · exact h.nextIncoming
    · rw [hnext, h.nextOutgoing, List.length_append]
      rfl
    · exact h.lastAdded
    · exact Int.le_refl 0
    · exact hincoming
  | lost _ _ =>
    have hincoming : 0 ≤ l.state.sequence.nextIncomingIndex.toInt := h.nonneg.trans h.le
    rw [List.append_nil]
    exact ⟨h.incoming, h.outgoing, h.nextIncoming, h.nextOutgoing, h.lastAdded, Int.le_refl 0,
      hincoming⟩

/-- From an accounted log, a step keeps the account exactly when it loses nothing. -/
theorem accounted_step_iff {l l' : ChatLog} {call : ChatCall AuthError} (hbooked : Booked l)
    (h : Accounted l) (hstep : ChatStep l call l') :
    Accounted l' ↔ Lossless l.state call := by
  have hbooked' := hbooked.step hstep
  have haccounted : Accounted l' ↔ (l'.log.map ChatEvent.offset).sum +
      l'.state.sequence.lastSeen.offset.toInt =
        changes none (l'.log.filterMap ChatEvent.acceptedSignature?) :=
    ⟨Accounted.offsets, fun h => ⟨h, hbooked'.incoming, hbooked'.outgoing⟩⟩
  have hoffsets := h.offsets
  obtain ⟨out, hlog, heffect⟩ := hbooked.effect hstep
  rw [haccounted, hlog, List.map_append, List.sum_append, List.filterMap_append]
  obtain ⟨s', log'⟩ := l'
  dsimp only at heffect ⊢
  cases heffect with
  | none _ hlossless =>
    refine iff_of_true ?_ hlossless
    simpa using hoffsets
  | accepted index signature display _ _ _ _ _ hoffset =>
    refine iff_of_true ?_ trivial
    rw [hoffset, hbooked.lastAdded]
    cases signature with
    | none => simpa [ChatEvent.offset, ChatEvent.acceptedSignature?, List.filterMap_cons, changes]
        using hoffsets
    | some signature =>
      have hgrown := changes_snoc signature
        (l.log.filterMap ChatEvent.acceptedSignature?) none
      rw [Option.or_none] at hgrown
      simp only [ChatEvent.acceptedSignature?, List.filterMap_cons, List.filterMap_nil,
        Option.toList_some, ChatEvent.offset, List.map_cons, List.map_nil, List.sum_cons,
        List.sum_nil, changes]
      rw [hgrown]
      omega
  | acknowledged =>
    refine iff_of_true ?_ trivial
    simpa [ChatEvent.offset, ChatEvent.acceptedSignature?, List.filterMap_cons,
      SecureChatSession.setLastSeen] using hoffsets
  | prepared certificate now message timestampMillis salt next hsign _ =>
    refine iff_of_true ?_ (.inr (.inr (.inr hsign)))
    simpa [ChatEvent.offset, ChatEvent.acceptedSignature?, List.filterMap_cons] using hoffsets
  | lost _ hlost =>
    rw [hlost, ← Int32.toInt_inj]
    simp [SecureChatSession.setLastSeen]
    omega

/-- A session that has just been reset, with nothing logged. -/
def ChatLog.fresh (s : SecureChatSession) (session : ProtocolUuid) : ChatLog := ⟨s.reset session, []⟩

theorem booked_fresh (s : SecureChatSession) (session : ProtocolUuid) :
    Booked (ChatLog.fresh s session) :=
  ⟨rfl, rfl, rfl, rfl, rfl, Int.le_refl 0, Int.le_refl 0⟩

theorem accounted_fresh (s : SecureChatSession) (session : ProtocolUuid) :
    Accounted (ChatLog.fresh s session) :=
  ⟨rfl, rfl, rfl⟩

/-- A log is accounted for all along a run since the last reset exactly when no call on it
loses a pending count. -/
theorem chat_accounted_iff (s : SecureChatSession) (session : ProtocolUuid)
    (calls : List (ChatCall AuthError)) (l : ChatLog)
    (hrun : Run ChatStep (ChatLog.fresh s session) calls l) :
    (∀ before m, before <+: calls → Run ChatStep (ChatLog.fresh s session) before m →
      Accounted m) ↔
      Run (fun l call l' => ChatStep l call l' ∧ Lossless l.state call)
        (ChatLog.fresh s session) calls l :=
  Run.forall_iff (fun _ _ _ _ h h' => Option.some.inj (h.symm.trans h')) (fun _ _ _ => Booked.step)
    (fun _ _ _ => accounted_step_iff) hrun (booked_fresh s session) (accounted_fresh s session)

/-- A window of twenty, and one signed message accepted. -/
def sampleSession : SecureChatSession :=
  SecureChatSession.new ⟨1, 20, 64⟩ (Vector.replicate 16 1) (Vector.replicate 16 2)

def refusingCertificate : ChatCertificate String := ⟨fun _ => false, fun _ => .error "signature"⟩

def signingCertificate : ChatCertificate String :=
  ⟨fun _ => false, fun _ => .ok (Vector.replicate 256 7)⟩

def sampleCalls (certificate : ChatCertificate String) : List (ChatCall String) :=
  [.acceptIncoming 0 (some (Vector.replicate 256 90)) true,
    .prepareOutgoing certificate 0 "Hi" 4999 5]

instance decidableAccounted (l : ChatLog) : Decidable (Accounted l) :=
  decidable_of_iff (_ ∧ _ ∧ _)
    ⟨fun h => ⟨h.1, h.2.1, h.2.2⟩, fun h => ⟨h.offsets, h.incoming, h.outgoing⟩⟩

/-- The certificate refuses to sign: the count of the accepted message is gone. -/
theorem chat_accounted_fails :
    ∃ l, Run ChatStep (ChatLog.fresh sampleSession (Vector.replicate 16 2))
      (sampleCalls refusingCertificate) l ∧ ¬ Accounted l :=
  Run.exists_of_foldlM (by decide +kernel)

theorem chat_accounted_iff_signed :
    ∃ l, Run ChatStep (ChatLog.fresh sampleSession (Vector.replicate 16 2))
        (sampleCalls signingCertificate) l ∧
      ∀ before m, before <+: sampleCalls signingCertificate →
        Run ChatStep (ChatLog.fresh sampleSession (Vector.replicate 16 2)) before m →
          Accounted m := by
  have hmet : ∃ l, Run (fun l call l' => ChatStep l call l' ∧ Lossless l.state call)
      (ChatLog.fresh sampleSession (Vector.replicate 16 2)) (sampleCalls signingCertificate) l :=
    ⟨_, .cons ⟨rfl, trivial⟩ (.cons ⟨rfl, .inr (.inr (.inr ⟨_, _, _, rfl, rfl, rfl⟩))⟩ (.nil _))⟩
  obtain ⟨l, hmet⟩ := hmet
  have hrun := hmet.mono fun _ _ _ h => h.1
  exact ⟨l, hrun, (chat_accounted_iff _ _ _ l hrun).mpr hmet⟩

end Cubic.Chat
