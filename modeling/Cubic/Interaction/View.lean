import Cubic.Interaction.Tracker
import Cubic.Lib.Overlay
import Cubic.Lib.Run

/-!
# A client and its server over a run of interactions

The tracker numbers what the client does from 0 on, and from 0 again after `i32::MAX` and
after a reset. The ticket of an interaction counts the sequences issued before it since
the last reset; it tells apart what the numbers do not.
-/

namespace Cubic.Interaction

set_option autoImplicit false

open World

abbrev Blocks := BlockCoordinates → RuntimeBlockStateId

/-- The sequence number that goes with a ticket. -/
def sequenceOf (ticket : Nat) : Int32 := .ofNat (ticket % 2 ^ 31)

def entriesOf (updates : List BlockStateUpdate) : List (BlockCoordinates × RuntimeBlockStateId) :=
  updates.map fun update => (update.position, update.state)

structure View where
  server : Blocks
  client : Blocks
  tracker : BlockInteractionTracker
  /-- How many sequences were issued since the last reset. -/
  issued : Nat
  /-- The tickets acknowledged since the last reset, the latest first. -/
  acknowledged : List Nat
  /-- The most sequences issued between two earlier resets. -/
  earlier : Nat
  /-- The ticket under which a prediction was last registered at a position. -/
  ticket : BlockCoordinates → Nat

inductive InteractionEvent where
  /-- The client acts without a prediction. -/
  | act
  | predict (position : BlockCoordinates) (observed expected : RuntimeBlockStateId)
      (pose : LocalPlayerPose)
  /-- The server changes blocks. -/
  | receive (updates : List BlockStateUpdate)
  | acknowledge (ticket : Nat)
  /-- The acknowledgement of a sequence issued before the last reset. -/
  | acknowledgeLate (sequence : Int32)
  /-- A respawn or a reconfiguration, with the blocks of the new world. -/
  | reset (blocks : Blocks)

namespace View

def start (blocks : Blocks) : View :=
  ⟨blocks, blocks, BlockInteractionTracker.new, 0, [], 0, fun _ => 0⟩

/-- An acknowledgement arrives: its updates are written to the client's world. -/
def answer (v : View) (sequence : Int32) : View :=
  let (resolution, tracker) := v.tracker.acknowledge sequence
  { v with client := writeAll (entriesOf resolution.updates) v.client, tracker := tracker }

def next (v : View) : InteractionEvent → View
  | .act => { v with tracker := v.tracker.sequence.2, issued := v.issued + 1 }
  | .predict position observed expected pose =>
    let (sequence, tracker) := v.tracker.sequence
    let (registered, tracker) :=
      tracker.registerPrediction sequence position observed expected pose
    { v with
      client := if registered then Function.update v.client position expected else v.client
      tracker := tracker
      issued := v.issued + 1
      ticket := if registered then Function.update v.ticket position v.issued else v.ticket }
  | .receive updates =>
    let (immediate, tracker) := v.tracker.reconcileBlockUpdates updates
    { v with
      server := writeAll (entriesOf updates) v.server
      client := writeAll (entriesOf immediate) v.client
      tracker := tracker }
  | .acknowledge ticket =>
    { v.answer (sequenceOf ticket) with acknowledged := ticket :: v.acknowledged }
  | .acknowledgeLate sequence => v.answer sequence
  | .reset blocks =>
    ⟨blocks, blocks, v.tracker.reset, 0, [], max v.earlier v.issued, v.ticket⟩

end View

/-! ### The numbers of tickets -/

theorem sequenceOf_toInt {ticket : Nat} (h : ticket < 2 ^ 31) :
    (sequenceOf ticket).toInt = ticket := by
  unfold sequenceOf
  rw [Nat.mod_eq_of_lt h]
  exact toInt_ofNat_i32 (Nat.le_pred_of_lt h)

theorem sequenceOf_le_iff {ticket : Nat} (h : ticket < 2 ^ 31) (sequence : Int32) :
    sequenceOf ticket ≤ sequence ↔ (ticket : Int) ≤ sequence.toInt := by
  rw [Int32.le_iff_toInt_le, sequenceOf_toInt h]

theorem sequence_next {tracker : BlockInteractionTracker} {ticket : Nat}
    (h : tracker.nextSequence = sequenceOf ticket) :
    tracker.sequence.2.nextSequence = sequenceOf (ticket + 1) := by
  change (checkedAddI32 tracker.nextSequence 1).getD 0 = _
  rw [h]
  unfold sequenceOf
  by_cases hlast : ticket % 2 ^ 31 = 2 ^ 31 - 1
  · have hwrap : (ticket + 1) % 2 ^ 31 = 0 := by omega
    rw [hlast, hwrap]
    decide
  · have hnext : (ticket + 1) % 2 ^ 31 = ticket % 2 ^ 31 + 1 := by omega
    have hticket : (Int32.ofNat (ticket % 2 ^ 31)).toInt = (ticket % 2 ^ 31 : Nat) :=
      toInt_ofNat_i32 (by rw [i32Max]; omega)
    have hsum : (Int32.ofNat (ticket % 2 ^ 31 + 1)).toInt = (ticket % 2 ^ 31 + 1 : Nat) :=
      toInt_ofNat_i32 (by rw [i32Max]; omega)
    have hadd : checkedAddI32 (.ofNat (ticket % 2 ^ 31)) 1 =
        some (.ofNat (ticket % 2 ^ 31 + 1)) := by
      rw [checkedAddI32_eq_some, hsum, hticket]
      rfl
    rw [hadd, hnext]
    rfl

/-! ### What the operations of the tracker do -/

section Operations
variable {tracker : BlockInteractionTracker} {predictions : List BlockPrediction}

theorem popResolved_eq (sequence : Int32) (predictions : List BlockPrediction) :
    ∀ resolution : PredictionResolution,
      (BlockInteractionTracker.popResolved sequence predictions resolution).1.updates =
          resolution.updates ++ (predictions.takeWhile fun p => p.sequence ≤ sequence).map
            (fun p => ⟨p.position, p.serverState⟩) ∧
        (BlockInteractionTracker.popResolved sequence predictions resolution).2 =
          predictions.dropWhile fun p => p.sequence ≤ sequence := by
  induction predictions with
  | nil =>
    intro resolution
    exact ⟨(List.append_nil _).symm, rfl⟩
  | cons p rest ih =>
    intro resolution
    rw [BlockInteractionTracker.popResolved]
    by_cases hp : p.sequence ≤ sequence
    · rw [if_pos hp, List.takeWhile_cons_of_pos (by simpa using hp),
        List.dropWhile_cons_of_pos (by simpa using hp), (ih _).1, (ih _).2]
      exact ⟨List.append_assoc .., rfl⟩
    · rw [if_neg hp, List.takeWhile_cons_of_neg (by simpa using hp),
        List.dropWhile_cons_of_neg (by simpa using hp)]
      exact ⟨(List.append_nil _).symm, rfl⟩

/-- An acknowledgement that is newer than the latest resolves what it covers. -/
theorem acknowledge_new {sequence : Int32} (hsequence : 0 ≤ sequence)
    (hnew : ∀ current, tracker.latestAcknowledged = some current → current < sequence) :
    (tracker.acknowledge sequence).1.updates =
        (tracker.predictions.takeWhile fun p => p.sequence ≤ sequence).map
          (fun p => ⟨p.position, p.serverState⟩) ∧
      (tracker.acknowledge sequence).2 = { tracker with
        latestAcknowledged := some sequence
        predictions := tracker.predictions.dropWhile fun p => p.sequence ≤ sequence } := by
  have hcheck : 0 ≤ sequence ∧
      tracker.latestAcknowledged.all (fun current => decide (current < sequence)) := by
    refine ⟨hsequence, ?_⟩
    cases hlatest : tracker.latestAcknowledged with
    | none => rfl
    | some current => exact decide_eq_true (hnew current hlatest)
  obtain ⟨hupdates, hrest⟩ := popResolved_eq sequence tracker.predictions ⟨[], []⟩
  unfold BlockInteractionTracker.acknowledge
  rw [if_pos hcheck]
  exact ⟨hupdates, congrArg (fun ps => { tracker with
    latestAcknowledged := some sequence, predictions := ps }) hrest⟩

theorem acknowledge_old {sequence : Int32}
    (h : ¬ (0 ≤ sequence ∧
      ∀ current, tracker.latestAcknowledged = some current → current < sequence)) :
    tracker.acknowledge sequence = (⟨[], []⟩, tracker) := by
  unfold BlockInteractionTracker.acknowledge
  rw [if_neg]
  intro hcheck
  refine h ⟨hcheck.1, ?_⟩
  intro current hlatest
  rw [hlatest] at hcheck
  exact of_decide_eq_true hcheck.2

theorem mem_eraseP_position {position : BlockCoordinates}
    (h : (predictions.map BlockPrediction.position).Nodup) {q : BlockPrediction} :
    q ∈ predictions.eraseP (fun p => p.position = position) ↔
      q ∈ predictions ∧ q.position ≠ position := by
  induction predictions with
  | nil => simp
  | cons p rest ih =>
    obtain ⟨hfresh, hrest⟩ := List.nodup_cons.mp h
    by_cases hp : p.position = position
    · rw [List.eraseP_cons_of_pos (by simpa using hp), List.mem_cons]
      constructor
      · intro hq
        exact ⟨.inr hq, fun heq => hfresh (hp ▸ heq ▸ List.mem_map_of_mem hq)⟩
      · rintro ⟨rfl | hq, hne⟩
        · exact absurd hp hne
        · exact hq
    · rw [List.eraseP_cons_of_neg (by simpa using hp), List.mem_cons, List.mem_cons, ih hrest]
      constructor
      · rintro (rfl | ⟨hq, hne⟩)
        · exact ⟨.inl rfl, hp⟩
        · exact ⟨.inr hq, hne⟩
      · rintro ⟨rfl | hq, hne⟩
        · exact .inl rfl
        · exact .inr ⟨hq, hne⟩

/-- A prediction that is registered goes last, in place of the one at its position. -/
structure Registered (predictions kept : List BlockPrediction) (new : BlockPrediction)
    (sequence : Int32) (position : BlockCoordinates)
    (observed expected : RuntimeBlockStateId) : Prop where
  sequence_eq : new.sequence = sequence
  position_eq : new.position = position
  expected_eq : new.expected = expected
  sublist : List.Sublist kept predictions
  mem_iff : ∀ q, q ∈ kept ↔ q ∈ predictions ∧ q.position ≠ position
  length_lt : predictions.length ≤ maxBlockPredictions → kept.length < maxBlockPredictions
  retained : (∃ old ∈ predictions, old.position = position ∧ new.serverState = old.serverState) ∨
    (∀ q ∈ predictions, q.position ≠ position) ∧ new.serverState = observed

theorem registerPrediction_cases (h : (tracker.predictions.map BlockPrediction.position).Nodup)
    (sequence : Int32) (position : BlockCoordinates) (observed expected : RuntimeBlockStateId)
    (pose : LocalPlayerPose) :
    tracker.registerPrediction sequence position observed expected pose = (false, tracker) ∨
      ∃ kept new, tracker.registerPrediction sequence position observed expected pose =
          (true, { tracker with predictions := kept ++ [new] }) ∧
        Registered tracker.predictions kept new sequence position observed expected := by
  unfold BlockInteractionTracker.registerPrediction
  cases hfind : tracker.predictions.find? (fun p => p.position = position) with
  | some old =>
    have hold := List.mem_of_find?_eq_some hfind
    have hposition : old.position = position := by simpa using List.find?_some hfind
    refine .inr ⟨_, _, rfl, rfl, hposition, rfl, List.eraseP_sublist, ?_, ?_,
      .inl ⟨old, hold, hposition, rfl⟩⟩
    · exact fun q => mem_eraseP_position h
    · intro hlength
      have herase := List.length_eraseP_of_mem hold (p := fun p => decide (p.position = position))
        (by simpa using hposition)
      have hpos := List.length_pos_of_mem hold
      omega
  | none =>
    have hnone : ∀ q ∈ tracker.predictions, q.position ≠ position := by
      simpa using List.find?_eq_none.mp hfind
    dsimp only
    by_cases hfull : tracker.predictions.length = maxBlockPredictions
    · rw [if_pos hfull]
      exact .inl rfl
    · rw [if_neg hfull]
      refine .inr ⟨_, _, rfl, rfl, rfl, rfl, List.Sublist.refl _, ?_, ?_, .inr ⟨hnone, rfl⟩⟩
      · exact fun q => ⟨fun hq => ⟨hq, hnone q hq⟩, And.left⟩
      · exact fun hlength => lt_of_le_of_ne hlength hfull

theorem retain_cases (h : (predictions.map BlockPrediction.position).Nodup)
    (update : BlockStateUpdate) :
    BlockInteractionTracker.retain update predictions = none ∧
        (∀ q ∈ predictions, q.position ≠ update.position) ∨
      (∃ q ∈ predictions, q.position = update.position) ∧
        BlockInteractionTracker.retain update predictions = some (predictions.map fun p =>
          if p.position = update.position then { p with serverState := update.state } else p) := by
  induction predictions with
  | nil => exact .inl ⟨rfl, fun _ hq => absurd hq List.not_mem_nil⟩
  | cons p rest ih =>
    obtain ⟨hfresh, hrest⟩ := List.nodup_cons.mp h
    rw [BlockInteractionTracker.retain]
    by_cases hp : p.position = update.position
    · have hothers : rest.map (fun p => if p.position = update.position then
          { p with serverState := update.state } else p) = rest := by
        refine (List.map_congr_left ?_).trans (List.map_id rest)
        intro q hq
        refine if_neg fun heq => hfresh ?_
        rw [hp, ← heq]
        exact List.mem_map_of_mem hq
      rw [if_pos hp, List.map_cons, if_pos hp, hothers]
      exact .inr ⟨⟨p, List.mem_cons_self, hp⟩, rfl⟩
    · rw [if_neg hp]
      rcases ih hrest with ⟨hretain, hnone⟩ | ⟨⟨q, hq, hqp⟩, hretain⟩
      · rw [hretain]
        exact .inl ⟨rfl, List.forall_mem_cons.mpr ⟨hp, hnone⟩⟩
      · rw [hretain, List.map_cons, if_neg hp]
        exact .inr ⟨⟨q, List.mem_cons_of_mem p hq, hqp⟩, rfl⟩

end Operations

/-! ### Tickets of the pending predictions -/

/-- The numbering has not wrapped, every pending prediction has its ticket, the tickets
ascend, and the latest acknowledged number lies below all of them. -/
structure Sequenced (v : View) : Prop where
  next : v.tracker.nextSequence = sequenceOf v.issued
  bound : v.issued ≤ 2 ^ 31
  tickets : ∀ p ∈ v.tracker.predictions,
    p.sequence = sequenceOf (v.ticket p.position) ∧ v.ticket p.position < v.issued
  sorted : v.tracker.predictions.Pairwise fun a b => v.ticket a.position < v.ticket b.position
  latest : ∀ current, v.tracker.latestAcknowledged = some current →
    current.toInt < v.issued ∧ ∀ p ∈ v.tracker.predictions, current.toInt < v.ticket p.position
  acknowledged : ∀ ticket ∈ v.acknowledged,
    ∃ current, v.tracker.latestAcknowledged = some current ∧ (ticket : Int) ≤ current.toInt

/-- No acknowledged interaction leaves a prediction pending that was registered at or
before its issue. -/
def Settled (v : View) : Prop :=
  ∀ ticket ∈ v.acknowledged, ∀ p ∈ v.tracker.predictions, ticket < v.ticket p.position

theorem Sequenced.settled {v : View} (h : Sequenced v) : Settled v := by
  intro ticket hticket p hp
  obtain ⟨current, hcurrent, hle⟩ := h.acknowledged ticket hticket
  have hlt := (h.latest current hcurrent).2 p hp
  omega

theorem Sequenced.positions {v : View} (h : Sequenced v) :
    (v.tracker.predictions.map BlockPrediction.position).Nodup := by
  refine List.pairwise_map.mpr (h.sorted.imp ?_)
  intro a b hlt heq
  exact absurd (heq ▸ hlt) (lt_irrefl _)

/-- The numbering does not wrap, and an acknowledgement of an earlier life carries a number
that has been issued again. -/
def InTime (v : View) : InteractionEvent → Prop
  | .act => v.issued < 2 ^ 31
  | .predict _ _ _ _ => v.issued < 2 ^ 31
  | .acknowledgeLate sequence => sequence.toInt < v.issued
  | _ => True

/-- What can happen: a reply answers something that was issued. -/
def Possible (v : View) : InteractionEvent → Prop
  | .acknowledge ticket => ticket < v.issued
  | .acknowledgeLate sequence => 0 ≤ sequence.toInt ∧ sequence.toInt < v.earlier
  | _ => True

/-- With ascending tickets nothing that is covered stays behind. -/
theorem mem_dropWhile_lt {ticket : BlockCoordinates → Nat} {sequence : Int32}
    {predictions : List BlockPrediction}
    (hticket : ∀ p ∈ predictions, p.sequence = sequenceOf (ticket p.position) ∧
      ticket p.position < 2 ^ 31)
    (hsorted : predictions.Pairwise fun a b => ticket a.position < ticket b.position) :
    ∀ p ∈ predictions.dropWhile (fun p => p.sequence ≤ sequence),
      sequence.toInt < ticket p.position := by
  induction predictions with
  | nil => exact fun _ hp => absurd hp List.not_mem_nil
  | cons a rest ih =>
    obtain ⟨ha, hrest⟩ := List.pairwise_cons.mp hsorted
    obtain ⟨haticket, hrestticket⟩ := List.forall_mem_cons.mp hticket
    have hcovered : a.sequence ≤ sequence ↔ (ticket a.position : Int) ≤ sequence.toInt := by
      rw [haticket.1]
      exact sequenceOf_le_iff haticket.2 sequence
    by_cases hle : a.sequence ≤ sequence
    · rw [List.dropWhile_cons_of_pos (by simpa using hle)]
      exact ih hrestticket hrest
    · have hlt := mt hcovered.mpr hle
      rw [List.dropWhile_cons_of_neg (by simpa using hle)]
      refine List.forall_mem_cons.mpr ⟨by omega, ?_⟩
      intro b hb
      have hab := ha b hb
      omega

theorem answer_new {v : View} {sequence : Int32} (hsequence : 0 ≤ sequence)
    (hnew : ∀ current, v.tracker.latestAcknowledged = some current → current < sequence) :
    v.answer sequence = { v with
      client := writeAll ((v.tracker.predictions.takeWhile fun p => p.sequence ≤ sequence).map
        fun p => (p.position, p.serverState)) v.client
      tracker := { v.tracker with
        latestAcknowledged := some sequence
        predictions := v.tracker.predictions.dropWhile fun p => p.sequence ≤ sequence } } := by
  obtain ⟨hupdates, htracker⟩ := acknowledge_new hsequence hnew
  unfold View.answer
  dsimp only
  rw [hupdates, htracker, entriesOf, List.map_map]
  rfl

theorem answer_old {v : View} {sequence : Int32}
    (h : ¬ (0 ≤ sequence ∧
      ∀ current, v.tracker.latestAcknowledged = some current → current < sequence)) :
    v.answer sequence = v := by
  unfold View.answer
  rw [acknowledge_old h]
  rfl

/-- What an answer leaves pending. -/
theorem Sequenced.answer {v : View} (h : Sequenced v) {sequence : Int32}
    (hsequence : sequence.toInt < v.issued) : Sequenced (v.answer sequence) := by
  by_cases hnew : 0 ≤ sequence ∧
    ∀ current, v.tracker.latestAcknowledged = some current → current < sequence
  swap
  · rw [answer_old hnew]
    exact h
  rw [answer_new hnew.1 hnew.2]
  have hticket : ∀ p ∈ v.tracker.predictions, p.sequence = sequenceOf (v.ticket p.position) ∧
      v.ticket p.position < 2 ^ 31 :=
    fun p hp => ⟨(h.tickets p hp).1, (h.tickets p hp).2.trans_le h.bound⟩
  have hsublist := List.dropWhile_sublist (fun p : BlockPrediction => p.sequence ≤ sequence)
    (l := v.tracker.predictions)
  refine ⟨h.next, h.bound, fun p hp => h.tickets p (hsublist.subset hp), h.sorted.sublist hsublist,
    ?_, ?_⟩
  · rintro current ⟨rfl⟩
    exact ⟨hsequence, mem_dropWhile_lt hticket h.sorted⟩
  · intro ticket hacknowledged
    obtain ⟨current, hcurrent, hle⟩ := h.acknowledged ticket hacknowledged
    have hlt := Int32.lt_iff_toInt_lt.mp (hnew.2 current hcurrent)
    exact ⟨sequence, rfl, by omega⟩

/-- After an answer the latest acknowledged number is at least the one answered. -/
theorem answer_latest (v : View) {sequence : Int32} (hsequence : 0 ≤ sequence) :
    ∃ current, (v.answer sequence).tracker.latestAcknowledged = some current ∧
      sequence ≤ current := by
  by_cases hnew : ∀ current, v.tracker.latestAcknowledged = some current → current < sequence
  · rw [answer_new hsequence hnew]
    exact ⟨sequence, rfl, Int32.le_refl sequence⟩
  · rw [answer_old (fun h => hnew h.2)]
    simpa only [not_forall, not_lt, exists_prop] using hnew

theorem sequenced_start (blocks : Blocks) : Sequenced (View.start blocks) :=
  ⟨rfl, Nat.zero_le _, fun _ hp => absurd hp List.not_mem_nil, List.Pairwise.nil, nofun,
    fun _ h => absurd h List.not_mem_nil⟩

/-- A registered prediction has the latest ticket. -/
theorem Sequenced.register {v : View} (h : Sequenced v) (hissued : v.issued < 2 ^ 31)
    {kept : List BlockPrediction} {new : BlockPrediction} {position : BlockCoordinates}
    {observed expected : RuntimeBlockStateId} (client : Blocks)
    (hnew : Registered v.tracker.predictions kept new v.tracker.nextSequence position observed
      expected) :
    Sequenced { v with
      client := client
      tracker := { v.tracker.sequence.2 with predictions := kept ++ [new] }
      issued := v.issued + 1
      ticket := Function.update v.ticket position v.issued } := by
  have hkept : ∀ p ∈ kept, p ∈ v.tracker.predictions ∧
      Function.update v.ticket position v.issued p.position = v.ticket p.position := by
    intro p hp
    obtain ⟨hp, hne⟩ := (hnew.mem_iff p).mp hp
    exact ⟨hp, Function.update_of_ne hne _ _⟩
  have hlast : Function.update v.ticket position v.issued new.position = v.issued := by
    rw [hnew.position_eq]
    exact Function.update_self ..
  refine ⟨sequence_next h.next, hissued, ?_, ?_, ?_, h.acknowledged⟩
  · refine List.forall_mem_append.mpr ⟨?_, List.forall_mem_singleton.mpr ?_⟩
    · intro p hp
      obtain ⟨hp, hticket⟩ := hkept p hp
      dsimp only
      rw [hticket]
      exact ⟨(h.tickets p hp).1, Nat.lt_succ_of_lt (h.tickets p hp).2⟩
    · dsimp only
      rw [hlast, hnew.sequence_eq, h.next]
      exact ⟨rfl, Nat.lt_succ_self _⟩
  · refine List.pairwise_append.mpr ⟨?_, List.pairwise_singleton _ _, ?_⟩
    · refine (h.sorted.sublist hnew.sublist).imp_of_mem ?_
      intro a b ha hb hlt
      dsimp only
      rw [(hkept a ha).2, (hkept b hb).2]
      exact hlt
    · intro p hp q hq
      obtain rfl := List.mem_singleton.mp hq
      dsimp only
      rw [(hkept p hp).2, hlast]
      exact (h.tickets p (hkept p hp).1).2
  · intro current hcurrent
    obtain ⟨hlt, hbelow⟩ := h.latest current hcurrent
    refine ⟨by push_cast; omega, ?_⟩
    refine List.forall_mem_append.mpr ⟨?_, List.forall_mem_singleton.mpr ?_⟩
    · intro p hp
      dsimp only
      rw [(hkept p hp).2]
      exact hbelow p (hkept p hp).1
    · dsimp only
      rw [hlast]
      exact hlt

/-- Issuing a sequence without a prediction. -/
theorem Sequenced.act {v : View} (h : Sequenced v) (hissued : v.issued < 2 ^ 31)
    (client : Blocks) :
    Sequenced { v with
      client := client, tracker := v.tracker.sequence.2, issued := v.issued + 1 } := by
  refine ⟨sequence_next h.next, hissued, ?_, h.sorted, ?_, h.acknowledged⟩
  · exact fun p hp => ⟨(h.tickets p hp).1, Nat.lt_succ_of_lt (h.tickets p hp).2⟩
  · intro current hcurrent
    obtain ⟨hlt, hbelow⟩ := h.latest current hcurrent
    exact ⟨by push_cast; omega, hbelow⟩

/-! ### Updates of the server, one by one -/

/-- What the tracker retains for an update at the position of a prediction. -/
def retained (update : BlockStateUpdate) (p : BlockPrediction) : BlockPrediction :=
  if p.position = update.position then { p with serverState := update.state } else p

theorem retained_position (update : BlockStateUpdate) (p : BlockPrediction) :
    (retained update p).position = p.position := by
  unfold retained
  split <;> rfl

theorem retained_sequence (update : BlockStateUpdate) (p : BlockPrediction) :
    (retained update p).sequence = p.sequence := by
  unfold retained
  split <;> rfl

theorem retained_expected (update : BlockStateUpdate) (p : BlockPrediction) :
    (retained update p).expected = p.expected := by
  unfold retained
  split <;> rfl

theorem receive_nil (v : View) : v.next (.receive []) = v := rfl

theorem receive_cons (v : View) (update : BlockStateUpdate) (rest : List BlockStateUpdate) :
    v.next (.receive (update :: rest)) = (v.next (.receive [update])).next (.receive rest) := by
  unfold View.next BlockInteractionTracker.reconcileBlockUpdates
  dsimp only [BlockInteractionTracker.reconcile]
  cases BlockInteractionTracker.retain update v.tracker.predictions <;> rfl

theorem receive_one {v : View} (h : (v.tracker.predictions.map BlockPrediction.position).Nodup)
    (update : BlockStateUpdate) :
    (∀ q ∈ v.tracker.predictions, q.position ≠ update.position) ∧
        v.next (.receive [update]) = { v with
          server := Function.update v.server update.position update.state
          client := Function.update v.client update.position update.state } ∨
      (∃ q ∈ v.tracker.predictions, q.position = update.position) ∧
        v.next (.receive [update]) = { v with
          server := Function.update v.server update.position update.state
          tracker := { v.tracker with
            predictions := v.tracker.predictions.map (retained update) } } := by
  unfold View.next BlockInteractionTracker.reconcileBlockUpdates
  dsimp only [BlockInteractionTracker.reconcile]
  rcases retain_cases h update with ⟨hretain, hnone⟩ | ⟨hsome, hretain⟩
  · rw [hretain]
    exact .inl ⟨hnone, rfl⟩
  · rw [hretain]
    exact .inr ⟨hsome, rfl⟩

/-- An invariant that one update keeps is kept by a batch. -/
theorem receive_induction {I : View → Prop}
    (hone : ∀ v update, I v → I (v.next (.receive [update]))) (updates : List BlockStateUpdate) :
    ∀ v, I v → I (v.next (.receive updates)) := by
  induction updates with
  | nil => exact fun _ h => h
  | cons update rest ih =>
    intro v h
    rw [receive_cons]
    exact ih _ (hone v update h)

theorem Sequenced.receive_one {v : View} (h : Sequenced v) (update : BlockStateUpdate) :
    Sequenced (v.next (.receive [update])) := by
  rcases Interaction.receive_one h.positions update with ⟨_, hnext⟩ | ⟨_, hnext⟩
  · rw [hnext]
    exact ⟨h.next, h.bound, h.tickets, h.sorted, h.latest, h.acknowledged⟩
  · rw [hnext]
    refine ⟨h.next, h.bound, ?_, ?_, ?_, h.acknowledged⟩
    · refine List.forall_mem_map.mpr fun p hp => ?_
      rw [retained_position, retained_sequence]
      exact h.tickets p hp
    · refine List.pairwise_map.mpr (h.sorted.imp ?_)
      intro a b hlt
      dsimp only
      rw [retained_position, retained_position]
      exact hlt
    · intro current hcurrent
      refine ⟨(h.latest current hcurrent).1, List.forall_mem_map.mpr fun p hp => ?_⟩
      dsimp only
      rw [retained_position]
      exact (h.latest current hcurrent).2 p hp

theorem predict_full {v : View} {position : BlockCoordinates}
    {observed expected : RuntimeBlockStateId} {pose : LocalPlayerPose}
    (h : v.tracker.sequence.2.registerPrediction v.tracker.nextSequence position observed expected
      pose = (false, v.tracker.sequence.2)) :
    v.next (.predict position observed expected pose) =
      { v with tracker := v.tracker.sequence.2, issued := v.issued + 1 } := by
  unfold View.next
  dsimp only
  rw [show v.tracker.sequence.1 = v.tracker.nextSequence from rfl, h]
  rfl

theorem predict_registered {v : View} {position : BlockCoordinates}
    {observed expected : RuntimeBlockStateId} {pose : LocalPlayerPose}
    {tracker : BlockInteractionTracker}
    (h : v.tracker.sequence.2.registerPrediction v.tracker.nextSequence position observed expected
      pose = (true, tracker)) :
    v.next (.predict position observed expected pose) = { v with
      client := Function.update v.client position expected
      tracker := tracker
      issued := v.issued + 1
      ticket := Function.update v.ticket position v.issued } := by
  unfold View.next
  dsimp only
  rw [show v.tracker.sequence.1 = v.tracker.nextSequence from rfl, h]
  rfl

theorem Sequenced.acknowledge {v : View} (h : Sequenced v) {ticket : Nat}
    (hticket : ticket < v.issued) : Sequenced (v.next (.acknowledge ticket)) := by
  have hnumber := sequenceOf_toInt (hticket.trans_le h.bound)
  have hnonneg : 0 ≤ sequenceOf ticket := by
    rw [Int32.le_iff_toInt_le, hnumber]
    exact Int.natCast_nonneg ticket
  have hanswer : Sequenced (v.answer (sequenceOf ticket)) := h.answer (by rw [hnumber]; omega)
  obtain ⟨current, hcurrent, hle⟩ := answer_latest v hnonneg
  rw [Int32.le_iff_toInt_le, hnumber] at hle
  exact ⟨hanswer.next, hanswer.bound, hanswer.tickets, hanswer.sorted, hanswer.latest,
    List.forall_mem_cons.mpr ⟨⟨current, hcurrent, hle⟩, hanswer.acknowledged⟩⟩

theorem Sequenced.step {v : View} (h : Sequenced v) {event : InteractionEvent}
    (hpossible : Possible v event) (htime : InTime v event) : Sequenced (v.next event) := by
  cases event with
  | act => exact h.act htime v.client
  | predict position observed expected pose =>
    rcases @registerPrediction_cases v.tracker.sequence.2 h.positions
      v.tracker.nextSequence position observed expected pose with hfull | ⟨kept, new, hkept, hnew⟩
    · rw [predict_full hfull]
      exact h.act htime v.client
    · rw [predict_registered hkept]
      exact h.register htime _ hnew
  | receive updates => exact receive_induction (fun _ update h => h.receive_one update) updates v h
  | acknowledge ticket => exact h.acknowledge hpossible
  | acknowledgeLate sequence => exact h.answer htime
  | reset blocks =>
    exact ⟨rfl, Nat.zero_le _, fun _ hp => absurd hp List.not_mem_nil, List.Pairwise.nil, nofun,
      fun _ h => absurd h List.not_mem_nil⟩

/-! ### Acknowledgements over resets and wrap-around -/

def View.Step (v : View) (event : InteractionEvent) (v' : View) : Prop :=
  Possible v event ∧ v.next event = v'

/-- On a run that stays in time, whatever is acknowledged is settled. -/
theorem settled_of_inTime (blocks : Blocks) (events : List InteractionEvent) (v : View)
    (hrun : Run (fun v event v' => v.Step event v' ∧ InTime v event) (View.start blocks) events v) :
    Settled v := by
  have hsequenced : Sequenced v := by
    refine hrun.invariant ?_ (sequenced_start blocks)
    intro v event v' h hstep
    obtain ⟨⟨hpossible, rfl⟩, htime⟩ := hstep
    exact h.step hpossible htime
  exact hsequenced.settled

instance decidableInTime (v : View) (event : InteractionEvent) : Decidable (InTime v event) := by
  cases event <;> unfold InTime <;> infer_instance

instance decidablePossible (v : View) (event : InteractionEvent) :
    Decidable (Possible v event) := by
  cases event <;> unfold Possible <;> infer_instance

instance decidableSettled (v : View) : Decidable (Settled v) := by
  unfold Settled
  infer_instance

def origin : LocalPlayerPose := ⟨F64.zero, F64.zero, F64.zero, F32.zero, F32.zero, F64.zero⟩

/-- A block is broken after a reset, and acknowledged. -/
def lifeAfterReset (late : Int32) : List InteractionEvent :=
  [.act, .act, .reset fun _ => ⟨5⟩, .acknowledgeLate late, .predict ⟨2, 64, -3⟩ ⟨5⟩ ⟨0⟩ origin,
    .acknowledge 0]

/-- The acknowledgement of a sequence from before the reset makes the next one look old. -/
theorem settled_fails :
    ∃ v, Run View.Step (View.start fun _ => ⟨5⟩) (lifeAfterReset 1) v ∧ ¬ Settled v := by
  have hrun : ∃ v, Run (fun v event v' =>
      (if Possible v event then some (v.next event) else none) = some v')
        (View.start fun _ => ⟨5⟩) (lifeAfterReset 1) v ∧ ¬ Settled v :=
    Run.exists_of_foldlM (by decide +kernel)
  obtain ⟨v, hrun, hunsettled⟩ := hrun
  refine ⟨v, hrun.mono ?_, hunsettled⟩
  intro v event v' h
  obtain ⟨hpossible, h⟩ := Option.ite_none_right_eq_some.mp h
  exact ⟨hpossible, Option.some.inj h⟩

theorem settled_of_inTime_reset :
    ∃ v, Run View.Step (View.start fun _ => ⟨5⟩)
      [.act, .reset fun _ => ⟨5⟩, .predict ⟨2, 64, -3⟩ ⟨5⟩ ⟨0⟩ origin, .acknowledgeLate 0,
        .predict ⟨3, 64, -3⟩ ⟨5⟩ ⟨0⟩ origin, .acknowledge 1] v ∧ Settled v := by
  have hrun : ∃ v, Run (fun v event v' => v.Step event v' ∧ InTime v event)
      (View.start fun _ => ⟨5⟩)
      [.act, .reset fun _ => ⟨5⟩, .predict ⟨2, 64, -3⟩ ⟨5⟩ ⟨0⟩ origin, .acknowledgeLate 0,
        .predict ⟨3, 64, -3⟩ ⟨5⟩ ⟨0⟩ origin, .acknowledge 1] v :=
    ⟨_, .cons ⟨⟨trivial, rfl⟩, by decide⟩ (.cons ⟨⟨trivial, rfl⟩, trivial⟩
      (.cons ⟨⟨trivial, rfl⟩, by decide⟩ (.cons ⟨⟨by decide, rfl⟩, by decide⟩
        (.cons ⟨⟨trivial, rfl⟩, by decide⟩ (.cons ⟨⟨by decide, rfl⟩, trivial⟩ (.nil _))))))⟩
  obtain ⟨v, hrun⟩ := hrun
  exact ⟨v, hrun.mono fun _ _ _ h => h.1, settled_of_inTime _ _ v hrun⟩

end Cubic.Interaction
