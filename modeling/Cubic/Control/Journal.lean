import Cubic.Control.Mailbox

/-!
# The input journal

What each sample takes from the journal, beside the changes of input accepted since the one
before.
-/

namespace Cubic.Control

set_option autoImplicit false

open Render

inductive MailboxCall where
  | setInput (sequence : UInt64) (input : MovementInput) (now : Instant)
  | resetInput (sequence : UInt64) (now : Instant)
  | clear (now : Instant)
  | setAttack (pressed : Bool)
  | pressUse
  | inventoryCommand (command : InventoryCommand)
  | take

namespace MailboxCall

def run (state : ControlState) : MailboxCall → Option ControlSample × ControlState
  | setInput sequence input now => (none, state.setInput sequence input now)
  | resetInput sequence now => (none, state.resetInput sequence now)
  | clear now => (none, state.clear now)
  | setAttack pressed => (none, state.setAttack pressed)
  | pressUse => (none, state.pressUse)
  | inventoryCommand command => (none, (state.inventoryCommand command).2)
  | take => (some state.take.1, state.take.2)

/-- The samples that are taken, in order. -/
def samples (state : ControlState) : List MailboxCall → List ControlSample
  | [] => []
  | call :: calls => (call.run state).1.toList ++ samples (call.run state).2 calls

end MailboxCall

/-! ### What was accepted -/

/-- The newest snapshot, with the changes accepted since the last sample. -/
structure Ledger where
  sequence : UInt64
  input : MovementInput
  changes : List InputTransition

/-- The changes that a sample is to report, and the input it is to hold. -/
structure Report where
  changes : List InputTransition
  input : MovementInput

namespace Ledger

def start : Ledger := ⟨0, .default, []⟩

/-- A snapshot counts if its sequence is strictly larger, and is a change if the input differs. -/
def offer (l : Ledger) (snapshot : InputTransition) : Ledger :=
  if l.sequence < snapshot.sequence then
    ⟨snapshot.sequence, snapshot.input,
      if snapshot.input = l.input then l.changes else l.changes ++ [snapshot]⟩
  else l

def step (l : Ledger) : MailboxCall → Option Report × Ledger
  | .setInput sequence input now => (none, l.offer ⟨sequence, input, now, false⟩)
  | .resetInput sequence now => (none, l.offer ⟨sequence, .default, now, true⟩)
  | .clear now => (none, l.offer ⟨saturatingSucc l.sequence, .default, now, true⟩)
  | .take => (some ⟨l.changes, l.input⟩, { l with changes := [] })
  | _ => (none, l)

def reports (l : Ledger) : List MailboxCall → List Report
  | [] => []
  | call :: calls => (l.step call).1.toList ++ reports (l.step call).2 calls

/-! ### The sequences ascend -/

structure Ascending (l : Ledger) : Prop where
  pairwise : l.changes.Pairwise fun a b => a.sequence < b.sequence
  bounded : ∀ change ∈ l.changes, change.sequence ≤ l.sequence

variable {l : Ledger}

theorem offer_sequence_le (l : Ledger) (snapshot : InputTransition) :
    l.sequence ≤ (l.offer snapshot).sequence := by
  unfold offer
  split
  · rename_i hlt
    exact UInt64.le_of_lt hlt
  · exact UInt64.le_refl _

theorem mem_offer {snapshot change : InputTransition}
    (h : change ∈ (l.offer snapshot).changes) :
    change ∈ l.changes ∨ l.sequence < change.sequence := by
  unfold offer at h
  split at h
  · rename_i hlt
    dsimp only at h
    split at h
    · exact Or.inl h
    · rcases List.mem_append.mp h with h | h
      · exact Or.inl h
      · rw [List.mem_singleton.mp h]
        exact Or.inr hlt
  · exact Or.inl h

theorem Ascending.offer (h : l.Ascending) (snapshot : InputTransition) :
    (l.offer snapshot).Ascending := by
  unfold Ledger.offer
  split
  · rename_i hlt
    have hold : ∀ change ∈ l.changes, change.sequence < snapshot.sequence := by
      intro change hchange
      exact UInt64.lt_of_le_of_lt (h.bounded change hchange) hlt
    split
    · exact ⟨h.pairwise, fun change hchange => UInt64.le_of_lt (hold change hchange)⟩
    · constructor
      · rw [List.pairwise_append]
        refine ⟨h.pairwise, List.pairwise_singleton _ _, ?_⟩
        intro a ha b hb
        rw [List.mem_singleton.mp hb]
        exact hold a ha
      · intro change hchange
        rcases List.mem_append.mp hchange with hchange | hchange
        · exact UInt64.le_of_lt (hold change hchange)
        · rw [List.mem_singleton.mp hchange]
          exact UInt64.le_refl _
  · exact h

/-- A call reports only what was accepted, and what it accepts is newer. -/
structure Moves (l : Ledger) (report : Option Report) (l' : Ledger) : Prop where
  ascending : l'.Ascending
  newer : l.sequence ≤ l'.sequence
  fresh : ∀ change ∈ l'.changes, (report = none ∧ change ∈ l.changes) ∨ l.sequence < change.sequence
  taken : ∀ r ∈ report, r.changes = l.changes

theorem Ascending.step (h : l.Ascending) (call : MailboxCall) :
    l.Moves (l.step call).1 (l.step call).2 := by
  have hoffer : ∀ snapshot, l.Moves none (l.offer snapshot) := by
    intro snapshot
    refine ⟨h.offer snapshot, offer_sequence_le l snapshot, ?_, by simp⟩
    intro change hchange
    exact (mem_offer hchange).imp (fun hold => ⟨rfl, hold⟩) id
  have hsame : l.Moves none l :=
    ⟨h, UInt64.le_refl _, fun change hchange => Or.inl ⟨rfl, hchange⟩, by simp⟩
  cases call with
  | setInput sequence input now => exact hoffer _
  | resetInput sequence now => exact hoffer _
  | clear now => exact hoffer _
  | setAttack pressed => exact hsame
  | pressUse => exact hsame
  | inventoryCommand command => exact hsame
  | take =>
    refine ⟨⟨List.Pairwise.nil, ?_⟩, UInt64.le_refl _, ?_, ?_⟩
    · exact fun change hchange => absurd hchange List.not_mem_nil
    · exact fun change hchange => absurd hchange List.not_mem_nil
    · intro report hreport
      cases hreport
      rfl

theorem Ascending.reports (calls : List MailboxCall) : ∀ {l : Ledger}, l.Ascending →
    ((l.reports calls).flatMap (·.changes)).Pairwise (fun a b => a.sequence < b.sequence) ∧
      ∀ change ∈ (l.reports calls).flatMap (·.changes),
        change ∈ l.changes ∨ l.sequence < change.sequence := by
  induction calls with
  | nil => exact fun _ => ⟨List.Pairwise.nil, by simp [Ledger.reports]⟩
  | cons call calls ih =>
    intro l h
    have hmoves := h.step call
    obtain ⟨hpairwise, hmem⟩ := ih hmoves.ascending
    have hlater : ∀ change ∈ ((l.step call).2.reports calls).flatMap (·.changes),
        ((l.step call).1 = none ∧ change ∈ l.changes) ∨ l.sequence < change.sequence := by
      intro change hchange
      rcases hmem change hchange with hold | hnew
      · exact hmoves.fresh change hold
      · exact Or.inr (UInt64.lt_of_le_of_lt hmoves.newer hnew)
    unfold Ledger.reports
    cases hreport : (l.step call).1 with
    | none =>
      refine ⟨hpairwise, ?_⟩
      intro change hchange
      exact (hlater change hchange).imp And.right id
    | some report =>
      have htaken := hmoves.taken report hreport
      rw [Option.toList_some, List.flatMap_append, List.flatMap_singleton, htaken]
      have hnew : ∀ change ∈ ((l.step call).2.reports calls).flatMap (·.changes),
          l.sequence < change.sequence := by
        intro change hchange
        rcases hlater change hchange with ⟨hnone, -⟩ | hnew
        · rw [hreport] at hnone
          cases hnone
        · exact hnew
      constructor
      · rw [List.pairwise_append]
        refine ⟨h.pairwise, hpairwise, ?_⟩
        intro a ha b hb
        exact UInt64.lt_of_le_of_lt (h.bounded a ha) (hnew b hb)
      · intro change hchange
        exact (List.mem_append.mp hchange).imp id (hnew change)

end Ledger

/-! ### The journal against the ledger -/

/-- The journal holds the newest changes and counts the others, and the held input is the
newest of all. -/
structure Follows (state : ControlState) (l : Ledger) : Prop where
  input : state.input = l.input
  sequence : state.inputSequence = l.sequence
  journal : state.transitions = l.changes.drop (l.changes.length - maxInputTransitions)
  count : state.coalescedTransitions = l.changes.length - maxInputTransitions
  last : ∀ last ∈ l.changes.getLast?, last.input = l.input
  /-- The sequence grows with each change, so that the count never saturates. -/
  room : l.changes.length ≤ l.sequence.toNat

/-- A sample reports the changes up to the oldest, as many as it counts. -/
structure Reports (sample : ControlSample) (report : Report) : Prop where
  input : sample.input = report.input
  changes : sample.transitions = report.changes.drop sample.coalescedTransitions
  count : report.changes.length = sample.coalescedTransitions + sample.transitions.length
  last : ∀ last ∈ sample.transitions.getLast?, last.input = sample.input

variable {state : ControlState} {l : Ledger}

theorem follows_start : Follows .default .start :=
  ⟨rfl, rfl, rfl, rfl, by simp [Ledger.start], Nat.zero_le _⟩

/-- The journal of one more change. -/
theorem journal_drop (changes : List InputTransition) (change : InputTransition) :
    (changes ++ [change]).drop ((changes ++ [change]).length - maxInputTransitions) =
      if (changes.drop (changes.length - maxInputTransitions)).length = maxInputTransitions then
        (changes.drop (changes.length - maxInputTransitions)).drop 1 ++ [change]
      else changes.drop (changes.length - maxInputTransitions) ++ [change] := by
  rw [List.length_drop, List.length_append, List.length_singleton, maxInputTransitions]
  split
  · rw [List.drop_drop, List.drop_append_of_le_length (by omega)]
    congr 2
    omega
  · have hfew : changes.length + 1 - 64 = changes.length - 64 := by omega
    rw [hfew, List.drop_append_of_le_length (by omega)]

theorem Follows.record (h : Follows state l) (sequence : UInt64) (input : MovementInput)
    (now : Instant) (reset : Bool) :
    Follows (state.recordInputTransition sequence input now reset)
      (l.offer ⟨sequence, input, now, reset⟩) := by
  unfold Ledger.offer
  rcases state.record_cases sequence input now reset with
    ⟨hstale, hrecord⟩ | ⟨hfresh, hsame, hrecord⟩ | ⟨hfresh, hne, changedAt, hrecord⟩
  · rw [hrecord, if_neg (by rw [← h.sequence]; exact UInt64.not_lt.mpr hstale)]
    exact h
  · rw [h.sequence] at hfresh
    rw [hrecord, if_pos hfresh, if_pos (hsame.symm.trans h.input)]
    refine ⟨hsame, rfl, h.journal, h.count, ?_, ?_⟩
    · rw [← hsame, h.input]
      exact h.last
    · exact h.room.trans (UInt64.lt_iff_toNat_lt.mp hfresh).le
  · rw [h.sequence] at hfresh
    rw [h.input] at hne
    rw [hrecord, if_pos hfresh, if_neg (fun heq => hne heq.symm)]
    have hroom : l.changes.length + 1 ≤ sequence.toNat :=
      Nat.lt_of_le_of_lt h.room (UInt64.lt_iff_toNat_lt.mp hfresh)
    have hlt := sequence.toNat_lt
    refine ⟨?_, ?_, ?_, ?_, ?_, ?_⟩
    · exact ControlState.journal_input ..
    · unfold ControlState.journal
      split <;> rfl
    · dsimp only
      rw [journal_drop, ← h.journal]
      unfold ControlState.journal
      split <;> rfl
    · dsimp only
      unfold ControlState.journal
      rw [List.length_append, List.length_singleton]
      have hlength := congrArg List.length h.journal
      rw [List.length_drop] at hlength
      split
      · rename_i hfull
        dsimp only at hfull ⊢
        rw [h.count, saturatingAdd, usizeMax, Nat.min_eq_left (by omega)]
        unfold maxInputTransitions at hfull hlength ⊢
        omega
      · rename_i hfew
        dsimp only at hfew ⊢
        rw [h.count]
        unfold maxInputTransitions at hfew hlength ⊢
        omega
    · dsimp only
      rw [List.getLast?_append]
      simp
    · dsimp only
      rw [List.length_append, List.length_singleton]
      exact hroom

theorem Follows.congr (h : Follows state l) {state' : ControlState} (hinput : state'.input = state.input)
    (hsequence : state'.inputSequence = state.inputSequence)
    (htransitions : state'.transitions = state.transitions)
    (hcount : state'.coalescedTransitions = state.coalescedTransitions) : Follows state' l :=
  ⟨hinput.trans h.input, hsequence.trans h.sequence, htransitions.trans h.journal,
    hcount.trans h.count, h.last, h.room⟩

theorem Follows.release (h : Follows state l) (sequence : UInt64) (now : Instant) :
    Follows (state.release sequence now) (l.offer ⟨sequence, .default, now, true⟩) :=
  (h.record sequence .default now true).congr rfl rfl rfl rfl

theorem Follows.reports (h : Follows state l) : Reports state.take.1 ⟨l.changes, l.input⟩ := by
  have hlength := congrArg List.length h.journal
  rw [List.length_drop] at hlength
  refine ⟨h.input, ?_, ?_, ?_⟩
  · exact h.journal.trans (congrArg (List.drop · l.changes) h.count.symm)
  · change l.changes.length = state.coalescedTransitions + state.transitions.length
    rw [h.count]
    omega
  · intro last hlast
    change last.input = state.input
    rw [h.input]
    apply h.last
    change last ∈ state.transitions.getLast? at hlast
    rw [h.journal, List.getLast?_drop] at hlast
    split at hlast
    · cases hlast
    · exact hlast

theorem Follows.step (h : Follows state l) (call : MailboxCall) :
    Follows (call.run state).2 (l.step call).2 ∧
      List.Forall₂ Reports (call.run state).1.toList (l.step call).1.toList := by
  cases call with
  | setInput sequence input now => exact ⟨h.record sequence input now false, List.Forall₂.nil⟩
  | resetInput sequence now => exact ⟨h.release sequence now, List.Forall₂.nil⟩
  | clear now =>
    refine ⟨?_, List.Forall₂.nil⟩
    change Follows (state.release (saturatingSucc state.inputSequence) now) _
    rw [h.sequence]
    exact h.release _ now
  | setAttack pressed =>
    refine ⟨?_, List.Forall₂.nil⟩
    change Follows (state.setAttack pressed) l
    unfold ControlState.setAttack
    split
    · exact h.congr rfl rfl rfl rfl
    · exact h
  | pressUse => exact ⟨h.congr rfl rfl rfl rfl, List.Forall₂.nil⟩
  | inventoryCommand command =>
    refine ⟨?_, List.Forall₂.nil⟩
    change Follows (state.inventoryCommand command).2 l
    rcases state.inventoryCommand_cases command with hrun | hrun
    · rw [hrun]
      exact h
    · rw [hrun]
      exact h.congr rfl rfl rfl rfl
  | take =>
    refine ⟨⟨h.input, h.sequence, rfl, rfl, ?_, Nat.zero_le _⟩, ?_⟩
    · intro last hlast
      cases hlast
    · exact List.Forall₂.cons h.reports List.Forall₂.nil

theorem Follows.samples (calls : List MailboxCall) : ∀ {state : ControlState} {l : Ledger},
    Follows state l → List.Forall₂ Reports (MailboxCall.samples state calls) (l.reports calls) := by
  induction calls with
  | nil => exact fun _ => List.Forall₂.nil
  | cons call calls ih =>
    intro state l h
    obtain ⟨hnext, hreport⟩ := h.step call
    exact List.rel_append hreport (ih hnext)

theorem sublist_reports {samples : List ControlSample} {reports : List Report}
    (h : List.Forall₂ Reports samples reports) :
    (samples.flatMap (·.transitions)).Sublist (reports.flatMap (·.changes)) := by
  induction h with
  | nil => exact List.Sublist.refl _
  | cons hreport _ ih =>
    rw [List.flatMap_cons, List.flatMap_cons, hreport.changes]
    exact (List.drop_sublist _ _).append ih

/-- Over every interleaving of calls: each sample reports the changes accepted since the one
before up to the oldest, as many as it counts, and ends with the held input; and the sequences
of all samples ascend. -/
theorem samples_report (calls : List MailboxCall) :
    List.Forall₂ Reports (MailboxCall.samples .default calls) (Ledger.start.reports calls) ∧
      ((MailboxCall.samples .default calls).flatMap (·.transitions)).Pairwise
        fun a b => a.sequence < b.sequence := by
  have hreports := follows_start.samples calls
  refine ⟨hreports, ?_⟩
  have hascending : Ledger.start.Ascending :=
    ⟨List.Pairwise.nil, fun change hchange => absurd hchange List.not_mem_nil⟩
  exact (hascending.reports calls).1.sublist (sublist_reports hreports)

end Cubic.Control
