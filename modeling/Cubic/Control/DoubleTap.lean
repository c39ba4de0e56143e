import Cubic.Control.Session
import Mathlib.Data.List.Induction

/-!
# Which presses a flight toggle answers

A focus loss that finds no input held records no transition, so the tracker never hears
of it and a tap before it still counts.
-/

namespace Cubic.Control

set_option autoImplicit false

open Inventory Render World

/-! ### Histories of the held input -/

/-- Whether Jump is held after the calls. -/
def jumpAfter (calls : List Call) : Bool :=
  match calls.getLast? with
  | some (.held t) => t.input.jump
  | _ => false

@[simp] theorem jumpAfter_held (calls : List Call) (t : InputTransition) :
    jumpAfter (calls ++ [.held t]) = t.input.jump := by
  rw [jumpAfter, List.getLast?_concat]

@[simp] theorem jumpAfter_lost (calls : List Call) : jumpAfter (calls ++ [.lost]) = false := by
  rw [jumpAfter, List.getLast?_concat]

/-- After these calls `t` is a press edge of Jump. -/
def PressEdge (calls : List Call) (t : InputTransition) : Prop :=
  jumpAfter calls = false ∧ t.input.jump = true

/-- A press edge that no focus loss follows. -/
def Armed (calls : List Call) : Prop :=
  ∃ first p mid, calls = first ++ .held p :: mid ∧ PressEdge first p ∧ .lost ∉ mid

/-- `p` and `t` are press edges of Jump, with no loss of focus between them. -/
def DoubleTap (calls : List Call) (p t : InputTransition) : Prop :=
  ∃ first mid last, calls = first ++ .held p :: mid ++ .held t :: last ∧ PressEdge first p ∧
    PressEdge (first ++ .held p :: mid) t ∧ .lost ∉ mid

theorem Armed.held {calls : List Call} (h : Armed calls) (t : InputTransition) :
    Armed (calls ++ [.held t]) := by
  obtain ⟨first, p, mid, rfl, hp, hmid⟩ := h
  refine ⟨first, p, mid ++ [.held t], by simp, hp, ?_⟩
  intro hlost
  rcases List.mem_append.mp hlost with hlost | hlost
  · exact hmid hlost
  · cases List.mem_singleton.mp hlost

/-- Whoever holds Jump pressed it, and has not lost focus since. -/
theorem armed_of_jump {calls : List Call} (h : jumpAfter calls = true) : Armed calls := by
  induction calls using List.reverseRecOn with
  | nil => cases h
  | append_singleton calls call ih =>
    cases call with
    | lost =>
      rw [jumpAfter_lost] at h
      cases h
    | held t =>
      rw [jumpAfter_held] at h
      cases hbefore : jumpAfter calls with
      | true => exact (ih hbefore).held t
      | false => exact ⟨calls, t, [], rfl, ⟨hbefore, h⟩, List.not_mem_nil⟩

theorem Armed.doubleTap {calls : List Call} {t : InputTransition} (h : Armed calls)
    (ht : PressEdge calls t) : ∃ p, DoubleTap (calls ++ [.held t]) p t := by
  obtain ⟨first, p, mid, rfl, hp, hmid⟩ := h
  exact ⟨p, first, mid, [], rfl, hp, ht, hmid⟩

theorem not_armed_lost (calls : List Call) : ¬Armed (calls ++ [.lost]) := by
  rintro ⟨first, p, mid, heq, -, hmid⟩
  rcases List.eq_nil_or_concat mid with rfl | ⟨mid, call, rfl⟩
  · cases (List.append_inj' heq rfl).2
  · rw [List.concat_eq_append, ← List.cons_append, ← List.append_assoc] at heq
    obtain rfl := List.singleton_inj.mp (List.append_inj' heq rfl).2
    exact hmid (by simp)

/-- What completes a double tap at the end of a history finds it armed. -/
theorem DoubleTap.armed {calls : List Call} {p t : InputTransition}
    (h : DoubleTap (calls ++ [.held t]) p t) (ht : .held t ∉ calls) : Armed calls := by
  obtain ⟨first, mid, last, heq, hp, -, hmid⟩ := h
  rcases List.eq_nil_or_concat last with rfl | ⟨last, call, rfl⟩
  · exact ⟨first, p, mid, (List.append_inj' heq rfl).1, hp, hmid⟩
  · rw [List.concat_eq_append, ← List.cons_append, ← List.append_assoc] at heq
    exact absurd (by rw [(List.append_inj' heq rfl).1]; simp) ht

theorem DoubleTap.append {calls : List Call} {p t : InputTransition} (h : DoubleTap calls p t)
    (more : List Call) : DoubleTap (calls ++ more) p t := by
  obtain ⟨first, mid, last, rfl, hp, ht, hmid⟩ := h
  exact ⟨first, mid, last ++ more, by simp, hp, ht, hmid⟩

/-! ### What the journal knows of a history -/

/-- A Jump that no journalled focus loss follows, or the tracker's first press. -/
def outstanding (first : Bool) (transitions : List InputTransition) : Bool :=
  transitions.foldl (fun o t => if t.reset then false else o || t.input.jump) first

/-- The transitions account for the calls: a focus loss has none only when no press is
outstanding. -/
inductive Backed : Bool → List Call → List InputTransition → Prop where
  | nil (o : Bool) : Backed o [] []
  | held {o : Bool} {t : InputTransition} {calls : List Call} {ts : List InputTransition} :
    t.reset = false → Backed (o || t.input.jump) calls ts → Backed o (.held t :: calls) (t :: ts)
  | lost {o : Bool} {t : InputTransition} {calls : List Call} {ts : List InputTransition} :
    t.reset = true → Backed false calls ts → Backed o (.lost :: calls) (t :: ts)
  | unseen {calls : List Call} {ts : List InputTransition} :
    Backed false calls ts → Backed false (.lost :: calls) ts

namespace Backed
variable {o : Bool} {calls calls' : List Call} {ts ts' : List InputTransition}

theorem append (h : Backed o calls ts) (h' : Backed (outstanding o ts) calls' ts') :
    Backed o (calls ++ calls') (ts ++ ts') := by
  induction h with
  | nil o => exact h'
  | held ht _ ih =>
    refine .held ht (ih ?_)
    simpa [outstanding, ht] using h'
  | lost ht _ ih =>
    refine .lost ht (ih ?_)
    simpa [outstanding, ht] using h'
  | unseen _ ih => exact .unseen (ih h')

/-- With less outstanding, less has to be accounted for. -/
theorem weaken (h : Backed o calls ts) : Backed false calls ts := by
  induction h with
  | nil o => exact .nil false
  | @held o t calls ts ht hrest ih =>
    refine .held ht ?_
    cases hjump : t.input.jump with
    | true =>
      rw [hjump, Bool.or_true] at hrest
      exact hrest
    | false => exact ih
  | lost ht hrest _ => exact .lost ht hrest
  | unseen hrest _ => exact .unseen hrest

theorem mono {o' : Bool} (h : Backed o calls ts) (ho : o' = true → o = true) :
    Backed o' calls ts := by
  cases o' with
  | false => exact h.weaken
  | true => exact ho rfl ▸ h

end Backed

/-! ### The tracker along a history -/

namespace FlightToggleTracker

/-- The first press the tracker keeps is one that no focus loss follows. -/
def Follows (tracker : FlightToggleTracker) (calls : List Call) : Prop :=
  tracker.firstPressAt.isSome = true → Armed calls ∧ tracker.jumpHeld = jumpAfter calls

theorem follows_of_none {tracker : FlightToggleTracker} (h : tracker.firstPressAt = none)
    (calls : List Call) : tracker.Follows calls := by
  intro hsome
  rw [h] at hsome
  cases hsome

/-- One change of the held input, consumed. -/
theorem Follows.consumeOne {tracker : FlightToggleTracker} {calls : List Call}
    {t : InputTransition} (h : tracker.Follows calls) (ht : t.reset = false)
    (state : PlayerMovementState) :
    (tracker.consumeOne state t).1.Follows (calls ++ [.held t]) ∧
      ((tracker.consumeOne state t).1.firstPressAt.isSome = true →
        (tracker.firstPressAt.isSome || t.input.jump) = true) ∧
      ((tracker.consumeOne state t).2.2 ≠ [] → ∃ p, DoubleTap (calls ++ [.held t]) p t) := by
  rcases tracker.consumeOne_cases state t with ⟨hreset, -⟩ | ⟨-, hjump, hheld, hfirst, hnext⟩ |
    ⟨-, hjump, hnext, hnone⟩ | ⟨-, hnext, hnone⟩
  · rw [ht] at hreset
    cases hreset
  · obtain ⟨harmed, hafter⟩ := h hfirst
    rw [hnext]
    refine ⟨follows_of_none rfl _, nofun, fun _ => harmed.doubleTap ⟨?_, hjump⟩⟩
    rw [← hafter, hheld]
  · rw [hnext]
    refine ⟨fun _ => ⟨armed_of_jump ?_, ?_⟩, fun _ => ?_, fun hne => absurd hnone hne⟩
    · rw [jumpAfter_held, hjump]
    · rw [jumpAfter_held, hjump]
    · rw [hjump, Bool.or_true]
  · rw [hnext]
    refine ⟨fun hfirst => ⟨(h hfirst).1.held t, (jumpAfter_held _ _).symm⟩, fun hfirst => ?_,
      fun hne => absurd hnone hne⟩
    change tracker.firstPressAt.isSome = true at hfirst
    rw [hfirst, Bool.true_or]

/-- The tracker consumes what the calls have journalled. -/
theorem Follows.consumeAll {o : Bool} {pending : List Call} {ts : List InputTransition}
    (hbacked : Backed o pending ts) {tracker : FlightToggleTracker} {done : List Call}
    (h : tracker.Follows done) (ho : tracker.firstPressAt.isSome = true → o = true)
    (state : PlayerMovementState) :
    (tracker.consumeAll state ts).1.Follows (done ++ pending) ∧
      ∀ t ∈ tracker.toggling state ts, ∃ p, DoubleTap (done ++ pending) p t := by
  induction hbacked generalizing tracker done state with
  | nil o =>
    rw [List.append_nil]
    exact ⟨h, fun t ht => absurd ht List.not_mem_nil⟩
  | @held o t calls ts ht _ ih =>
    obtain ⟨hnext, hfirst, htap⟩ := h.consumeOne ht state
    obtain ⟨hall, htaps⟩ := ih hnext
      (fun hsome => by
        rcases Bool.or_eq_true_iff.mp (hfirst hsome) with hkept | hjump
        · rw [ho hkept, Bool.true_or]
        · rw [hjump, Bool.or_true])
      (tracker.consumeOne state t).2.1
    rw [List.append_assoc, List.singleton_append] at hall htaps
    refine ⟨hall, fun u hu => ?_⟩
    rcases List.mem_append.mp hu with hu | hu
    · obtain ⟨_, hchange, rfl⟩ := List.mem_map.mp hu
      obtain ⟨p, hp⟩ := htap (List.ne_nil_of_mem hchange)
      refine ⟨p, ?_⟩
      have hmore := hp.append calls
      rwa [List.append_assoc, List.singleton_append] at hmore
    · exact htaps u hu
  | @lost o t calls ts ht _ ih =>
    have hnext : tracker.consumeOne state t = (⟨none, false⟩, state, []) := by
      unfold FlightToggleTracker.consumeOne
      rw [if_pos ht]
      rfl
    obtain ⟨hall, htaps⟩ := @ih ⟨none, false⟩ (done ++ [.lost]) (follows_of_none rfl _) nofun state
    rw [List.append_assoc, List.singleton_append] at hall htaps
    simp only [FlightToggleTracker.consumeAll, toggling, hnext]
    exact ⟨hall, htaps⟩
  | @unseen calls ts _ ih =>
    have hfirst : tracker.firstPressAt = none := by
      cases hkept : tracker.firstPressAt with
      | none => rfl
      | some first =>
        rw [hkept] at ho
        cases ho rfl
    obtain ⟨hall, htaps⟩ := @ih tracker (done ++ [.lost]) (follows_of_none hfirst _) ho state
    rw [List.append_assoc, List.singleton_append] at hall htaps
    exact ⟨hall, htaps⟩

end FlightToggleTracker

/-! ### Sessions -/

namespace Session
variable {s t : Session}

def pressOutstanding (s : Session) : Bool :=
  outstanding s.controller.flightToggle.firstPressAt.isSome s.mailbox.transitions

/-- The sequence number of a `reset_input` is new. -/
def Fresh (s : Session) : ControlEvent → Prop
  | .resetInput sequence _ => s.mailbox.inputSequence < sequence
  | _ => True

/-- A loss of focus finds an input held, or no press outstanding, and a sequence number is
left for `clear`. -/
def Heard (s : Session) : ControlEvent → Prop
  | .resetInput _ _ => s.mailbox.input ≠ .default ∨ s.pressOutstanding = false
  | .clear _ =>
    s.mailbox.inputSequence ≠ u64Max ∧
      (s.mailbox.input ≠ .default ∨ s.pressOutstanding = false)
  | _ => True

instance (s : Session) (event : ControlEvent) : Decidable (s.Fresh event) := by
  cases event <;> unfold Fresh <;> infer_instance

instance (s : Session) (event : ControlEvent) : Decidable (s.Heard event) := by
  cases event <;> unfold Heard <;> infer_instance

structure Watched (s : Session) : Prop where
  input : s.mailbox.input.jump = jumpAfter s.history
  idle : s.controller.simulation = none → s.controller.flightToggle.firstPressAt = none
  journal : s.mailbox.coalescedTransitions = 0 → ∃ done pending, s.history = done ++ pending ∧
    s.controller.flightToggle.Follows done ∧
    Backed s.controller.flightToggle.firstPressAt.isSome pending s.mailbox.transitions
  taps : ∀ u ∈ s.toggled, ∃ p, DoubleTap s.history p u

theorem watched_start (profile : Bool) : (start profile).Watched where
  input := rfl
  idle := fun _ => rfl
  journal := fun _ => ⟨[], [], rfl, FlightToggleTracker.follows_of_none rfl [], .nil _⟩
  taps := fun _ hu => absurd hu List.not_mem_nil

theorem taps_append {history : List Call} {toggled : List InputTransition}
    (h : ∀ u ∈ toggled, ∃ p, DoubleTap history p u) (more : List Call) :
    ∀ u ∈ toggled, ∃ p, DoubleTap (history ++ more) p u := by
  intro u hu
  obtain ⟨p, hp⟩ := h u hu
  exact ⟨p, hp.append more⟩

/-- A call enters the history together with its transition. -/
theorem Watched.journalled (h : s.Watched) (call : Call) (transition : InputTransition)
    (mailbox : ControlState) (htransitions : mailbox.transitions = s.mailbox.transitions)
    (hcoalesced : mailbox.coalescedTransitions = s.mailbox.coalescedTransitions)
    (hinput : mailbox.input.jump = jumpAfter (s.history ++ [call]))
    (hcall : ∀ o, Backed o [call] [transition]) :
    ({ s with mailbox := mailbox.journal transition, history := s.history ++ [call] } :
      Session).Watched where
  input := by rw [ControlState.journal_input, hinput]
  idle := h.idle
  journal := by
    intro hnone
    change (mailbox.journal transition).coalescedTransitions = 0 at hnone
    unfold ControlState.journal at hnone ⊢
    split at hnone
    · rename_i hfull
      change min _ usizeMax = 0 at hnone
      unfold usizeMax at hnone
      omega
    · rename_i hroom
      rw [if_neg hroom]
      obtain ⟨done, pending, hhistory, hfollows, hbacked⟩ := h.journal (hcoalesced ▸ hnone)
      refine ⟨done, pending ++ [call], ?_, hfollows, ?_⟩
      · rw [hhistory, List.append_assoc]
      · change Backed _ _ (mailbox.transitions ++ [transition])
        rw [htransitions]
        exact hbacked.append (hcall _)
  taps := taps_append h.taps [call]

/-- A focus loss enters the history without a transition. -/
theorem Watched.unheard (h : s.Watched) (hfree : s.pressOutstanding = false)
    (hjump : s.mailbox.input.jump = false) (mailbox : ControlState)
    (hinput : mailbox.input = s.mailbox.input)
    (htransitions : mailbox.transitions = s.mailbox.transitions)
    (hcoalesced : mailbox.coalescedTransitions = s.mailbox.coalescedTransitions) :
    ({ s with mailbox, history := s.history ++ [.lost] } : Session).Watched where
  input := by rw [hinput, hjump, jumpAfter_lost]
  idle := h.idle
  journal := by
    intro hnone
    obtain ⟨done, pending, hhistory, hfollows, hbacked⟩ := h.journal (hcoalesced ▸ hnone)
    refine ⟨done, pending ++ [.lost], ?_, hfollows, ?_⟩
    · rw [hhistory, List.append_assoc]
    · change Backed _ _ mailbox.transitions
      rw [htransitions]
      have hlost : Backed (outstanding s.controller.flightToggle.firstPressAt.isSome
          s.mailbox.transitions) [.lost] [] := by
        change outstanding _ _ = false at hfree
        rw [hfree]
        exact .unseen (.nil false)
      simpa only [List.append_nil] using hbacked.append hlost
  taps := taps_append h.taps [.lost]

/-- Nothing the gesture depends on changes. -/
theorem Watched.congr (h : s.Watched) (mailbox : ControlState)
    (hinput : mailbox.input = s.mailbox.input)
    (htransitions : mailbox.transitions = s.mailbox.transitions)
    (hcoalesced : mailbox.coalescedTransitions = s.mailbox.coalescedTransitions)
    (accepted : List InventoryCommand) : ({ s with mailbox, accepted } : Session).Watched where
  input := by rw [hinput, h.input]
  idle := h.idle
  journal := by
    intro hnone
    rw [htransitions]
    exact h.journal (hcoalesced ▸ hnone)
  taps := h.taps

theorem Watched.setInput (h : s.Watched) {sequence : UInt64} {input : MovementInput}
    {now : Instant} (hstep : Step s (.setInput sequence input now) t) : t.Watched := by
  have hnext := Option.some.inj hstep
  rcases s.mailbox.record_cases sequence input now false with ⟨-, hrecord⟩ | ⟨-, -, hrecord⟩ |
    ⟨-, hchange, changedAt, hrecord⟩
  all_goals
    change s.mailbox.setInput sequence input now = _ at hrecord
    simp only [hrecord] at hnext
  · rw [if_pos trivial] at hnext
    rw [← hnext]
    exact h
  · rw [if_pos trivial] at hnext
    rw [← hnext]
    exact h.congr { s.mailbox with inputSequence := sequence } rfl rfl rfl s.accepted
  · rw [ControlState.journal_input, if_neg (Ne.symm hchange)] at hnext
    rw [← hnext]
    refine h.journalled (.held _) _ _ rfl rfl ?_ fun o => .held rfl (.nil _)
    rw [jumpAfter_held]

/-- A loss of focus, in `reset_input` or `clear`. -/
theorem Watched.release (h : s.Watched) {sequence : UInt64} {now : Instant}
    (hfresh : s.mailbox.inputSequence < sequence)
    (hheard : s.mailbox.input ≠ .default ∨ s.pressOutstanding = false) :
    ({ s with
      mailbox := s.mailbox.release sequence now
      history := s.history ++ [.lost] } : Session).Watched := by
  rcases s.mailbox.record_cases sequence .default now true with ⟨hstale, -⟩ |
    ⟨-, hdefault, hrecord⟩ | ⟨-, -, changedAt, hrecord⟩
  · exact absurd hfresh (UInt64.not_lt.mpr hstale)
  · rcases hheard with hheld | hfree
    · exact absurd hdefault hheld
    · apply h.unheard hfree (by rw [hdefault]; rfl) (s.mailbox.release sequence now)
      all_goals
        unfold ControlState.release
        rw [hrecord]
  · have hwatched := h.journalled .lost ⟨sequence, .default, now, true⟩
      { s.mailbox with inputSequence := sequence, input := .default, jumpChangedAt := changedAt }
      rfl rfl (jumpAfter_lost _).symm fun o => .lost rfl (.nil _)
    rw [← hrecord] at hwatched
    exact hwatched.congr (s.mailbox.release sequence now) rfl rfl rfl s.accepted

/-- The tracker and the player change; what the tracker keeps of a first press it kept
before. -/
theorem Watched.controlled (h : s.Watched) (controller : WorldMovementController)
    (hkept : controller.flightToggle.firstPressAt = none ∨
      controller.flightToggle = s.controller.flightToggle)
    (hidle : controller.simulation = none → s.controller.simulation = none ∨
      controller.flightToggle.firstPressAt = none) :
    ({ s with controller } : Session).Watched where
  input := h.input
  idle := by
    intro hnone
    rcases hidle hnone with hbefore | hfirst
    · rcases hkept with hfirst | hsame
      · exact hfirst
      · change controller.flightToggle.firstPressAt = none
        rw [hsame]
        exact h.idle hbefore
    · exact hfirst
  journal := by
    intro hnone
    obtain ⟨done, pending, hhistory, hfollows, hbacked⟩ := h.journal hnone
    refine ⟨done, pending, hhistory, ?_⟩
    change controller.flightToggle.Follows done ∧
      Backed controller.flightToggle.firstPressAt.isSome pending s.mailbox.transitions
    rcases hkept with hfirst | hsame
    · rw [hfirst]
      exact ⟨FlightToggleTracker.follows_of_none hfirst done, hbacked.weaken⟩
    · rw [hsame]
      exact ⟨hfollows, hbacked⟩
  taps := h.taps

theorem Watched.applyAbilities (h : s.Watched) {abilities : PlayerAbilities}
    (hstep : Step s (.applyAbilities abilities) t) : t.Watched := by
  obtain ⟨controller, hcontroller, rfl⟩ := Option.map_eq_some_iff.mp hstep
  have hkept : (s.controller.flightToggle.retainOnlyIfCapable abilities.mayFly).firstPressAt =
        none ∨
      s.controller.flightToggle.retainOnlyIfCapable abilities.mayFly =
        s.controller.flightToggle := by
    unfold FlightToggleTracker.retainOnlyIfCapable
    split
    · exact .inr rfl
    · exact .inl rfl
  unfold WorldMovementController.applyAbilities at hcontroller
  cases hplayer : s.controller.simulation with
  | none =>
    rw [hplayer] at hcontroller
    cases hcontroller
    exact h.controlled _ hkept fun _ => .inl hplayer
  | some simulation =>
    rw [hplayer] at hcontroller
    obtain ⟨after, -, rfl⟩ := Option.map_eq_some_iff.mp hcontroller
    exact h.controlled _ hkept nofun

theorem Watched.reconcile (h : s.Watched) {finite : Bool}
    (hstep : Step s (.reconcile finite) t) : t.Watched := by
  obtain ⟨controller, hcontroller, rfl⟩ := Option.map_eq_some_iff.mp hstep
  unfold WorldMovementController.reconcile at hcontroller
  cases finite with
  | false => cases hcontroller
  | true =>
    rw [if_neg nofun] at hcontroller
    cases hplayer : s.controller.simulation with
    | some simulation =>
      rw [hplayer] at hcontroller
      cases hcontroller
      exact h
    | none =>
      rw [hplayer] at hcontroller
      cases habilities : s.controller.abilities with
      | none =>
        rw [habilities] at hcontroller
        cases hcontroller
        exact h.controlled _ (.inr rfl) nofun
      | some abilities =>
        rw [habilities] at hcontroller
        obtain ⟨after, -, rfl⟩ := Option.map_eq_some_iff.mp hcontroller
        exact h.controlled _ (.inr rfl) nofun

/-- The journal is drained, and consumed when there is a player to toggle. -/
theorem Watched.tick (h : s.Watched) {now : Instant} {physics : Physics}
    (hstep : Step s (.tick now physics) t) : t.Watched := by
  obtain ⟨u, hu, rfl⟩ := Option.map_eq_some_iff.mp hstep
  obtain ⟨⟨ticked, controller, mailbox⟩, htick, rfl⟩ := Option.map_eq_some_iff.mp hu
  unfold WorldMovementController.tick at htick
  cases hplayer : s.controller.simulation with
  | none =>
    rw [hplayer] at htick
    cases htick
    have hfirst := h.idle hplayer
    refine ⟨h.input, fun _ => hfirst, fun _ => ⟨s.history, [], (List.append_nil _).symm, ?_, .nil _⟩,
      ?_⟩
    · exact FlightToggleTracker.follows_of_none hfirst s.history
    · intro u hu
      rw [toggling, hplayer, List.append_nil] at hu
      exact h.taps u hu
  | some simulation =>
    rw [hplayer] at htick
    obtain ⟨after, -, heq⟩ := Option.map_eq_some_iff.mp htick
    cases heq
    have hconsumed : (s.controller.flightToggle.consume s.mailbox.transitions
        s.mailbox.coalescedTransitions s.mailbox.input.jump now simulation).1.Follows s.history ∧
        ∀ u ∈ s.toggling, ∃ p, DoubleTap s.history p u := by
      unfold toggling FlightToggleTracker.consume
      rw [hplayer]
      by_cases hlost : s.mailbox.coalescedTransitions = 0
      · obtain ⟨done, pending, hhistory, hfollows, hbacked⟩ := h.journal hlost
        obtain ⟨hall, htaps⟩ := hfollows.consumeAll hbacked (fun hsome => hsome) simulation
        rw [← hhistory] at hall htaps
        simp only [hlost, ne_eq, not_true_eq_false, if_false]
        refine ⟨fun hsome => ⟨(hall ?_).1, h.input⟩, htaps⟩
        exact FlightToggleTracker.expire_firstPressAt hsome
      · simp only [ne_eq, hlost, not_false_eq_true, if_true]
        exact ⟨FlightToggleTracker.follows_of_none rfl _, nofun⟩
    obtain ⟨hfollows, htaps⟩ := hconsumed
    refine ⟨h.input, nofun, fun _ => ⟨s.history, [], (List.append_nil _).symm, hfollows, .nil _⟩, ?_⟩
    intro u hu
    rcases List.mem_append.mp hu with hu | hu
    · exact h.taps u hu
    · exact htaps u hu

theorem Watched.next (h : s.Watched) {event : ControlEvent} (hfresh : s.Fresh event)
    (hheard : s.Heard event) (hstep : Step s event t) : t.Watched := by
  cases event with
  | setInput sequence input now => exact h.setInput hstep
  | resetInput sequence now =>
    cases hstep
    exact h.release hfresh hheard
  | clear now =>
    cases hstep
    exact h.release (lt_saturatingSucc hheard.1) hheard.2
  | setAttack pressed =>
    cases hstep
    apply h.congr (s.mailbox.setAttack pressed) _ _ _ s.accepted
    all_goals
      unfold ControlState.setAttack
      split <;> rfl
  | pressUse =>
    cases hstep
    exact h.congr s.mailbox.pressUse rfl rfl rfl s.accepted
  | inventoryCommand command =>
    unfold Step Session.next at hstep
    rcases s.mailbox.inventoryCommand_cases command with hfull | hroom
    · simp only [hfull] at hstep
      cases hstep
      exact h
    · simp only [hroom] at hstep
      cases hstep
      exact h.congr { s.mailbox with
        inventoryCommands := s.mailbox.inventoryCommands ++ [command] } rfl rfl rfl _
  | tick now physics => exact h.tick hstep
  | reconcile finite => exact h.reconcile hstep
  | reset =>
    cases hstep
    exact h.controlled s.controller.reset (.inl rfl) fun _ => .inr rfl
  | applyAbilities abilities => exact h.applyAbilities hstep

/-- Flight is toggled only at the second of two press edges with no loss of focus between
them, in every run whose focus losses are all heard. -/
theorem toggled_doubleTap (profile : Bool) {events : List ControlEvent}
    (hrun : Run (fun s event t => Step s event t ∧ s.Fresh event ∧ s.Heard event)
      (start profile) events t) :
    ∀ u ∈ t.toggled, ∃ p, DoubleTap t.history p u := by
  have hwatched : t.Watched := by
    refine Run.invariant (I := Watched) ?_ hrun (watched_start profile)
    intro s event t hs hstep
    exact hs.next hstep.2.1 hstep.2.2 hstep.1
  exact hwatched.taps

/-- A tap, a loss of focus with nothing held, and another tap. -/
def tapAcrossFocusLoss : List ControlEvent :=
  let jump : MovementInput := { MovementInput.default with jump := true }
  [.reconcile true, .applyAbilities ⟨false, true, F32.zero⟩, .setInput 1 jump 0,
    .setInput 2 .default 50000000, .resetInput 3 60000000, .setInput 4 jump 100000000,
    .tick 110000000 some]

theorem toggled_without_doubleTap : ∃ t,
    Run (fun s event t => Step s event t ∧ s.Fresh event) (start true) tapAcrossFocusLoss t ∧
      ∃ u ∈ t.toggled, ¬∃ p, DoubleTap t.history p u := by
  let jump : MovementInput := { MovementInput.default with jump := true }
  let calls : List Call := [.held ⟨1, jump, 0, false⟩, .held ⟨2, .default, 50000000, false⟩]
  let tap : InputTransition := ⟨4, jump, 100000000, false⟩
  have hfound : ∃ t, Run (fun s event t => Step s event t ∧ s.Fresh event) (start true)
      tapAcrossFocusLoss t ∧ (t.toggled = [tap] ∧ t.history = calls ++ [.lost] ++ [.held tap]) :=
    Run.exists_of_foldlM_guard (by decide)
  obtain ⟨t, hrun, htoggled, hhistory⟩ := hfound
  refine ⟨t, hrun, tap, by rw [htoggled]; exact List.mem_singleton_self tap, ?_⟩
  rintro ⟨p, hp⟩
  rw [hhistory] at hp
  exact not_armed_lost calls (hp.armed (by decide))

/-- Two taps with a loss of focus after them. -/
def doubleTap : List ControlEvent :=
  let jump : MovementInput := { MovementInput.default with jump := true }
  [.reconcile true, .applyAbilities ⟨false, true, F32.zero⟩, .setInput 1 jump 0,
    .setInput 2 .default 50000000, .setInput 3 jump 100000000, .tick 110000000 some,
    .resetInput 4 120000000]

theorem toggled_doubleTap_heard : ∃ t u p, Run Step (start true) doubleTap t ∧
    t.toggled = [u] ∧ DoubleTap t.history p u := by
  let tap : InputTransition := ⟨3, { MovementInput.default with jump := true }, 100000000, false⟩
  have hfound : ∃ t, Run (fun s event t => Step s event t ∧ (s.Fresh event ∧ s.Heard event))
      (start true) doubleTap t ∧ t.toggled = [tap] := Run.exists_of_foldlM_guard (by decide)
  obtain ⟨t, hrun, htoggled⟩ := hfound
  obtain ⟨p, hp⟩ := toggled_doubleTap true hrun tap (by rw [htoggled]; exact List.mem_singleton_self tap)
  exact ⟨t, tap, p, hrun.mono fun _ _ _ h => h.1, htoggled, hp⟩

end Session

end Cubic.Control
