import Cubic.Lib.Run
import Mathlib.Data.List.Basic

/-!
# Parties that answer

A responder answers each message with messages of its own and takes no other before it has sent
them. Its partner can follow what is sent without seeing what is received.
-/

namespace Cubic

set_option autoImplicit false

/-- What is answered to a message, and the next state. -/
structure Responder (κ ι ω : Type) where
  answers : κ → ι → List ω
  next : κ → ι → κ

/-- What happens at one end of a link. -/
inductive Exchange (ι ω : Type) where
  | received (message : ι)
  | wrote (answer : ω)

namespace Exchange
variable {ι ω : Type}

def received? : Exchange ι ω → Option ι
  | received message => some message
  | wrote _ => none

def wrote? : Exchange ι ω → Option ω
  | received _ => none
  | wrote answer => some answer

def receivedOf (history : List (Exchange ι ω)) : List ι := history.filterMap received?

def writtenOf (history : List (Exchange ι ω)) : List ω := history.filterMap wrote?

end Exchange

open Exchange

namespace Responder
variable {κ ι ω : Type}

/-- The state after these messages. -/
def stateAfter (machine : Responder κ ι ω) (k : κ) (messages : List ι) : κ :=
  messages.foldl machine.next k

/-- All that is answered to these messages. -/
def outputs (machine : Responder κ ι ω) : κ → List ι → List ω
  | _, [] => []
  | k, message :: rest => machine.answers k message ++ machine.outputs (machine.next k message) rest

/-- A state with the answers that are still to be sent. -/
inductive Step (machine : Responder κ ι ω) : κ × List ω → Exchange ι ω → κ × List ω → Prop where
  | receive (k : κ) (message : ι) :
    Step machine (k, []) (.received message) (machine.next k message, machine.answers k message)
  | write (k : κ) (answer : ω) (owed : List ω) :
    Step machine (k, answer :: owed) (.wrote answer) (k, owed)

variable {machine : Responder κ ι ω}

variable {k k' : κ} {owed owed' : List ω} {history : List (Exchange ι ω)}

/-- Everything is answered, in order, and the answers still owed come last. -/
theorem written_of_run (h : Run machine.Step (k, owed) history (k', owed')) :
    writtenOf history ++ owed' = owed ++ machine.outputs k (receivedOf history) ∧
      k' = machine.stateAfter k (receivedOf history) := by
  generalize hs : (k, owed) = s at h
  generalize ht : (k', owed') = t at h
  induction h generalizing k owed with
  | nil s =>
    cases hs.trans ht.symm
    exact ⟨(List.append_nil _).symm, rfl⟩
  | cons hstep _ ih =>
    subst ht
    cases hstep with
    | receive k message =>
      cases hs
      obtain ⟨hwritten, hstate⟩ := ih rfl rfl
      exact ⟨hwritten, hstate⟩
    | write k answer owed =>
      cases hs
      obtain ⟨hwritten, hstate⟩ := ih rfl rfl
      exact ⟨congrArg (answer :: ·) hwritten, hstate⟩

/-- The messages that ask for something, each in the state it arrives in. -/
def asked {δ : Type} (machine : Responder κ ι ω) (ask : κ → ι → List δ) : κ → List ι → List δ
  | _, [] => []
  | k, message :: rest => ask k message ++ machine.asked ask (machine.next k message) rest

/-- Answers of one kind, if each message is answered by as many of them as it asks for. -/
theorem filterMap_outputs {δ : Type} {pick : ω → Option δ} {ask : κ → ι → List δ}
    (h : ∀ k message, (machine.answers k message).filterMap pick = ask k message) (k : κ)
    (messages : List ι) :
    (machine.outputs k messages).filterMap pick = machine.asked ask k messages := by
  induction messages generalizing k with
  | nil => rfl
  | cons message rest ih => rw [outputs, asked, List.filterMap_append, h, ih]

/-- Nothing is received before everything that is owed is sent. -/
theorem written_before_received {point : κ × List ω} {before : List (Exchange ι ω)} {message : ι}
    (h : Run machine.Step (k, owed) history point)
    (hbefore : before ++ [.received message] <+: history) :
    writtenOf before = owed ++ machine.outputs k (receivedOf before) := by
  obtain ⟨m, hm⟩ := h.of_prefix hbefore
  obtain ⟨t, hrun, hlast⟩ := Run.append_iff.mp hm
  cases hlast with
  | cons hstep hnil =>
    cases hstep with
    | receive k' message =>
      have hwritten := (written_of_run hrun).1
      rwa [List.append_nil] at hwritten

/-- A partner that takes what it is sent, and how its state goes with the responder's: if all
answers to a message are taken, the partner follows a whole run. -/
theorem followed {π : Type} {accept : π → ω → Option π} {R : κ → π → Prop}
    (haccept : ∀ k p message, R k p →
      ∃ q, (machine.answers k message).foldlM accept p = some q ∧ R (machine.next k message) q)
    (h : Run machine.Step (k, owed) history (k', owed')) {p q : π}
    (hp : owed.foldlM accept p = some q) (hR : R k q) :
    ∃ p' q', (writtenOf history).foldlM accept p = some p' ∧
      owed'.foldlM accept p' = some q' ∧ R k' q' := by
  generalize hs : (k, owed) = s at h
  generalize ht : (k', owed') = t at h
  induction h generalizing k owed p q with
  | nil s =>
    cases hs.trans ht.symm
    exact ⟨p, q, rfl, hp, hR⟩
  | cons hstep _ ih =>
    subst ht
    cases hstep with
    | receive k message =>
      cases hs
      cases hp
      obtain ⟨q, hq, hR⟩ := haccept k p message hR
      exact ih hq hR rfl rfl
    | write k answer owed =>
      cases hs
      rw [List.foldlM_cons] at hp
      obtain ⟨p', haccepted, howed⟩ := Option.bind_eq_some_iff.mp hp
      obtain ⟨r, q', hr, hq', hview⟩ := ih howed hR rfl rfl
      refine ⟨r, q', ?_, hq', hview⟩
      change (answer :: writtenOf _).foldlM accept p = some r
      rw [List.foldlM_cons, haccepted]
      exact hr

end Responder

end Cubic
