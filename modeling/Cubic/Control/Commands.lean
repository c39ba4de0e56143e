import Cubic.Control.Session

/-!
# What becomes of accepted inventory commands

A tick drains the mailbox before it looks for a simulated player, so the commands queued
while there is none are dropped.
-/

namespace Cubic.Control

set_option autoImplicit false

open Inventory Render World

namespace Session
variable {s t : Session}

/-- What was accepted has been handed over, once and in order, up to what is queued. -/
def Kept (s : Session) : Prop := s.handed ++ s.mailbox.inventoryCommands = s.accepted

/-- A tick that finds commands finds a player, and a profile to encode them with. -/
def ServesQueue (s : Session) : ControlEvent → Prop
  | .tick _ _ =>
    s.mailbox.inventoryCommands = [] ∨ (s.controller.simulation.isSome = true ∧ s.profile = true)
  | _ => True

/-- What a step does with commands: a call may queue one, a tick hands the queue over or
drops it, and nothing else touches them. -/
theorem commands_cases {event : ControlEvent} (h : Step s event t) :
    (∃ command, t.accepted = s.accepted ++ [command] ∧ t.handed = s.handed ∧
      t.mailbox.inventoryCommands = s.mailbox.inventoryCommands ++ [command] ∧
      s.ServesQueue event) ∨
    (t.accepted = s.accepted ∧ t.handed = s.handed ∧
      t.mailbox.inventoryCommands = s.mailbox.inventoryCommands ∧ s.ServesQueue event) ∨
    (t.accepted = s.accepted ∧ t.handed = s.handed ++ s.mailbox.inventoryCommands ∧
      t.mailbox.inventoryCommands = [] ∧ s.ServesQueue event) ∨
    (t.accepted = s.accepted ∧ t.handed = s.handed ∧ t.mailbox.inventoryCommands = [] ∧
      (s.ServesQueue event ↔ s.mailbox.inventoryCommands = [])) := by
  cases event with
  | setInput sequence input now =>
    cases h
    exact .inr (.inl ⟨rfl, rfl, s.mailbox.record_commands .., trivial⟩)
  | resetInput sequence now =>
    cases h
    exact .inr (.inl ⟨rfl, rfl, s.mailbox.record_commands .., trivial⟩)
  | clear now =>
    cases h
    exact .inr (.inl ⟨rfl, rfl, s.mailbox.record_commands .., trivial⟩)
  | setAttack pressed =>
    cases h
    refine .inr (.inl ⟨rfl, rfl, ?_, trivial⟩)
    change (s.mailbox.setAttack pressed).inventoryCommands = _
    unfold ControlState.setAttack
    split <;> rfl
  | pressUse =>
    cases h
    exact .inr (.inl ⟨rfl, rfl, rfl, trivial⟩)
  | inventoryCommand command =>
    unfold Step next at h
    rcases s.mailbox.inventoryCommand_cases command with hfull | hroom
    · simp only [hfull] at h
      cases h
      exact .inr (.inl ⟨rfl, rfl, rfl, trivial⟩)
    · simp only [hroom] at h
      cases h
      exact .inl ⟨command, rfl, rfl, rfl, trivial⟩
  | tick now physics =>
    right; right
    obtain ⟨u, hu, rfl⟩ := Option.map_eq_some_iff.mp h
    obtain ⟨⟨ticked, controller, mailbox⟩, htick, rfl⟩ := Option.map_eq_some_iff.mp hu
    unfold WorldMovementController.tick at htick
    cases hplayer : s.controller.simulation with
    | none =>
      rw [hplayer] at htick
      cases htick
      right
      refine ⟨rfl, rfl, rfl, ?_⟩
      simp only [ServesQueue, hplayer, Option.isSome_none, Bool.false_eq_true, false_and, or_false]
    | some simulation =>
      rw [hplayer] at htick
      obtain ⟨after, -, heq⟩ := Option.map_eq_some_iff.mp htick
      cases heq
      cases hprofile : s.profile with
      | true =>
        left
        refine ⟨rfl, ?_, rfl, .inr ⟨by rw [hplayer]; rfl, hprofile⟩⟩
        simp only [if_true]
      | false =>
        right
        refine ⟨rfl, ?_, rfl, ?_⟩
        · simp only [Bool.false_eq_true, if_false]
        · simp only [ServesQueue, hprofile, Bool.false_eq_true, and_false, or_false]
  | reconcile finite =>
    obtain ⟨controller, -, rfl⟩ := Option.map_eq_some_iff.mp h
    exact .inr (.inl ⟨rfl, rfl, rfl, trivial⟩)
  | reset =>
    cases h
    exact .inr (.inl ⟨rfl, rfl, rfl, trivial⟩)
  | applyAbilities abilities =>
    obtain ⟨controller, -, rfl⟩ := Option.map_eq_some_iff.mp h
    exact .inr (.inl ⟨rfl, rfl, rfl, trivial⟩)

theorem kept_step {event : ControlEvent} (hkept : s.Kept) (h : Step s event t) :
    t.Kept ↔ s.ServesQueue event := by
  unfold Kept at hkept ⊢
  rcases commands_cases h with ⟨command, ha, hh, hq, hc⟩ | ⟨ha, hh, hq, hc⟩ |
    ⟨ha, hh, hq, hc⟩ | ⟨ha, hh, hq, hc⟩
  · rw [ha, hh, hq, ← List.append_assoc, hkept]
    exact iff_of_true rfl hc
  · rw [ha, hh, hq]
    exact iff_of_true hkept hc
  · rw [ha, hh, hq, List.append_nil]
    exact iff_of_true hkept hc
  · rw [ha, hh, hq, hc, List.append_nil, ← hkept]
    exact List.self_eq_append_right

theorem queue_empty_of_tick {now : Instant} {physics : Physics} (h : Step s (.tick now physics) t) :
    t.mailbox.inventoryCommands = [] := by
  obtain ⟨u, hu, rfl⟩ := Option.map_eq_some_iff.mp h
  obtain ⟨⟨ticked, controller, mailbox⟩, htick, rfl⟩ := Option.map_eq_some_iff.mp hu
  unfold WorldMovementController.tick at htick
  cases hplayer : s.controller.simulation with
  | none =>
    rw [hplayer] at htick
    cases htick
    rfl
  | some simulation =>
    rw [hplayer] at htick
    obtain ⟨after, -, heq⟩ := Option.map_eq_some_iff.mp htick
    cases heq
    rfl

/-- All along a run the accepted commands are handed over once and in order, up to those
still queued, exactly when every tick that finds commands finds a player and a profile;
and a tick leaves none queued. -/
theorem commands_kept_iff (profile : Bool) {events : List ControlEvent}
    (hrun : Run Step (start profile) events t) :
    ((∀ before u, before <+: events → Run Step (start profile) before u → u.Kept) ↔
        Run (fun s event t => Step s event t ∧ s.ServesQueue event) (start profile) events t) ∧
      ∀ s u now physics, Step s (.tick now physics) u → u.mailbox.inventoryCommands = [] := by
  constructor
  · apply Run.forall_iff (I := fun _ => True)
    · intro s event t t' ht ht'
      exact Option.some.inj (ht.symm.trans ht')
    · exact fun _ _ _ _ _ => trivial
    · exact fun s event t _ hkept h => kept_step hkept h
    · exact hrun
    · trivial
    · rfl
  · exact fun s u now physics h => queue_empty_of_tick h

/-- A command accepted after a respawn, before the position that follows it. -/
def respawnWindow : List ControlEvent :=
  [.reconcile true, .reset, .inventoryCommand (.selectHotbar 3), .tick 0 some, .reconcile true,
    .tick 50 some]

theorem commands_lost : ∃ t, Run Step (start true) respawnWindow t ∧
    (t.accepted = [.selectHotbar 3] ∧ t.handed = [] ∧ t.mailbox.inventoryCommands = []) := by
  apply Run.exists_of_foldlM
  decide

theorem commands_kept_iff_respawnWindow : ∃ t, Run Step (start true) respawnWindow t ∧
    ¬Run (fun s event t => Step s event t ∧ s.ServesQueue event) (start true) respawnWindow t := by
  have hfound : ∃ t, Run Step (start true) respawnWindow t ∧
      (t.accepted = [.selectHotbar 3] ∧ t.handed = [] ∧ t.mailbox.inventoryCommands = []) :=
    Run.exists_of_foldlM (by decide)
  obtain ⟨t, hrun, haccepted, hhanded, hqueue⟩ := hfound
  refine ⟨t, hrun, fun hserved => ?_⟩
  have hkept := (commands_kept_iff true hrun).1.mpr hserved _ t (List.prefix_refl _) hrun
  rw [Kept, haccepted, hhanded, hqueue] at hkept
  cases hkept

end Session

end Cubic.Control
