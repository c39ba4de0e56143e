import Cubic.Interaction.View

/-!
# The client's world is the server's under the pending predictions
-/

namespace Cubic.Interaction

set_option autoImplicit false

open World

def pendingOf (predictions : List BlockPrediction) :
    List (BlockCoordinates × RuntimeBlockStateId) :=
  predictions.map fun p => (p.position, p.expected)

theorem keys_pendingOf (predictions : List BlockPrediction) :
    (pendingOf predictions).map Prod.fst = predictions.map BlockPrediction.position := by
  rw [pendingOf, List.map_map]
  rfl

theorem pendingOf_append (xs ys : List BlockPrediction) :
    pendingOf (xs ++ ys) = pendingOf xs ++ pendingOf ys := List.map_append

theorem pendingOf_singleton (p : BlockPrediction) : pendingOf [p] = [(p.position, p.expected)] := rfl

/-- The observed state is the one the server last told, where no prediction is pending. -/
def Observed (v : View) : InteractionEvent → Prop
  | .predict position observed _ _ =>
    (∀ p ∈ v.tracker.predictions, p.position ≠ position) → observed = v.server position
  | _ => True

/-- What a client may rely on at any moment. -/
structure Overlaid (v : View) : Prop where
  client_eq : v.client = overlay (pendingOf v.tracker.predictions) v.server
  bounded : v.tracker.predictions.length ≤ maxBlockPredictions
  positions : (v.tracker.predictions.map BlockPrediction.position).Nodup
  increasing : v.tracker.predictions.Pairwise fun a b => a.sequence < b.sequence
  unacknowledged : ∀ ticket ∈ v.acknowledged, ∀ p ∈ v.tracker.predictions,
    sequenceOf ticket < p.sequence
  settled : ∀ ticket ∈ v.acknowledged, ticket + 1 = v.issued → v.client = v.server

/-- The part of it that the steps keep, beside the tickets. -/
structure Retained (v : View) : Prop where
  client_eq : v.client = overlay (pendingOf v.tracker.predictions) v.server
  bounded : v.tracker.predictions.length ≤ maxBlockPredictions
  server_eq : ∀ p ∈ v.tracker.predictions, p.serverState = v.server p.position

theorem retained_start (blocks : Blocks) : Retained (View.start blocks) :=
  ⟨rfl, Nat.zero_le _, fun _ hp => absurd hp List.not_mem_nil⟩

theorem Retained.register {v : View} (h : Retained v)
    (hpositions : (v.tracker.predictions.map BlockPrediction.position).Nodup)
    {kept : List BlockPrediction} {new : BlockPrediction} {position : BlockCoordinates}
    {observed expected : RuntimeBlockStateId} {sequence : Int32} {pose : LocalPlayerPose}
    (hobserved : Observed v (.predict position observed expected pose))
    (hnew : Registered v.tracker.predictions kept new sequence position observed expected) :
    Retained { v with
      client := Function.update v.client position expected
      tracker := { v.tracker.sequence.2 with predictions := kept ++ [new] }
      issued := v.issued + 1
      ticket := Function.update v.ticket position v.issued } := by
  have hlast : new.serverState = v.server new.position := by
    rw [hnew.position_eq]
    rcases hnew.retained with ⟨old, hold, hposition, hserver⟩ | ⟨hnone, hserver⟩
    · rw [hserver, h.server_eq old hold, hposition]
    · rw [hserver]
      exact hobserved hnone
  refine ⟨?_, ?_, ?_⟩
  · have hkept : ∀ e, e ∈ pendingOf kept ↔
        e ∈ pendingOf v.tracker.predictions ∧ e.1 ≠ position := by
      intro e
      simp only [pendingOf, List.mem_map, hnew.mem_iff]
      constructor
      · rintro ⟨q, ⟨hq, hne⟩, rfl⟩
        exact ⟨⟨q, hq, rfl⟩, hne⟩
      · rintro ⟨⟨q, hq, rfl⟩, hne⟩
        exact ⟨q, ⟨hq, hne⟩, rfl⟩
    have hrequeue : overlay (pendingOf kept ++ [(position, expected)]) v.server =
        Function.update (overlay (pendingOf v.tracker.predictions) v.server) position expected :=
      overlay_requeue (keys_pendingOf _ ▸ hpositions) (hnew.sublist.map _) hkept expected
    dsimp only
    rw [h.client_eq, ← hrequeue, pendingOf_append, pendingOf_singleton, hnew.position_eq,
      hnew.expected_eq]
  · have hlt := hnew.length_lt h.bounded
    dsimp only
    rw [List.length_append, List.length_singleton]
    omega
  · refine List.forall_mem_append.mpr ⟨?_, List.forall_mem_singleton.mpr hlast⟩
    intro p hp
    exact h.server_eq p ((hnew.mem_iff p).mp hp).1

theorem Retained.receive_one {v : View} (h : Retained v)
    (hpositions : (v.tracker.predictions.map BlockPrediction.position).Nodup)
    (update : BlockStateUpdate) : Retained (v.next (.receive [update])) := by
  have hkeys : ((pendingOf v.tracker.predictions).map Prod.fst).Nodup :=
    keys_pendingOf _ ▸ hpositions
  rcases Interaction.receive_one hpositions update with ⟨hnone, hnext⟩ | ⟨⟨q, hq, hqp⟩, hnext⟩
  · rw [hnext]
    refine ⟨?_, h.bounded, ?_⟩
    · have hfresh : update.position ∉ (pendingOf v.tracker.predictions).map Prod.fst := by
        rw [keys_pendingOf]
        intro hmem
        obtain ⟨p, hp, heq⟩ := List.mem_map.mp hmem
        exact hnone p hp heq
      dsimp only
      rw [h.client_eq, overlay_update_of_notMem hfresh]
    · intro p hp
      dsimp only
      rw [Function.update_of_ne (hnone p hp)]
      exact h.server_eq p hp
  · rw [hnext]
    refine ⟨?_, ?_, ?_⟩
    · have hmem : update.position ∈ (pendingOf v.tracker.predictions).map Prod.fst := by
        rw [keys_pendingOf, ← hqp]
        exact List.mem_map_of_mem hq
      have hpending : pendingOf (v.tracker.predictions.map (retained update)) =
          pendingOf v.tracker.predictions := by
        rw [pendingOf, List.map_map, pendingOf]
        refine List.map_congr_left fun p _ => ?_
        dsimp only [Function.comp]
        rw [retained_position, retained_expected]
      dsimp only
      rw [hpending, overlay_update_of_mem hkeys hmem]
      exact h.client_eq
    · dsimp only
      rw [List.length_map]
      exact h.bounded
    · refine List.forall_mem_map.mpr fun p hp => ?_
      dsimp only
      rw [retained_position]
      unfold retained
      split
      · rename_i heq
        rw [heq, Function.update_self]
      · rename_i hne
        rw [Function.update_of_ne hne]
        exact h.server_eq p hp

theorem Retained.answer {v : View} (h : Retained v)
    (hpositions : (v.tracker.predictions.map BlockPrediction.position).Nodup) (sequence : Int32) :
    Retained (v.answer sequence) := by
  by_cases hnew : 0 ≤ sequence ∧
    ∀ current, v.tracker.latestAcknowledged = some current → current < sequence
  swap
  · rw [answer_old hnew]
    exact h
  have hsublist := List.dropWhile_sublist (fun p : BlockPrediction => p.sequence ≤ sequence)
    (l := v.tracker.predictions)
  rw [answer_new hnew.1 hnew.2]
  refine ⟨?_, hsublist.length_le.trans h.bounded, fun p hp => h.server_eq p (hsublist.subset hp)⟩
  have hsplit := List.takeWhile_append_dropWhile (p := fun p : BlockPrediction =>
    decide (p.sequence ≤ sequence)) (l := v.tracker.predictions)
  generalize v.tracker.predictions.dropWhile _ = rest at hsplit ⊢
  have hresolved : ∀ p ∈ v.tracker.predictions.takeWhile (fun p => p.sequence ≤ sequence),
      p.serverState = v.server p.position :=
    fun p hp => h.server_eq p ((List.takeWhile_sublist _).subset hp)
  generalize v.tracker.predictions.takeWhile _ = resolved at hsplit hresolved ⊢
  have hentries : resolved.map (fun p => (p.position, p.serverState)) =
      (pendingOf resolved).map fun e => (e.1, v.server e.1) := by
    rw [pendingOf, List.map_map]
    refine List.map_congr_left fun p hp => ?_
    rw [hresolved p hp]
    rfl
  have hkeys : ((pendingOf resolved ++ pendingOf rest).map Prod.fst).Nodup := by
    rw [← pendingOf_append, hsplit, keys_pendingOf]
    exact hpositions
  dsimp only
  rw [h.client_eq, ← hsplit, pendingOf_append, hentries, writeAll_overlay hkeys]

theorem Retained.step {v : View} (h : Retained v) (hsequenced : Sequenced v)
    {event : InteractionEvent} (hobserved : Observed v event) : Retained (v.next event) := by
  cases event with
  | act => exact ⟨h.client_eq, h.bounded, h.server_eq⟩
  | predict position observed expected pose =>
    rcases @registerPrediction_cases v.tracker.sequence.2 hsequenced.positions
      v.tracker.nextSequence position observed expected pose with hfull | ⟨kept, new, hkept, hnew⟩
    · rw [predict_full hfull]
      exact ⟨h.client_eq, h.bounded, h.server_eq⟩
    · rw [predict_registered hkept]
      exact h.register hsequenced.positions hobserved hnew
  | receive updates =>
    have hboth := receive_induction (I := fun v => Sequenced v ∧ Retained v)
      (fun v update h => ⟨h.1.receive_one update, h.2.receive_one h.1.positions update⟩) updates v
      ⟨hsequenced, h⟩
    exact hboth.2
  | acknowledge ticket =>
    have hanswer := h.answer hsequenced.positions (sequenceOf ticket)
    exact ⟨hanswer.client_eq, hanswer.bounded, hanswer.server_eq⟩
  | acknowledgeLate sequence => exact h.answer hsequenced.positions sequence
  | reset blocks => exact ⟨rfl, Nat.zero_le _, fun _ hp => absurd hp List.not_mem_nil⟩

/-! ### The client at any moment -/

theorem Sequenced.overlaid {v : View} (h : Sequenced v) (hretained : Retained v) : Overlaid v := by
  have hnumber : ∀ p ∈ v.tracker.predictions, p.sequence.toInt = v.ticket p.position := by
    intro p hp
    obtain ⟨hticket, hlt⟩ := h.tickets p hp
    rw [hticket]
    exact sequenceOf_toInt (hlt.trans_le h.bound)
  refine ⟨hretained.client_eq, hretained.bounded, h.positions, ?_, ?_, ?_⟩
  · refine h.sorted.imp_of_mem ?_
    intro a b ha hb hlt
    rw [Int32.lt_iff_toInt_lt, hnumber a ha, hnumber b hb]
    exact Int.ofNat_lt.mpr hlt
  · intro ticket hticket p hp
    have hlt := h.settled ticket hticket p hp
    have hissued := (h.tickets p hp).2
    have hbound := h.bound
    rw [Int32.lt_iff_toInt_lt, hnumber p hp, sequenceOf_toInt (by omega)]
    exact Int.ofNat_lt.mpr hlt
  · intro ticket hticket hlast
    have hnone : v.tracker.predictions = [] := by
      refine List.eq_nil_iff_forall_not_mem.mpr fun p hp => ?_
      have hlt := h.settled ticket hticket p hp
      have hissued := (h.tickets p hp).2
      omega
    rw [hretained.client_eq, hnone]
    rfl

/-- Predictions, updates and acknowledgements in any order leave the client with the
server's world under what it still predicts. -/
theorem client_overlaid (blocks : Blocks) (events : List InteractionEvent) (v : View)
    (hrun : Run (fun v event v' => v.Step event v' ∧ InTime v event ∧ Observed v event)
      (View.start blocks) events v) :
    Overlaid v := by
  have hboth : Sequenced v ∧ Retained v := by
    refine hrun.invariant (I := fun v => Sequenced v ∧ Retained v) ?_
      ⟨sequenced_start blocks, retained_start blocks⟩
    intro v event v' h hstep
    obtain ⟨hsequenced, hretained⟩ := h
    obtain ⟨⟨hpossible, rfl⟩, htime, hobserved⟩ := hstep
    exact ⟨hsequenced.step hpossible htime, hretained.step hsequenced hobserved⟩
  exact hboth.1.overlaid hboth.2

/-- A block is broken and placed again before the first acknowledgement arrives, and the
server changes it twice in one batch. -/
def busyBlock : List InteractionEvent :=
  [.predict ⟨2, 64, -3⟩ ⟨5⟩ ⟨0⟩ origin, .predict ⟨2, 64, -3⟩ ⟨5⟩ ⟨6⟩ origin, .acknowledge 0,
    .receive [⟨⟨2, 64, -3⟩, ⟨9⟩⟩, ⟨⟨2, 64, -3⟩, ⟨7⟩⟩, ⟨⟨0, 0, 0⟩, ⟨8⟩⟩], .acknowledge 1]

theorem client_overlaid_busyBlock :
    ∃ v, Run View.Step (View.start fun _ => ⟨5⟩) busyBlock v ∧ Overlaid v ∧
      v.client ⟨2, 64, -3⟩ = ⟨7⟩ := by
  have hrun : ∃ v, Run (fun v event v' => v.Step event v' ∧ InTime v event ∧ Observed v event)
      (View.start fun _ => ⟨5⟩) busyBlock v ∧ v.client ⟨2, 64, -3⟩ = ⟨7⟩ :=
    ⟨_, .cons ⟨⟨trivial, rfl⟩, by decide, fun _ => rfl⟩
      (.cons ⟨⟨trivial, rfl⟩, by decide, fun _ => rfl⟩
        (.cons ⟨⟨by decide, rfl⟩, trivial, trivial⟩
          (.cons ⟨⟨trivial, rfl⟩, trivial, trivial⟩
            (.cons ⟨⟨by decide, rfl⟩, trivial, trivial⟩ (.nil _))))), by decide⟩
  obtain ⟨v, hrun, hclient⟩ := hrun
  exact ⟨v, hrun.mono fun _ _ _ h => h.1, client_overlaid _ _ v hrun, hclient⟩

end Cubic.Interaction
