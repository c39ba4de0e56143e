import Cubic.Codec.Position
import Cubic.Interaction.View
import Cubic.World.BlockTable

/-!
# The interaction tick (`BlockInteractionTracker::tick`)

The dig in progress, the delay after it, and what a tick makes of the controls. The block
that the ray meets is given. Of the packets sent there is only that a position must have
an encoding; otherwise the tick fails, and with it the session.
-/

namespace Cubic.Interaction

set_option autoImplicit false

open World

inductive BlockFace where
  | down
  | up
  | north
  | south
  | west
  | east
  deriving DecidableEq

def adjacentPosition (position : BlockCoordinates) : BlockFace → BlockCoordinates
  | .down => { position with y := position.y - 1 }
  | .up => { position with y := position.y + 1 }
  | .north => { position with z := position.z - 1 }
  | .south => { position with z := position.z + 1 }
  | .west => { position with x := position.x - 1 }
  | .east => { position with x := position.x + 1 }

structure BlockTarget where
  position : BlockCoordinates
  state : RuntimeBlockStateId
  face : BlockFace
  deriving DecidableEq

structure ActiveBreak where
  target : BlockTarget
  progress : F32
  deriving DecidableEq

/-- What is known of blocks and items, and the addition of `f32`. -/
structure BlockOutlineProfile where
  destroyProgress : RuntimeBlockStateId → Option MinecraftIdentifier → F32
  add : F32 → F32 → F32
  airState : Option RuntimeBlockStateId
  safePlacementState : MinecraftIdentifier → Option RuntimeBlockStateId

/-- The tracker with its dig. -/
structure InteractionState where
  tracker : BlockInteractionTracker
  activeBreak : Option ActiveBreak
  destroyDelay : UInt8
  deriving DecidableEq

def creativeDestroyDelayTicks : UInt8 := 5

/-- What a tick is given beside the world. -/
structure InteractionInput where
  /-- Where the ray meets a block, and on which face. -/
  ray : Option (BlockCoordinates × BlockFace)
  attack : Bool
  attackChanged : Bool
  usePresses : Nat
  heldItem : Option MinecraftIdentifier
  offhandItem : Option MinecraftIdentifier
  pose : LocalPlayerPose

abbrev InteractionM := Mut InteractionState CodecError

def protocolPosition (position : BlockCoordinates) : InteractionM Unit := do
  let _ ← Mut.ofExcept (BlockPosition.new position.x position.y position.z)
  pure ()

def takeSequence : InteractionM Int32 := do
  let s ← Mut.get
  Mut.set { s with tracker := s.tracker.sequence.2 }
  pure s.tracker.sequence.1

/-- `register_prediction`, and the update it stands for if it was registered. -/
def register (sequence : Int32) (position : BlockCoordinates)
    (observed expected : RuntimeBlockStateId) (pose : LocalPlayerPose) :
    InteractionM (Option BlockStateUpdate) := do
  let s ← Mut.get
  let registered := s.tracker.registerPrediction sequence position observed expected pose
  Mut.set { s with tracker := registered.2 }
  pure (if registered.1 then some ⟨position, expected⟩ else none)

def creativeAttackReady (attack attackChanged hasTarget : Bool) : InteractionM Bool := do
  let s ← Mut.get
  if attack && attackChanged then do
    Mut.set { s with destroyDelay := creativeDestroyDelayTicks }
    pure hasTarget
  else if !attack then pure false
  else if 0 < s.destroyDelay then do
    Mut.set { s with destroyDelay := s.destroyDelay - 1 }
    pure false
  else if hasTarget then do
    Mut.set { s with destroyDelay := creativeDestroyDelayTicks }
    pure true
  else pure false

def digCreative (input : InteractionInput) (target : Option BlockTarget) : InteractionM Unit := do
  Mut.modify fun s => { s with activeBreak := none }
  let ready ← creativeAttackReady input.attack input.attackChanged target.isSome
  match ready, target with
  | true, some target => do
    let _ ← takeSequence
    protocolPosition target.position
  | _, _ => pure ()

/-- The dig ends when attack is released or the ray has left its block. -/
def abortBreak (attack : Bool) (target : Option BlockTarget) : InteractionM Unit := do
  let s ← Mut.get
  match s.activeBreak with
  | none => pure ()
  | some active =>
    if !attack || target.all (fun target => target.position ≠ active.target.position) then do
      Mut.set { s with activeBreak := none }
      let _ ← takeSequence
      protocolPosition active.target.position
    else pure ()

def startBreak (target : BlockTarget) : InteractionM Unit := do
  let _ ← takeSequence
  protocolPosition target.position
  Mut.modify fun s => { s with activeBreak := some ⟨target, F32.zero⟩ }

section
variable {Rest : Type} (profile : BlockOutlineProfile) (world : WorldState Rest)

def InteractionInput.target (input : InteractionInput) : Option BlockTarget :=
  input.ray.bind fun (position, face) =>
    (BlockLookup.raycast.read world position).map fun state => ⟨position, state, face⟩

/-- The completed dig is predicted with the state that its block had when it began. -/
def completeBreak (completed : BlockTarget) (pose : LocalPlayerPose) :
    InteractionM (Option BlockStateUpdate) := do
  Mut.modify fun s => { s with activeBreak := none }
  let sequence ← takeSequence
  protocolPosition completed.position
  let prediction ← (match profile.airState with
    | none => pure none
    | some air => register sequence completed.position completed.state air pose)
  Mut.modify fun s => { s with destroyDelay := creativeDestroyDelayTicks }
  pure prediction

def advanced (active : ActiveBreak) (heldItem : Option MinecraftIdentifier) : F32 :=
  profile.add active.progress (profile.destroyProgress active.target.state heldItem)

def digSurvival (input : InteractionInput) (target : Option BlockTarget) :
    InteractionM (Option BlockStateUpdate) := do
  let s ← Mut.get
  if 0 < s.destroyDelay then do
    Mut.set { s with destroyDelay := s.destroyDelay - 1 }
    pure none
  else do
    abortBreak input.attack target
    let s ← Mut.get
    match s.activeBreak, target with
    | some active, _ =>
      if input.attack then do
        let progress := advanced profile active input.heldItem
        Mut.set { s with activeBreak := some { active with progress } }
        if F32.one.le progress then completeBreak profile active.target input.pose
        else pure none
      else pure none
    | none, some target =>
      if input.attack && F32.zero.lt (profile.destroyProgress target.state input.heldItem) then do
        startBreak target
        pure none
      else pure none
    | none, none => pure none

inductive InteractionHand where
  | main
  | off

def selectInteractionHand (mainHandPresent offHandPresent mainHandConsumes : Bool) :
    InteractionHand :=
  if offHandPresent && (!mainHandPresent || !mainHandConsumes) then .off else .main

def usedItem (input : InteractionInput) : Option MinecraftIdentifier :=
  match selectInteractionHand input.heldItem.isSome input.offhandItem.isSome
    (input.heldItem.any fun item => (profile.safePlacementState item).isSome) with
  | .main => input.heldItem
  | .off => input.offhandItem

/-- One press of use. Only the first prediction of a tick is made. -/
def useOnce (input : InteractionInput) (target : Option BlockTarget)
    (predicted : Option BlockStateUpdate) : InteractionM (Option BlockStateUpdate) := do
  let sequence ← takeSequence
  match target with
  | none => pure predicted
  | some target => do
    protocolPosition target.position
    match predicted, (usedItem profile input).bind profile.safePlacementState, profile.airState with
    | none, some state, some air =>
      if world.worldBlockState (adjacentPosition target.position target.face) = some air then
        register sequence (adjacentPosition target.position target.face) air state input.pose
      else pure none
    | predicted, _, _ => pure predicted

def useAll (input : InteractionInput) (target : Option BlockTarget) :
    Nat → Option BlockStateUpdate → InteractionM (Option BlockStateUpdate)
  | 0, predicted => pure predicted
  | n + 1, predicted => do
    let predicted ← useOnce profile world input target predicted
    useAll input target n predicted

/-- The block update that the tick predicts, if any. -/
def tick (input : InteractionInput) : InteractionM (Option BlockStateUpdate) :=
  match world.session with
  | none => do
    Mut.modify fun s => { s with activeBreak := none, destroyDelay := 0 }
    pure none
  | some session => do
    let target := input.target world
    let predicted ← (if session.spawnContext.gameMode = .creative then do
        digCreative input target
        pure none
      else digSurvival profile input target)
    useAll profile world input target input.usePresses predicted

end

/-! ### The dig that is predicted -/

section
variable {Rest : Type} (profile : BlockOutlineProfile) (world : WorldState Rest)

/-- The dig goes on. -/
def goesOn (input : InteractionInput) (target : Option BlockTarget) (active : ActiveBreak) : Bool :=
  input.attack && target.any fun target => target.position = active.target.position

/-- The block whose dig is completed. -/
def completes (s : InteractionState) (input : InteractionInput) (target : Option BlockTarget) :
    Option BlockTarget :=
  if 0 < s.destroyDelay then none
  else (s.activeBreak.filter (goesOn input target)).bind fun active =>
    if F32.one.le (advanced profile active input.heldItem) then some active.target else none

/-- A prediction for the block can be registered, and is a new one. -/
def HasRoom (predictions : List BlockPrediction) (block : BlockTarget) : Prop :=
  profile.airState.isSome ∧ predictions.length ≠ maxBlockPredictions ∧
    ∀ q ∈ predictions, q.position ≠ block.position

instance (predictions : List BlockPrediction) (block : BlockTarget) :
    Decidable (HasRoom profile predictions block) :=
  inferInstanceAs (Decidable (_ ∧ _ ∧ _))

/-- The block of a completed dig whose state is retained as the server's. -/
def captured (s : InteractionState) (input : InteractionInput) : Option BlockTarget :=
  world.session.bind fun session =>
    if session.spawnContext.gameMode = .creative then none
    else (completes profile s input (input.target world)).filter fun block =>
      HasRoom profile s.tracker.predictions block

end

/-! ### What a tick does to the predictions -/

section
variable {s : InteractionState} {source : BlockPrediction → Prop} {before : List BlockPrediction}

theorem wp_takeSequence {Q : Post CodecError InteractionState Int32} :
    Mut.wp takeSequence Q s ↔
      Q.ok s.tracker.sequence.1 { s with tracker := s.tracker.sequence.2 } := by
  simp only [takeSequence, Mut.wp_bind, Mut.wp_get, Mut.wp_set, Mut.wp_pure]

theorem wp_protocolPosition {Q : Post CodecError InteractionState Unit} {position : BlockCoordinates}
    (hok : Q.ok () s) (herr : ∀ e, Q.err e s) : Mut.wp (protocolPosition position) Q s := by
  unfold protocolPosition
  rw [Mut.wp_bind, Mut.wp_ofExcept]
  cases BlockPosition.new position.x position.y position.z with
  | ok p => exact hok
  | error e => exact herr e

theorem wp_takeSequence_bind {β : Type} {f : Int32 → InteractionM β}
    {Q : Post CodecError InteractionState β} :
    Mut.wp (takeSequence >>= f) Q s ↔
      Mut.wp (f s.tracker.sequence.1) Q { s with tracker := s.tracker.sequence.2 } := by
  rw [Mut.wp_bind, wp_takeSequence]

theorem wp_protocolPosition_bind {β : Type} {f : Unit → InteractionM β}
    {R : β → InteractionState → Prop} {position : BlockCoordinates}
    (h : Mut.wp (f ()) (Post.onOk R) s) :
    Mut.wp (protocolPosition position >>= f) (Post.onOk R) s :=
  (Mut.wp_bind _ _).mpr (wp_protocolPosition h fun _ => trivial)

theorem wp_modify_bind {β : Type} {f : Unit → InteractionM β}
    {Q : Post CodecError InteractionState β} (g : InteractionState → InteractionState) :
    Mut.wp (Mut.modify g >>= f) Q s ↔ Mut.wp (f ()) Q (g s) := by
  rw [Mut.wp_bind, Mut.wp_modify]

/-- The predictions after a tick, with the update predicted: none is new, or the one that
goes last is, in place of the one at its position. -/
inductive Predicts (source : BlockPrediction → Prop) (before : List BlockPrediction) :
    List BlockPrediction → Option BlockStateUpdate → Prop where
  | nothing : Predicts source before before none
  | appended {kept : List BlockPrediction} {new : BlockPrediction} :
    List.Sublist kept before → (∀ q, q ∈ kept ↔ q ∈ before ∧ q.position ≠ new.position) →
      source new → Predicts source before (kept ++ [new]) (some ⟨new.position, new.expected⟩)

theorem Predicts.weaken {source' : BlockPrediction → Prop} {after : List BlockPrediction}
    {update : Option BlockStateUpdate} (h : Predicts source before after update)
    (hsource : ∀ p, source p → source' p) : Predicts source' before after update := by
  cases h with
  | nothing => exact .nothing
  | appended hsublist hmem hnew => exact .appended hsublist hmem (hsource _ hnew)

/-- The state retained with a prediction was retained before. -/
def WasRetained (before : List BlockPrediction) (p : BlockPrediction) : Prop :=
  ∃ old ∈ before, old.position = p.position ∧ p.serverState = old.serverState

def Unpredicted (before : List BlockPrediction) (position : BlockCoordinates) : Prop :=
  ∀ q ∈ before, q.position ≠ position

/-- Without a prediction at the position a new one is made, as long as there is room. -/
theorem registerPrediction_fresh {tracker : BlockInteractionTracker} {position : BlockCoordinates}
    (h : Unpredicted tracker.predictions position) (sequence : Int32)
    (observed expected : RuntimeBlockStateId) (pose : LocalPlayerPose) :
    tracker.registerPrediction sequence position observed expected pose =
      if tracker.predictions.length = maxBlockPredictions then (false, tracker)
      else (true, { tracker with predictions := tracker.predictions ++
        [⟨sequence, position, observed, expected, ⟨pose.x, pose.y, pose.z⟩⟩] }) := by
  have hfind : tracker.predictions.find? (fun p => p.position = position) = none := by
    rw [List.find?_eq_none]
    intro q hq hposition
    exact h q hq (of_decide_eq_true hposition)
  unfold BlockInteractionTracker.registerPrediction
  rw [hfind]

/-- What is known of a prediction for a position that was observed. -/
def Observes (before : List BlockPrediction) (position : BlockCoordinates)
    (observed : RuntimeBlockStateId) (p : BlockPrediction) : Prop :=
  Unpredicted before position ∧ before.length ≠ maxBlockPredictions ∧ p.position = position ∧
    p.serverState = observed

theorem register_spec (hbefore : s.tracker.predictions = before)
    (h : (before.map BlockPrediction.position).Nodup) (sequence : Int32)
    (position : BlockCoordinates) (observed expected : RuntimeBlockStateId)
    (pose : LocalPlayerPose) :
    Mut.wp (register sequence position observed expected pose)
      (Post.onOk fun update t =>
        Predicts (fun p => WasRetained before p ∨ Observes before position observed p) before
          t.tracker.predictions update ∧
        (Unpredicted before position → before.length ≠ maxBlockPredictions →
          update.isSome ∧ ∃ new ∈ t.tracker.predictions, new.position = position ∧
            new.serverState = observed)) s := by
  subst hbefore
  simp only [register, Mut.wp_bind, Mut.wp_get, Mut.wp_set, Mut.wp_pure]
  by_cases hfresh : Unpredicted s.tracker.predictions position
  · rw [registerPrediction_fresh hfresh]
    by_cases hfull : s.tracker.predictions.length = maxBlockPredictions
    · rw [if_pos hfull]
      exact ⟨.nothing, fun _ hroom => absurd hfull hroom⟩
    · rw [if_neg hfull]
      refine ⟨?_, fun _ _ => ⟨rfl, _, List.mem_append_right _ List.mem_cons_self, rfl, rfl⟩⟩
      apply Predicts.appended (List.Sublist.refl _)
      · exact fun q => ⟨fun hq => ⟨hq, hfresh q hq⟩, And.left⟩
      · exact Or.inr ⟨hfresh, hfull, rfl, rfl⟩
  · refine ⟨?_, fun hnone => absurd hnone hfresh⟩
    rcases registerPrediction_cases h sequence position observed expected pose with
      hnot | ⟨kept, new, hregister, hnew⟩
    · rw [hnot]
      exact .nothing
    · rw [hregister]
      have hupdate : (⟨position, expected⟩ : BlockStateUpdate) = ⟨new.position, new.expected⟩ := by
        rw [hnew.position_eq, hnew.expected_eq]
      rw [if_pos rfl, hupdate]
      apply Predicts.appended hnew.sublist
      · rw [hnew.position_eq]
        exact hnew.mem_iff
      · rcases hnew.retained with ⟨old, hold, hposition, hstate⟩ | ⟨hnone, _⟩
        · exact Or.inl ⟨old, hold, hposition.trans hnew.position_eq.symm, hstate⟩
        · exact absurd hnone hfresh

/-! ### The parts of a tick -/

theorem creativeAttackReady_spec (attack attackChanged hasTarget : Bool) :
    Mut.wp (creativeAttackReady attack attackChanged hasTarget)
      (Post.onOk fun _ t => t.tracker = s.tracker) s := by
  unfold creativeAttackReady
  rw [Mut.wp_bind, Mut.wp_get]
  dsimp only
  split_ifs <;> exact rfl

theorem digCreative_spec (input : InteractionInput) (target : Option BlockTarget) :
    Mut.wp (digCreative input target)
      (Post.onOk fun _ t => t.tracker.predictions = s.tracker.predictions) s := by
  unfold digCreative
  rw [wp_modify_bind]
  refine Mut.wp_seq (creativeAttackReady_spec ..) ?_ (fun _ _ _ => trivial) fun _ => trivial
  intro ready t ht
  have htracker : t.tracker = s.tracker := ht
  split
  · rw [wp_takeSequence_bind]
    apply wp_protocolPosition
    · change t.tracker.predictions = s.tracker.predictions
      rw [htracker]
    · exact fun _ => trivial
  · exact congrArg BlockInteractionTracker.predictions htracker

theorem aborts_eq (input : InteractionInput) (target : Option BlockTarget) (active : ActiveBreak) :
    (!input.attack || target.all fun target => target.position ≠ active.target.position) =
      !goesOn input target active := by
  unfold goesOn
  cases target with
  | none => simp
  | some target => simp [Bool.not_and]

theorem abortBreak_spec (input : InteractionInput) (target : Option BlockTarget) :
    Mut.wp (abortBreak input.attack target)
      (Post.onOk fun _ t => t.tracker.predictions = s.tracker.predictions ∧
        t.activeBreak = s.activeBreak.filter (goesOn input target)) s := by
  unfold abortBreak
  rw [Mut.wp_bind, Mut.wp_get]
  cases hactive : s.activeBreak with
  | none =>
    dsimp only
    rw [hactive]
    exact ⟨rfl, hactive⟩
  | some active =>
    dsimp only
    rw [hactive]
    dsimp only
    rw [aborts_eq]
    cases hgoes : goesOn input target active with
    | true =>
      refine ⟨rfl, hactive.trans ?_⟩
      rw [Option.filter_some, if_pos hgoes]
    | false =>
      have haborts : (!false) = true := rfl
      rw [if_pos haborts, Mut.wp_bind, Mut.wp_set]
      dsimp only
      rw [wp_takeSequence_bind]
      apply wp_protocolPosition
      · refine ⟨rfl, ?_⟩
        rw [Option.filter_some, if_neg (Bool.eq_false_iff.mp hgoes)]
      · exact fun _ => trivial

theorem startBreak_spec (target : BlockTarget) :
    Mut.wp (startBreak target)
      (Post.onOk fun _ t => t.tracker.predictions = s.tracker.predictions) s := by
  unfold startBreak
  rw [wp_takeSequence_bind]
  apply wp_protocolPosition_bind
  exact rfl

section
variable {Rest : Type} {profile : BlockOutlineProfile} {world : WorldState Rest}

/-- The prediction made for a block whose dig is completed. -/
def Captures (block : BlockTarget) (p : BlockPrediction) : Prop :=
  p.position = block.position ∧ p.serverState = block.state

theorem completeBreak_spec (hbefore : s.tracker.predictions = before)
    (h : (before.map BlockPrediction.position).Nodup) (block : BlockTarget)
    (pose : LocalPlayerPose) :
    Mut.wp (completeBreak profile block pose)
      (Post.onOk fun update t =>
        Predicts (fun p => WasRetained before p ∨ HasRoom profile before block ∧ Captures block p)
          before t.tracker.predictions update ∧
        (HasRoom profile before block →
          update.isSome ∧ ∃ new ∈ t.tracker.predictions, Captures block new)) s := by
  have hsame : ({ s with tracker := s.tracker.sequence.2, activeBreak := none } :
      InteractionState).tracker.predictions = before := hbefore
  unfold completeBreak
  rw [wp_modify_bind, wp_takeSequence_bind]
  apply wp_protocolPosition_bind
  rw [Mut.wp_bind]
  cases hair : profile.airState with
  | none =>
    refine ⟨hbefore ▸ .nothing, ?_⟩
    intro hroom
    have hsome := hroom.1
    rw [hair] at hsome
    cases hsome
  | some air =>
    dsimp only
    refine Mut.wp_mono (register_spec hsame h _ block.position block.state air pose) ?_
      (fun _ _ _ => trivial) fun _ => trivial
    rintro update t ⟨hpredicts, hfresh⟩
    refine ⟨hpredicts.weaken ?_, fun hroom => hfresh hroom.2.2 hroom.2.1⟩
    rintro p (hretained | ⟨hnone, hfull, hposition, hstate⟩)
    · exact Or.inl hretained
    · exact Or.inr ⟨⟨Option.isSome_of_eq_some hair, hfull, hnone⟩, hposition, hstate⟩

theorem digSurvival_spec (hbefore : s.tracker.predictions = before)
    (h : (before.map BlockPrediction.position).Nodup) (input : InteractionInput)
    (target : Option BlockTarget) :
    Mut.wp (digSurvival profile input target)
      (Post.onOk fun update t =>
        Predicts (fun p => WasRetained before p ∨ ∃ block ∈ completes profile s input target,
          HasRoom profile before block ∧ Captures block p) before t.tracker.predictions update ∧
        ∀ block ∈ completes profile s input target, HasRoom profile before block →
          update.isSome ∧ ∃ new ∈ t.tracker.predictions, Captures block new) s := by
  unfold digSurvival
  rw [Mut.wp_bind, Mut.wp_get]
  dsimp only
  by_cases hdelay : 0 < s.destroyDelay
  · have hnone : completes profile s input target = none := if_pos hdelay
    rw [if_pos hdelay, hnone]
    exact ⟨hbefore ▸ .nothing, nofun⟩
  rw [if_neg hdelay]
  refine Mut.wp_seq (abortBreak_spec input target) ?_ (fun _ _ _ => trivial) fun _ => trivial
  rintro _ t ⟨hpredictions, hactive⟩
  have hbefore' : t.tracker.predictions = before := hpredictions.trans hbefore
  rw [Mut.wp_bind, Mut.wp_get]
  dsimp only
  have hcompletes : completes profile s input target = t.activeBreak.bind fun active =>
      if F32.one.le (advanced profile active input.heldItem) then some active.target else none := by
    unfold completes
    rw [if_neg hdelay, hactive]
  cases hdig : t.activeBreak with
  | none =>
    have hnone : completes profile s input target = none := by
      rw [hcompletes, hdig]
      rfl
    have hnothing {u : InteractionState} (hu : u.tracker.predictions = before) :
        Predicts (fun p => WasRetained before p ∨ ∃ block ∈ completes profile s input target,
          HasRoom profile before block ∧ Captures block p) before u.tracker.predictions none ∧
        ∀ block ∈ completes profile s input target, HasRoom profile before block →
          (none : Option BlockStateUpdate).isSome ∧ ∃ new ∈ u.tracker.predictions,
            Captures block new := by
      rw [hnone]
      exact ⟨hu ▸ .nothing, nofun⟩
    cases target with
    | none => exact hnothing hbefore'
    | some target =>
      dsimp only
      split
      · refine Mut.wp_seq (startBreak_spec target) ?_ (fun _ _ _ => trivial) fun _ => trivial
        intro _ u hu
        exact hnothing (hu.trans hbefore')
      · exact hnothing hbefore'
  | some active =>
    dsimp only
    have hattack : input.attack = true := by
      obtain ⟨_, hgoes⟩ := Option.filter_eq_some_iff.mp (hactive.symm.trans hdig)
      exact (Bool.and_eq_true_iff.mp hgoes).1
    rw [if_pos hattack, Mut.wp_bind, Mut.wp_set]
    dsimp only
    by_cases hdone : F32.one.le (advanced profile active input.heldItem) = true
    · have hsome : completes profile s input target = some active.target := by
        rw [hcompletes, hdig]
        exact if_pos hdone
      rw [if_pos hdone, hsome]
      refine Mut.wp_mono (completeBreak_spec hbefore' h active.target input.pose) ?_
        (fun _ _ _ => trivial) fun _ => trivial
      rintro update u ⟨hpredicts, hmade⟩
      refine ⟨hpredicts.weaken ?_, ?_⟩
      · intro p hp
        exact hp.imp_right fun hcaptures => ⟨active.target, rfl, hcaptures⟩
      · rintro block ⟨⟩ hroom
        exact hmade hroom
    · have hnone : completes profile s input target = none := by
        rw [hcompletes, hdig]
        exact if_neg hdone
      rw [if_neg hdone, hnone]
      exact ⟨hbefore' ▸ .nothing, nofun⟩

/-- A new prediction for a placement retains the state that the world has there. -/
def Reads (world : WorldState Rest) (before : List BlockPrediction) (p : BlockPrediction) : Prop :=
  Unpredicted before p.position ∧ world.worldBlockState p.position = some p.serverState

theorem useOnce_spec (hbefore : s.tracker.predictions = before)
    (h : (before.map BlockPrediction.position).Nodup) (input : InteractionInput)
    (target : Option BlockTarget) :
    Mut.wp (useOnce profile world input target none)
      (Post.onOk fun update t =>
        Predicts (fun p => WasRetained before p ∨ Reads world before p) before
          t.tracker.predictions update) s := by
  unfold useOnce
  rw [wp_takeSequence_bind]
  cases target with
  | none =>
    rw [← hbefore]
    exact .nothing
  | some target =>
    apply wp_protocolPosition_bind
    split
    · split
      · rename_i air _ _ hair
        have hsame : ({ s with tracker := s.tracker.sequence.2 } :
            InteractionState).tracker.predictions = before := hbefore
        refine Mut.wp_mono (register_spec hsame h _ _ _ _ _) ?_ (fun _ _ _ => trivial)
          fun _ => trivial
        rintro update t ⟨hpredicts, _⟩
        refine hpredicts.weaken fun p hp => hp.imp_right ?_
        rintro ⟨hfresh, _, hposition, hstate⟩
        rw [← hposition] at hfresh hair
        exact ⟨hfresh, hair.trans (congrArg some hstate.symm)⟩
      · rw [← hbefore]
        exact .nothing
    · rw [← hbefore]
      exact .nothing

/-- Once there is a prediction, use makes no other. -/
theorem useOnce_some (input : InteractionInput) (target : Option BlockTarget)
    (predicted : BlockStateUpdate) :
    Mut.wp (useOnce profile world input target (some predicted))
      (Post.onOk fun update t => update = some predicted ∧
        t.tracker.predictions = s.tracker.predictions) s := by
  unfold useOnce
  rw [wp_takeSequence_bind]
  cases target with
  | none => exact ⟨rfl, rfl⟩
  | some target =>
    apply wp_protocolPosition_bind
    exact ⟨rfl, rfl⟩

theorem useAll_some (input : InteractionInput) (target : Option BlockTarget)
    (predicted : BlockStateUpdate) (n : Nat) : ∀ {s : InteractionState},
    Mut.wp (useAll profile world input target n (some predicted))
      (Post.onOk fun update t => update = some predicted ∧
        t.tracker.predictions = s.tracker.predictions) s := by
  induction n with
  | zero => exact fun {s} => ⟨rfl, rfl⟩
  | succ n ih =>
    intro s
    refine Mut.wp_seq (useOnce_some input target predicted) ?_ (fun _ _ _ => trivial)
      fun _ => trivial
    rintro update t ⟨rfl, ht⟩
    refine Mut.wp_mono ih ?_ (fun _ _ _ => trivial) fun _ => trivial
    rintro update u ⟨hupdate, hu⟩
    exact ⟨hupdate, hu.trans ht⟩

/-- What the uses of a tick add to what the dig predicted. -/
theorem useAll_spec (h : (before.map BlockPrediction.position).Nodup) (input : InteractionInput)
    (target : Option BlockTarget) (n : Nat) :
    ∀ {dug : BlockPrediction → Prop} {update : Option BlockStateUpdate} {s : InteractionState},
      Predicts (fun p => WasRetained before p ∨ dug p) before s.tracker.predictions update →
        Mut.wp (useAll profile world input target n update)
          (Post.onOk fun update' t =>
            Predicts (fun p => WasRetained before p ∨ dug p ∨ Reads world before p) before
              t.tracker.predictions update' ∧
            (update.isSome → t.tracker.predictions = s.tracker.predictions)) s := by
  induction n with
  | zero =>
    intro dug update s hpredicts
    exact ⟨hpredicts.weaken fun p hp => hp.imp_right Or.inl, fun _ => rfl⟩
  | succ n ih =>
    intro dug update s hpredicts
    cases update with
    | some predicted =>
      refine Mut.wp_mono (useAll_some input target predicted (n + 1)) ?_ (fun _ _ _ => trivial)
        fun _ => trivial
      rintro update u ⟨rfl, hu⟩
      refine ⟨?_, fun _ => hu⟩
      rw [hu]
      exact hpredicts.weaken fun p hp => hp.imp_right Or.inl
    | none =>
      have hbefore : s.tracker.predictions = before := by
        generalize s.tracker.predictions = after at hpredicts
        cases hpredicts
        rfl
      refine Mut.wp_seq (useOnce_spec hbefore h input target) ?_ (fun _ _ _ => trivial)
        fun _ => trivial
      intro update t ht
      refine Mut.wp_mono (ih ht) ?_ (fun _ _ _ => trivial) fun _ => trivial
      rintro update' u ⟨hlater, _⟩
      refine ⟨hlater.weaken fun p hp => hp.imp_right ?_, nofun⟩
      rintro (hreads | hreads)
      · exact Or.inr hreads
      · exact Or.inr hreads

/-- What a tick may predict, and what it is sure to. -/
theorem tick_spec (h : (s.tracker.predictions.map BlockPrediction.position).Nodup)
    (input : InteractionInput) :
    Mut.wp (tick profile world input)
      (Post.onOk fun update t =>
        Predicts (fun p => WasRetained s.tracker.predictions p ∨
            (∃ block ∈ captured profile world s input, Captures block p) ∨
            Reads world s.tracker.predictions p)
          s.tracker.predictions t.tracker.predictions update ∧
        ∀ block ∈ captured profile world s input,
          ∃ new ∈ t.tracker.predictions, Captures block new) s := by
  unfold tick captured
  cases world.session with
  | none => exact ⟨.nothing, nofun⟩
  | some session =>
    dsimp only [Option.bind_some]
    by_cases hcreative : session.spawnContext.gameMode = .creative
    · rw [if_pos hcreative, if_pos hcreative, Mut.wp_bind]
      refine Mut.wp_seq (digCreative_spec input _) ?_ (fun _ _ _ => trivial) fun _ => trivial
      intro _ t ht
      have hpredictions : t.tracker.predictions = s.tracker.predictions := ht
      have hnothing : Predicts (fun p => WasRetained s.tracker.predictions p ∨ False)
          s.tracker.predictions t.tracker.predictions none := by
        rw [hpredictions]
        exact .nothing
      rw [Mut.wp_pure]
      refine Mut.wp_mono (useAll_spec h input _ _ hnothing) ?_ (fun _ _ _ => trivial)
        fun _ => trivial
      rintro update u ⟨hpredicts, _⟩
      exact ⟨hpredicts.weaken fun p hp => hp.imp_right fun h => Or.inr (h.resolve_left id), nofun⟩
    · rw [if_neg hcreative, if_neg hcreative]
      refine Mut.wp_seq (digSurvival_spec rfl h input _) ?_ (fun _ _ _ => trivial) fun _ => trivial
      rintro update t ⟨hpredicts, hmade⟩
      refine Mut.wp_mono (useAll_spec h input _ _ hpredicts) ?_ (fun _ _ _ => trivial)
        fun _ => trivial
      rintro update' u ⟨hpredicts', hsame⟩
      refine ⟨hpredicts'.weaken fun p hp => hp.imp_right (Or.imp_left ?_), ?_⟩
      · rintro ⟨block, hblock, hroom, hcaptures⟩
        refine ⟨block, ?_, hcaptures⟩
        exact Option.mem_filter_iff.mpr ⟨hblock, decide_eq_true hroom⟩
      · intro block hblock
        obtain ⟨hblock, hroom⟩ := Option.mem_filter_iff.mp hblock
        obtain ⟨hsome, new, hnew, hcaptures⟩ := hmade block hblock (of_decide_eq_true hroom)
        rw [hsame hsome]
        exact ⟨new, hnew, hcaptures⟩

end

end

end Cubic.Interaction
