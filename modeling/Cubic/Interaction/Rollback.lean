import Cubic.Interaction.Digging

/-!
# The state retained for a rollback

The server sends blocks in updates and in chunks. Only the updates pass through the tracker.
-/

namespace Cubic.Interaction

set_option autoImplicit false

open World

structure Scene (Rest : Type) where
  interaction : InteractionState
  world : WorldState Rest
  /-- The last state that the server has sent for each position. -/
  told : LoadedBlocks

inductive SceneEvent where
  | tick (input : InteractionInput)
  | receive (updates : List BlockStateUpdate)
  | acknowledge (sequence : Int32)
  | loadChunk (chunk : Chunk)
  | unloadChunk (coordinate : ChunkCoordinate)

def InteractionState.new : InteractionState := ⟨.new, none, 0⟩

namespace Scene
variable {Rest : Type}

/-- No block was sent yet. -/
def enter (world : WorldState Rest) : Scene Rest := ⟨InteractionState.new, world, fun _ => none⟩

def withTracker (scene : Scene Rest) (tracker : BlockInteractionTracker) : Scene Rest :=
  { scene with interaction := { scene.interaction with tracker } }

/-- Blocks are written to the world; an error there ends the session. -/
def write (scene : Scene Rest) (updates : List BlockStateUpdate) : Option (Scene Rest) :=
  match WorldState.applyBlockUpdates updates scene.world with
  | .ok _ world => some { scene with world }
  | _ => none

/-- What a tick predicts is written at once. -/
def predict (scene : Scene Rest) : Option BlockStateUpdate → Option (Scene Rest)
  | none => some scene
  | some update => scene.write [update]

def apply (sums : FloatSums) (scene : Scene Rest) (event : WorldEvent) : Option (Scene Rest) :=
  match WorldState.apply sums event scene.world with
  | .ok _ world => some { scene with world }
  | _ => none

def next (profile : BlockOutlineProfile) (sums : FloatSums) (scene : Scene Rest) :
    SceneEvent → Option (Scene Rest)
  | .tick input =>
    match tick profile scene.world input scene.interaction with
    | .ok update interaction => { scene with interaction }.predict update
    | _ => none
  | .receive updates =>
    let (immediate, tracker) := scene.interaction.tracker.reconcileBlockUpdates updates
    { scene.withTracker tracker with
      told := fun p => (lastStateAt updates p).or (scene.told p) }.write immediate
  | .acknowledge sequence =>
    let (resolution, tracker) := scene.interaction.tracker.acknowledge sequence
    if resolution.updates = [] then some (scene.withTracker tracker)
    else (scene.withTracker tracker).write resolution.updates
  | .loadChunk chunk =>
    { scene with told := fun p => (scene.world.chunkBlocks chunk p).or (scene.told p) }.apply sums
      (.loadChunk chunk)
  | .unloadChunk coordinate => scene.apply sums (.unloadChunk coordinate)

end Scene

/-- Chunks are loaded as the decoder hands them over. -/
def SceneEvent.Decoded (layout : NbtLayout) : SceneEvent → Prop
  | loadChunk chunk => ∃ payload, receiveLevelChunk layout payload = some chunk
  | _ => True

def Scene.Step {Rest : Type} (profile : BlockOutlineProfile) (sums : FloatSums) (layout : NbtLayout)
    (scene : Scene Rest) (event : SceneEvent) (scene' : Scene Rest) : Prop :=
  scene.next profile sums event = some scene' ∧ event.Decoded layout

/-- What is retained for the pending predictions, and what an acknowledgement would write, is
what the server has sent last. -/
structure Scene.Honest {Rest : Type} (scene : Scene Rest) : Prop where
  retained : ∀ p ∈ scene.interaction.tracker.predictions,
    scene.told p.position = some p.serverState
  written : ∀ sequence, ∀ update ∈ (scene.interaction.tracker.acknowledge sequence).1.updates,
    scene.told update.position = some update.state

/-- A dig that is completed finds its block as the server has sent it last, and a chunk holds
at the pending predictions what is retained with them. -/
def Scene.Meets {Rest : Type} (profile : BlockOutlineProfile) (scene : Scene Rest) :
    SceneEvent → Prop
  | .tick input => ∀ block ∈ captured profile scene.world scene.interaction input,
    scene.told block.position = some block.state
  | .loadChunk chunk => ∀ p ∈ scene.interaction.tracker.predictions,
    (scene.world.chunkBlocks chunk p.position).all (fun state => state = p.serverState)
  | _ => True

instance {Rest : Type} (profile : BlockOutlineProfile) (scene : Scene Rest) (event : SceneEvent) :
    Decidable (scene.Meets profile event) := by
  cases event with
  | tick input => exact inferInstanceAs (Decidable (∀ block ∈ captured _ _ _ _, _))
  | loadChunk chunk => exact inferInstanceAs (Decidable (∀ p ∈ _, _))
  | receive updates => exact isTrue trivial
  | acknowledge sequence => exact isTrue trivial
  | unloadChunk coordinate => exact isTrue trivial

/-! ### What the server has sent last -/

theorem lastStateAt_cons (update : BlockStateUpdate) (rest : List BlockStateUpdate)
    (p : BlockCoordinates) : lastStateAt (update :: rest) p =
      (lastStateAt rest p).or (if update.position = p then some update.state else none) := by
  unfold lastStateAt
  by_cases hp : update.position = p
  · rw [List.filter_cons_of_pos (by simpa using hp), if_pos hp, List.getLast?_cons]
    cases (List.filter (fun update => decide (update.position = p)) rest).getLast? <;> rfl
  · rw [List.filter_cons_of_neg (by simpa using hp), if_neg hp, Option.or_none]

/-- Either there is an update for the position, or there is none and nothing is known. -/
theorem lastStateAt_cases (updates : List BlockStateUpdate) (p : BlockCoordinates) :
    (∃ state, lastStateAt updates p = some state ∧ ⟨p, state⟩ ∈ updates) ∨
      lastStateAt updates p = none ∧ ∀ update ∈ updates, update.position ≠ p := by
  induction updates with
  | nil => exact Or.inr ⟨rfl, nofun⟩
  | cons update rest ih =>
    rw [lastStateAt_cons]
    rcases ih with ⟨state, hstate, hmem⟩ | ⟨hnone, hrest⟩
    · rw [hstate]
      exact Or.inl ⟨state, rfl, List.mem_cons_of_mem _ hmem⟩
    · rw [hnone, Option.none_or]
      by_cases hp : update.position = p
      · rw [if_pos hp]
        exact Or.inl ⟨update.state, rfl, hp ▸ List.mem_cons_self⟩
      · rw [if_neg hp]
        exact Or.inr ⟨rfl, List.forall_mem_cons.mpr ⟨hp, hrest⟩⟩

theorem lastStateAt_filter {free : BlockStateUpdate → Bool} (updates : List BlockStateUpdate)
    {p : BlockCoordinates} (hp : ∀ update, update.position = p → free update = true) :
    lastStateAt (updates.filter free) p = lastStateAt updates p := by
  unfold lastStateAt
  rw [List.filter_filter]
  congr 2
  apply List.filter_congr
  intro update _
  by_cases heq : update.position = p
  · rw [hp update heq, Bool.and_true]
  · rw [decide_eq_false heq, Bool.false_and]

/-- The last state sent for a position is retained with its prediction. -/
def refreshed (updates : List BlockStateUpdate) (p : BlockPrediction) : BlockPrediction :=
  { p with serverState := (lastStateAt updates p.position).getD p.serverState }

theorem refreshed_cons (update : BlockStateUpdate) (rest : List BlockStateUpdate)
    (p : BlockPrediction) :
    refreshed (update :: rest) p = refreshed rest (retained update p) := by
  unfold refreshed
  rw [retained_position, lastStateAt_cons]
  unfold retained
  by_cases hp : p.position = update.position
  · rw [if_pos hp, if_pos hp.symm]
    cases lastStateAt rest p.position <;> rfl
  · rw [if_neg hp, if_neg (Ne.symm hp), Option.or_none]

theorem positions_retained (update : BlockStateUpdate) (predictions : List BlockPrediction) :
    (predictions.map (retained update)).map BlockPrediction.position =
      predictions.map BlockPrediction.position := by
  rw [List.map_map]
  exact List.map_congr_left fun p _ => retained_position update p

/-- No prediction is pending where the update goes. -/
def free (predictions : List BlockPrediction) (update : BlockStateUpdate) : Bool :=
  decide (update.position ∉ predictions.map BlockPrediction.position)

theorem free_iff {predictions : List BlockPrediction} {update : BlockStateUpdate} :
    free predictions update = true ↔ Unpredicted predictions update.position := by
  unfold free Unpredicted
  rw [decide_eq_true_iff, List.mem_map, not_exists]
  constructor
  · exact fun h q hq hposition => h q ⟨hq, hposition⟩
  · exact fun h q hq => h q hq.1 hq.2

theorem reconcile_eq (updates : List BlockStateUpdate) : ∀ {predictions : List BlockPrediction},
    (predictions.map BlockPrediction.position).Nodup →
      BlockInteractionTracker.reconcile updates predictions =
        (predictions.map (refreshed updates), updates.filter (free predictions)) := by
  induction updates with
  | nil =>
    intro predictions _
    exact Prod.ext (List.map_id predictions).symm rfl
  | cons update rest ih =>
    intro predictions h
    rw [BlockInteractionTracker.reconcile]
    have hcons : predictions.map (refreshed (update :: rest)) =
        (predictions.map (retained update)).map (refreshed rest) := by
      rw [List.map_map]
      exact List.map_congr_left fun p _ => refreshed_cons update rest p
    rcases retain_cases h update with ⟨hretain, hnone⟩ | ⟨⟨q, hq, hposition⟩, hretain⟩
    · have hsame : predictions.map (retained update) = predictions :=
        (List.map_congr_left fun p hp => if_neg (hnone p hp)).trans (List.map_id predictions)
      have hfree : free predictions update = true := free_iff.mpr hnone
      rw [hretain, ih h, List.filter_cons_of_pos hfree, hcons, hsame]
    · have hfree : ¬ free predictions update = true :=
        fun hfree => free_iff.mp hfree q hq hposition
      have hpositions := positions_retained update predictions
      have hretain' : BlockInteractionTracker.retain update predictions =
        some (predictions.map (retained update)) := hretain
      rw [hretain', List.filter_cons_of_neg hfree, hcons]
      refine (ih (hpositions.symm ▸ h)).trans (Prod.ext rfl ?_)
      unfold free
      rw [hpositions]

/-- An acknowledgement resolves the predictions at the front. -/
theorem acknowledge_split (tracker : BlockInteractionTracker) (sequence : Int32) :
    ∃ resolved, resolved ++ (tracker.acknowledge sequence).2.predictions = tracker.predictions ∧
      (tracker.acknowledge sequence).1.updates =
        resolved.map fun p => ⟨p.position, p.serverState⟩ := by
  by_cases hnew : 0 ≤ sequence ∧
    ∀ current, tracker.latestAcknowledged = some current → current < sequence
  · obtain ⟨hupdates, htracker⟩ := acknowledge_new hnew.1 hnew.2
    rw [hupdates, htracker]
    exact ⟨_, List.takeWhile_append_dropWhile, rfl⟩
  · rw [acknowledge_old hnew]
    exact ⟨[], rfl, rfl⟩

/-! ### What a step keeps -/

section
variable {Rest : Type} {scene scene' : Scene Rest} {profile : BlockOutlineProfile}
  {sums : FloatSums} {layout : NbtLayout}

/-- There is a session, and the blocks of its chunks can be read. -/
structure Playable (world : WorldState Rest) : Prop where
  session : ∃ session, world.session = some session ∧ session.dimensionGeometry.Valid
  readable : Readable world.chunks

/-- Beside what is retained, the blocks that are read are the server's unless predicted. -/
structure Agreed (scene : Scene Rest) : Prop where
  playable : Playable scene.world
  positions : (scene.interaction.tracker.predictions.map BlockPrediction.position).Nodup
  retained : ∀ p ∈ scene.interaction.tracker.predictions,
    scene.told p.position = some p.serverState
  read : ∀ position state, Unpredicted scene.interaction.tracker.predictions position →
    scene.world.worldBlockState position = some state → scene.told position = some state

theorem Agreed.honest (h : Agreed scene) : scene.Honest := by
  refine ⟨h.retained, ?_⟩
  intro sequence update hupdate
  obtain ⟨resolved, hsplit, hupdates⟩ := acknowledge_split scene.interaction.tracker sequence
  rw [hupdates] at hupdate
  obtain ⟨p, hp, rfl⟩ := List.mem_map.mp hupdate
  exact h.retained p (hsplit ▸ List.mem_append_left _ hp)

theorem write_spec {updates : List BlockStateUpdate} (h : Playable scene.world)
    (hwrite : scene.write updates = some scene') :
    ∃ world, scene' = { scene with world } ∧ Playable world ∧ ∀ p,
      world.worldBlockState p =
        (scene.world.worldBlockState p).map (lastStateAt updates p).getD := by
  obtain ⟨session, hsession, hvalid⟩ := h.session
  unfold Scene.write at hwrite
  split at hwrite
  · rename_i result world hrun
    cases hwrite
    obtain ⟨hsession', hreadable, hread⟩ :=
      WorldState.worldBlockState_applyBlockUpdates hsession hvalid h.readable hrun
    exact ⟨world, rfl, ⟨⟨session, hsession', hvalid⟩, hreadable⟩, hread⟩
  · cases hwrite

theorem predict_spec {update : Option BlockStateUpdate}
    (hpredict : scene.predict update = some scene') : ∃ world, scene' = { scene with world } := by
  cases update with
  | none =>
    cases hpredict
    exact ⟨scene.world, rfl⟩
  | some update =>
    change scene.write [update] = _ at hpredict
    unfold Scene.write at hpredict
    split at hpredict
    · cases hpredict
      exact ⟨_, rfl⟩
    · cases hpredict

theorem apply_spec {event : WorldEvent} (happly : scene.apply sums event = some scene') :
    ∃ transition world, WorldState.apply sums event scene.world = .ok transition world ∧
      scene' = { scene with world } := by
  unfold Scene.apply at happly
  split at happly
  · rename_i transition world hrun
    cases happly
    exact ⟨transition, world, hrun, rfl⟩
  · cases happly

/-- Blocks are written: the reads change where there is an update. -/
theorem Agreed.write {updates : List BlockStateUpdate} (hplayable : Playable scene.world)
    (hpositions : (scene.interaction.tracker.predictions.map BlockPrediction.position).Nodup)
    (hretained : ∀ p ∈ scene.interaction.tracker.predictions,
      scene.told p.position = some p.serverState)
    (hwritten : ∀ position, Unpredicted scene.interaction.tracker.predictions position →
      ∀ state, lastStateAt updates position = some state → scene.told position = some state)
    (hread : ∀ position, Unpredicted scene.interaction.tracker.predictions position →
      lastStateAt updates position = none → ∀ state,
        scene.world.worldBlockState position = some state → scene.told position = some state)
    (hwrite : scene.write updates = some scene') : Agreed scene' := by
  obtain ⟨world, rfl, hplayable', hreads⟩ := write_spec hplayable hwrite
  refine ⟨hplayable', hpositions, hretained, ?_⟩
  intro position state hfree hstate
  have hstate' : (scene.world.worldBlockState position).map (lastStateAt updates position).getD =
    some state := (hreads position).symm.trans hstate
  obtain ⟨old, hold, hnew⟩ := Option.map_eq_some_iff.mp hstate'
  cases hlast : lastStateAt updates position with
  | none =>
    rw [hlast] at hnew
    cases hnew
    exact hread position hfree hlast _ hold
  | some written =>
    rw [hlast] at hnew
    cases hnew
    exact hwritten position hfree _ hlast

theorem Agreed.receive (h : Agreed scene) {updates : List BlockStateUpdate}
    (hnext : scene.next profile sums (.receive updates) = some scene') : Agreed scene' := by
  have hreconcile := reconcile_eq updates h.positions
  unfold Scene.next BlockInteractionTracker.reconcileBlockUpdates at hnext
  dsimp only at hnext
  rw [hreconcile] at hnext
  have hpositions : ((scene.interaction.tracker.predictions.map (refreshed updates)).map
      BlockPrediction.position) = scene.interaction.tracker.predictions.map
        BlockPrediction.position := by
    rw [List.map_map]
    rfl
  have hunpredicted : ∀ position, Unpredicted (scene.interaction.tracker.predictions.map
      (refreshed updates)) position → Unpredicted scene.interaction.tracker.predictions position :=
    fun position hfree q hq => hfree (refreshed updates q) (List.mem_map_of_mem hq)
  have hlast : ∀ position, Unpredicted scene.interaction.tracker.predictions position →
      lastStateAt (updates.filter (free scene.interaction.tracker.predictions)) position =
        lastStateAt updates position := by
    intro position hfree
    apply lastStateAt_filter
    rintro update rfl
    exact free_iff.mpr hfree
  refine Agreed.write ?_ ?_ ?_ ?_ ?_ hnext
  · exact h.playable
  · exact hpositions.symm ▸ h.positions
  · intro p hp
    obtain ⟨q, hq, rfl⟩ := List.mem_map.mp hp
    change (lastStateAt updates q.position).or (scene.told q.position) =
      some ((lastStateAt updates q.position).getD q.serverState)
    rw [h.retained q hq]
    cases lastStateAt updates q.position <;> rfl
  · intro position hfree state hstate
    rw [hlast position (hunpredicted position hfree)] at hstate
    change (lastStateAt updates position).or _ = _
    rw [hstate]
    rfl
  · intro position hfree hnone state hstate
    rw [hlast position (hunpredicted position hfree)] at hnone
    change (lastStateAt updates position).or _ = _
    rw [hnone]
    exact h.read position state (hunpredicted position hfree) hstate

theorem Agreed.acknowledge (h : Agreed scene) {sequence : Int32}
    (hnext : scene.next profile sums (.acknowledge sequence) = some scene') : Agreed scene' := by
  obtain ⟨resolved, hsplit, hupdates⟩ := acknowledge_split scene.interaction.tracker sequence
  unfold Scene.next at hnext
  dsimp only at hnext
  rw [hupdates] at hnext
  generalize hanswer : (scene.interaction.tracker.acknowledge sequence).2 = tracker at hnext hsplit
  have hkept : ∀ p ∈ tracker.predictions, p ∈ scene.interaction.tracker.predictions :=
    fun p hp => hsplit ▸ List.mem_append_right _ hp
  have hpositions : (tracker.predictions.map BlockPrediction.position).Nodup := by
    have hall := h.positions
    rw [← hsplit, List.map_append] at hall
    exact (List.nodup_append.mp hall).2.1
  have hstill : ∀ position, Unpredicted tracker.predictions position →
      (∀ p ∈ resolved, p.position ≠ position) →
        Unpredicted scene.interaction.tracker.predictions position := by
    intro position hfree hnone q hq
    rw [← hsplit] at hq
    rcases List.mem_append.mp hq with hq | hq
    · exact hnone q hq
    · exact hfree q hq
  split at hnext
  · rename_i hnil
    cases hnext
    obtain rfl := List.map_eq_nil_iff.mp hnil
    refine ⟨h.playable, hpositions, fun p hp => h.retained p (hkept p hp), ?_⟩
    intro position state hfree hstate
    exact h.read position state (hstill position hfree nofun) hstate
  · refine Agreed.write ?_ ?_ ?_ ?_ ?_ hnext
    · exact h.playable
    · exact hpositions
    · exact fun p hp => h.retained p (hkept p hp)
    · intro position hfree state hstate
      rcases lastStateAt_cases (resolved.map fun p => ⟨p.position, p.serverState⟩) position with
        ⟨state', hlast, hmem⟩ | ⟨hnone, _⟩
      · cases hlast.symm.trans hstate
        obtain ⟨p, hp, heq⟩ := List.mem_map.mp hmem
        cases heq
        exact h.retained p (hsplit ▸ List.mem_append_left _ hp)
      · cases hnone.symm.trans hstate
    · intro position hfree hnone state hstate
      rcases lastStateAt_cases (resolved.map fun p => ⟨p.position, p.serverState⟩) position with
        ⟨state', hlast, _⟩ | ⟨_, hall⟩
      · cases hlast.symm.trans hnone
      · apply h.read position state (hstill position hfree ?_) hstate
        exact fun p hp => hall _ (List.mem_map_of_mem hp)

theorem chunkBlocks_of_ne {world : WorldState Rest} {chunk : Chunk} {p : BlockCoordinates}
    (hp : chunkOf p ≠ chunk.coordinate) : world.chunkBlocks chunk p = none := by
  apply WorldState.worldBlockState_unloaded
  exact (OrderedMap.lookup_insert _ _ _ _).trans (if_neg hp)

theorem Agreed.loadChunk (h : Agreed scene) {chunk : Chunk} (hchunk : chunk.Readable)
    (hmeets : scene.Meets profile (.loadChunk chunk))
    (hnext : scene.next profile sums (.loadChunk chunk) = some scene') : Agreed scene' := by
  obtain ⟨transition, world, hrun, rfl⟩ := apply_spec hnext
  obtain ⟨hsession, hchunks⟩ := WorldState.apply_loadChunk_eq_ok hrun
  obtain ⟨session, hsome, hvalid⟩ := h.playable.session
  refine ⟨⟨⟨session, hsession.trans hsome, hvalid⟩, ?_⟩, h.positions, ?_, ?_⟩
  · exact hchunks ▸ h.playable.readable.insert hchunk chunk.coordinate
  · intro p hp
    have hstate := hmeets p hp
    change (scene.world.chunkBlocks chunk p.position).or (scene.told p.position) = _
    cases hblock : scene.world.chunkBlocks chunk p.position with
    | none => exact h.retained p hp
    | some state =>
      rw [hblock] at hstate
      exact congrArg some (of_decide_eq_true hstate)
  · intro position state hfree hstate
    have hread := (WorldState.worldBlockState_loadChunk hrun position).symm.trans hstate
    change (scene.world.chunkBlocks chunk position).or (scene.told position) = _
    split at hread
    · rw [hread]
      rfl
    · rename_i hother
      rw [chunkBlocks_of_ne hother]
      exact h.read position state hfree hread

theorem Agreed.unloadChunk (h : Agreed scene) {coordinate : ChunkCoordinate}
    (hnext : scene.next profile sums (.unloadChunk coordinate) = some scene') : Agreed scene' := by
  obtain ⟨transition, world, hrun, rfl⟩ := apply_spec hnext
  obtain ⟨hsession, hchunks⟩ := WorldState.apply_unloadChunk_eq_ok hrun
  obtain ⟨session, hsome, hvalid⟩ := h.playable.session
  refine ⟨⟨⟨session, hsession.trans hsome, hvalid⟩, ?_⟩, h.positions, h.retained, ?_⟩
  · exact hchunks ▸ h.playable.readable.remove coordinate
  · intro position state hfree hstate
    have hread := (WorldState.worldBlockState_unloadChunk hrun position).symm.trans hstate
    split at hread
    · cases hread
    · exact h.read position state hfree hread

/-- What a tick predicts is what the server has sent, as long as a completed dig is. -/
theorem Agreed.predicted (h : Agreed scene) {input : InteractionInput} {p : BlockPrediction}
    (hmeets : scene.Meets profile (.tick input))
    (hp : WasRetained scene.interaction.tracker.predictions p ∨
      (∃ block ∈ captured profile scene.world scene.interaction input, Captures block p) ∨
        Reads scene.world scene.interaction.tracker.predictions p) :
    scene.told p.position = some p.serverState := by
  rcases hp with ⟨old, hold, hposition, hstate⟩ | ⟨block, hblock, hposition, hstate⟩ | ⟨hfree, hread⟩
  · rw [← hposition, hstate]
    exact h.retained old hold
  · rw [hposition, hstate]
    exact hmeets block hblock
  · exact h.read p.position p.serverState hfree hread

/-- A tick that does not fail, and the write of what it predicts. -/
theorem tick_eq_some {input : InteractionInput}
    (hnext : scene.next profile sums (.tick input) = some scene') :
    ∃ update interaction,
      Interaction.tick profile scene.world input scene.interaction = .ok update interaction ∧
        ({ scene with interaction } : Scene Rest).predict update = some scene' := by
  rw [Scene.next] at hnext
  split at hnext
  · rename_i update interaction hrun
    exact ⟨update, interaction, hrun, hnext⟩
  · cases hnext

theorem Agreed.tick (h : Agreed scene) {input : InteractionInput}
    (hmeets : scene.Meets profile (.tick input))
    (hnext : scene.next profile sums (.tick input) = some scene') : Agreed scene' := by
  obtain ⟨update, interaction, hrun, hnext⟩ := tick_eq_some hnext
  have hspec := Mut.ok_of_wp (tick_spec h.positions input) hrun
  obtain ⟨hpredicts, _⟩ := hspec
  have hpredicted := fun p hp => h.predicted (p := p) hmeets hp
  generalize hafter : interaction.tracker.predictions = after at hpredicts
  cases hpredicts with
  | nothing =>
    cases hnext
    refine ⟨h.playable, ?_, ?_, ?_⟩
    · rw [hafter]
      exact h.positions
    · rw [hafter]
      exact h.retained
    · rw [hafter]
      exact h.read
  | @appended kept new hsublist hmem hsource =>
    have hpositions : ((kept ++ [new]).map BlockPrediction.position).Nodup := by
      rw [List.map_append, List.nodup_append]
      refine ⟨h.positions.sublist (hsublist.map _), List.pairwise_singleton _ _, ?_⟩
      intro position hposition other hother heq
      obtain ⟨q, hq, rfl⟩ := List.mem_map.mp hposition
      obtain rfl := List.mem_singleton.mp hother
      exact ((hmem q).mp hq).2 heq
    have hstill : ∀ position, Unpredicted (kept ++ [new]) position →
        new.position ≠ position ∧ Unpredicted scene.interaction.tracker.predictions position := by
      intro position hfree
      have hne := hfree new (List.mem_append_right _ List.mem_cons_self)
      refine ⟨hne, ?_⟩
      intro q hq heq
      refine hfree q (List.mem_append_left _ ((hmem q).mpr ⟨hq, ?_⟩)) heq
      exact fun hsame => hne (hsame.symm.trans heq)
    refine Agreed.write ?_ ?_ ?_ ?_ ?_ hnext
    · exact h.playable
    · rw [hafter]
      exact hpositions
    · rw [hafter]
      intro p hp
      rcases List.mem_append.mp hp with hp | hp
      · exact h.retained p ((hmem p).mp hp).1
      · obtain rfl := List.mem_singleton.mp hp
        exact hpredicted _ hsource
    · rw [hafter]
      intro position hfree state hstate
      rw [lastStateAt_cons, if_neg (hstill position hfree).1] at hstate
      cases hstate
    · rw [hafter]
      intro position hfree _ state hstate
      exact h.read position state (hstill position hfree).2 hstate

/-- A step that does not meet its condition is the end of honesty. -/
theorem Agreed.meets (h : Agreed scene) {event : SceneEvent}
    (hnext : scene.next profile sums event = some scene') (hhonest : scene'.Honest) :
    scene.Meets profile event := by
  cases event with
  | tick input =>
    intro block hblock
    obtain ⟨update, interaction, hrun, hnext⟩ := tick_eq_some hnext
    obtain ⟨_, hmade⟩ := Mut.ok_of_wp (tick_spec h.positions input) hrun
    obtain ⟨new, hnew, hposition, hstate⟩ := hmade block hblock
    obtain ⟨world, rfl⟩ := predict_spec hnext
    have hretained := hhonest.retained new hnew
    rw [hposition, hstate] at hretained
    exact hretained
  | loadChunk chunk =>
    intro p hp
    obtain ⟨transition, world, hrun, rfl⟩ := apply_spec hnext
    have hretained := hhonest.retained p hp
    cases hblock : scene.world.chunkBlocks chunk p.position with
    | none => rfl
    | some state =>
      have htold : (scene.world.chunkBlocks chunk p.position).or (scene.told p.position) =
        some p.serverState := hretained
      rw [hblock] at htold
      exact decide_eq_true (Option.some.inj htold)
  | receive updates => trivial
  | acknowledge sequence => trivial
  | unloadChunk coordinate => trivial

theorem Agreed.step (h : Agreed scene) {event : SceneEvent}
    (hstep : scene.Step profile sums layout event scene') (hmeets : scene.Meets profile event) :
    Agreed scene' := by
  obtain ⟨hnext, hdecoded⟩ := hstep
  cases event with
  | tick input => exact h.tick hmeets hnext
  | receive updates => exact h.receive hnext
  | acknowledge sequence => exact h.acknowledge hnext
  | loadChunk chunk =>
    obtain ⟨payload, hpayload⟩ := hdecoded
    exact h.loadChunk (readable_receiveLevelChunk hpayload) hmeets hnext
  | unloadChunk coordinate => exact h.unloadChunk hnext

theorem agreed_enter {world : WorldState Rest} {session : WorldSession}
    (hsession : world.session = some session)
    (hgeometry : validateDimensionGeometry session.dimensionGeometry = .ok ())
    (hchunks : world.chunks = OrderedMap.empty) : Agreed (Scene.enter world) := by
  refine ⟨⟨⟨session, hsession, DimensionGeometry.valid_of_validate hgeometry⟩, ?_⟩,
    List.nodup_nil, nofun, ?_⟩
  · rw [Scene.enter, hchunks]
    exact EveryChunk.empty
  · intro position state _ hstate
    have hnone : world.worldBlockState position = none := by
      apply WorldState.worldBlockState_unloaded
      rw [hchunks]
      rfl
    cases hnone.symm.trans hstate

/-- All along a run from an empty world the retained states are the server's exactly when its
steps meet their condition. -/
theorem retained_iff (profile : BlockOutlineProfile) (sums : FloatSums) (layout : NbtLayout)
    (world : WorldState Rest) (session : WorldSession) (hsession : world.session = some session)
    (hgeometry : validateDimensionGeometry session.dimensionGeometry = .ok ())
    (hchunks : world.chunks = OrderedMap.empty) (events : List SceneEvent) (scene : Scene Rest)
    (hrun : Run (Scene.Step profile sums layout) (Scene.enter world) events scene) :
    (∀ before m, before <+: events →
        Run (Scene.Step profile sums layout) (Scene.enter world) before m → m.Honest) ↔
      Run (fun m event m' => m.Step profile sums layout event m' ∧ m.Meets profile event)
        (Scene.enter world) events scene := by
  apply Run.forall_iff_of_keeps (I := Agreed) ?_ ?_ ?_ ?_ hrun
    (agreed_enter hsession hgeometry hchunks)
  · exact fun m event t t' ht ht' => Option.some.inj (ht.1.symm.trans ht'.1)
  · exact fun m h => h.honest
  · exact fun m event m' h hstep hmeets => h.step hstep hmeets
  · exact fun m event m' h hstep hhonest => h.meets hstep.1 hhonest

end

/-! ### A dig during which the block changes -/

/-- Everything is dug in one tick after the one that starts, and air is the state 0. -/
def quickDig : BlockOutlineProfile :=
  ⟨fun _ _ => F32.one, fun _ b => b, some ⟨0⟩, fun _ => none⟩

/-- A player in survival looks at a block and holds attack. -/
def holdAttack : InteractionInput :=
  ⟨some (⟨3, 5, 7⟩, .up), true, false, 0, none, none, origin⟩

def survivalWorld : WorldState Unit :=
  { WorldState.new with lifecycle := .active, session := some overworldSession }

/-- The server replaces the block between the start of the dig and its end. -/
def replacedDuringDig : List SceneEvent :=
  [.loadChunk (levelChunk []), .tick holdAttack, .receive [⟨⟨3, 5, 7⟩, ⟨4⟩⟩], .tick holdAttack]

/-- The server replaces the block once the dig is predicted, and acknowledges it. -/
def replacedAfterDig : List SceneEvent :=
  [.loadChunk (levelChunk []), .tick holdAttack, .tick holdAttack, .receive [⟨⟨3, 5, 7⟩, ⟨4⟩⟩],
    .acknowledge 1]

theorem decoded_levelChunk : (SceneEvent.loadChunk (levelChunk [])).Decoded ⟨24, 32⟩ :=
  ⟨levelChunkPayload [0], by decide +kernel⟩

theorem decoded_dig {events : List SceneEvent}
    (h : events = replacedDuringDig ∨ events = replacedAfterDig) :
    ∀ event ∈ events, event.Decoded ⟨24, 32⟩ := by
  rcases h with rfl | rfl
  · exact List.forall_mem_cons.mpr ⟨decoded_levelChunk, by simp [SceneEvent.Decoded]⟩
  · exact List.forall_mem_cons.mpr ⟨decoded_levelChunk, by simp [SceneEvent.Decoded]⟩

theorem retained_fails : ∃ scene, Run (Scene.Step quickDig firstSum ⟨24, 32⟩)
    (Scene.enter survivalWorld) replacedDuringDig scene ∧ ¬ scene.Honest := by
  have hrun : ∃ scene, Run (fun m event m' => m.next quickDig firstSum event = some m')
      (Scene.enter survivalWorld) replacedDuringDig scene ∧
        ∃ p ∈ scene.interaction.tracker.predictions,
          scene.told p.position ≠ some p.serverState :=
    Run.exists_of_foldlM (by decide +kernel)
  obtain ⟨scene, hrun, p, hp, hne⟩ := hrun
  exact ⟨scene, hrun.of_forall (decoded_dig (.inl rfl)), fun hhonest => hne (hhonest.retained p hp)⟩

theorem retained_iff_replacedAfterDig : ∃ scene, Run (Scene.Step quickDig firstSum ⟨24, 32⟩)
    (Scene.enter survivalWorld) replacedAfterDig scene ∧
      scene.world.worldBlockState ⟨3, 5, 7⟩ = some ⟨4⟩ ∧ ∀ before m, before <+: replacedAfterDig →
        Run (Scene.Step quickDig firstSum ⟨24, 32⟩) (Scene.enter survivalWorld) before m →
          m.Honest := by
  have hrun : ∃ scene, Run (fun m event m' => m.next quickDig firstSum event = some m' ∧
      m.Meets quickDig event) (Scene.enter survivalWorld) replacedAfterDig scene ∧
        scene.world.worldBlockState ⟨3, 5, 7⟩ = some ⟨4⟩ :=
    Run.exists_of_foldlM_guard (by decide +kernel)
  obtain ⟨scene, hrun, hread⟩ := hrun
  have hmet := hrun.of_forall (decoded_dig (.inr rfl))
  have hstep : Run (Scene.Step quickDig firstSum ⟨24, 32⟩) (Scene.enter survivalWorld)
      replacedAfterDig scene := hmet.mono fun _ _ _ h => ⟨h.1.1, h.2⟩
  refine ⟨scene, hstep, hread, ?_⟩
  apply (retained_iff quickDig firstSum ⟨24, 32⟩ survivalWorld overworldSession rfl (by decide) rfl
    replacedAfterDig scene hstep).mpr
  exact hmet.mono fun _ _ _ h => ⟨⟨h.1.1, h.2⟩, h.1.2⟩

end Cubic.Interaction
