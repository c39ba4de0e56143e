import Cubic.Lib.Run
import Cubic.Render.Freshness

/-!
# The renderer at work

Updates reach the renderer through the mailbox, jobs are answered in any order and at any
time. The mailbox says something new of geometry and biomes only with a reset.
-/

namespace Cubic.Render

open World

set_option autoImplicit false

variable {Mesh MeshError Rest Target Inventory : Type}

/-- The published world, the renderer, and the jobs its workers have. -/
structure MeshSystem (Mesh Rest Target Inventory : Type) where
  published : System Rest Target Inventory
  renderer : WorldRenderer Mesh
  inFlight : List InFlight
  marks : Marks

inductive MeshInput (Rest Target Inventory : Type) where
  | world (input : Input Rest Target Inventory)
  | dispatch (origin : Option ChunkCoordinate) (turns : List Bool)
  | integrate (index : Nat)

/-- The update an input brings to the renderer. -/
def System.update? (s : System Rest Target Inventory) :
    Input Rest Target Inventory → Option (WorldRenderUpdate Rest Target Inventory)
  | .take => s.mailbox.takeUpdate.1
  | _ => none

namespace MeshSystem

def initial : MeshSystem Mesh Rest Target Inventory :=
  ⟨System.initial, WorldRenderer.new, [], Marks.initial⟩

/-- Any job in flight may be the next to be answered. -/
def next [BEq Target] (mesher : ChunkMesher Mesh MeshError)
    (s : MeshSystem Mesh Rest Target Inventory) :
    MeshInput Rest Target Inventory → MeshSystem Mesh Rest Target Inventory
  | .world input =>
    match s.published.update? input with
    | none => { s with published := s.published.next input }
    | some update =>
      { s with
        published := s.published.next input
        renderer := s.renderer.apply update
        marks := s.marks.apply s.renderer update }
  | .dispatch origin turns =>
    let next := s.renderer.dispatchJobs origin turns
    { s with
      renderer := next.1
      inFlight := s.inFlight ++ next.2.map fun job => ⟨job, s.marks.last job.coordinate⟩ }
  | .integrate index =>
    match s.inFlight[index]? with
    | none => s
    | some f =>
      { s with
        renderer := s.renderer.integrate (f.job.result mesher)
        inFlight := s.inFlight.eraseIdx index }

/-- A result is taken in before as many revisions have been drawn since its own as there are. -/
def Timely (s : MeshSystem Mesh Rest Target Inventory) : MeshInput Rest Target Inventory → Prop
  | .integrate index => ∀ f ∈ s.inFlight[index]?, s.marks.drawn < f.stamp + 2 ^ 64
  | _ => True

instance (s : MeshSystem Mesh Rest Target Inventory) :
    ∀ input : MeshInput Rest Target Inventory, Decidable (s.Timely input)
  | .integrate index => inferInstanceAs (Decidable (∀ f ∈ s.inFlight[index]?, _))
  | .world _ => inferInstanceAs (Decidable True)
  | .dispatch _ _ => inferInstanceAs (Decidable True)

end MeshSystem

/-- A mailbox with no reset waiting says of geometry and biomes what the renderer knows. -/
def Announced (m : Mailbox Rest Target Inventory) (r : WorldRenderer Mesh) : Prop :=
  m.reset = true ∨ m.generation = r.generation ∧ m.geometry.or r.geometry = r.geometry ∧
    m.biomes.getD r.biomes = r.biomes

theorem takeUpdate_some {m : Mailbox Rest Target Inventory}
    {update : WorldRenderUpdate Rest Target Inventory} (h : m.takeUpdate.1 = some update) :
    update.reset = m.reset ∧ update.generation = m.generation ∧ update.geometry = m.geometry ∧
      update.biomes = m.biomes ∧ m.takeUpdate.2.generation = m.generation ∧
      m.takeUpdate.2.geometry = m.geometry ∧ m.takeUpdate.2.biomes = m.biomes := by
  unfold Mailbox.takeUpdate at *
  split at h
  · cases h
  · rename_i hdirty
    cases h
    rw [if_neg hdirty]
    exact ⟨rfl, rfl, rfl, rfl, rfl, rfl, rfl⟩

theorem Announced.steady {m : Mailbox Rest Target Inventory} {r : WorldRenderer Mesh}
    (h : Announced m r) {update : WorldRenderUpdate Rest Target Inventory}
    (hupdate : m.takeUpdate.1 = some update) : Steady r update := by
  obtain ⟨hreset, _, hgeometry, hbiomes, _⟩ := takeUpdate_some hupdate
  rcases h with h | ⟨_, hsame⟩
  · exact Or.inl (Or.inl (hreset.trans h))
  · rw [← hgeometry, ← hbiomes] at hsame
    exact Or.inr hsame

/-- Chunks have no say in what else the renderer knows. -/
theorem applyChunk_rest (deltas : List ChunkRenderDelta) : ∀ r : WorldRenderer Mesh,
    (deltas.foldl WorldRenderer.applyChunk r).generation = r.generation ∧
      (deltas.foldl WorldRenderer.applyChunk r).geometry = r.geometry ∧
      (deltas.foldl WorldRenderer.applyChunk r).biomes = r.biomes := by
  induction deltas with
  | nil => exact fun r => ⟨rfl, rfl, rfl⟩
  | cons delta rest ih =>
    intro r
    obtain ⟨hgeneration, hgeometry, hbiomes⟩ := ih (r.applyChunk delta)
    cases delta <;> exact ⟨hgeneration, hgeometry, hbiomes⟩

/-- What the mailbox keeps saying is known once an update is taken. -/
theorem announced_take {m : Mailbox Rest Target Inventory} {r : WorldRenderer Mesh}
    {update : WorldRenderUpdate Rest Target Inventory} (hupdate : m.takeUpdate.1 = some update) :
    Announced m.takeUpdate.2 (r.apply update) := by
  obtain ⟨_, hgeneration, hgeometry, hbiomes, hgeneration', hgeometry', hbiomes'⟩ :=
    takeUpdate_some hupdate
  unfold Announced
  rw [hgeneration', hgeometry', hbiomes', ← hgeneration, ← hgeometry, ← hbiomes]
  refine Or.inr ?_
  unfold WorldRenderer.apply
  dsimp only
  obtain ⟨hknown, hgeometry, hbiomes⟩ := applyChunk_rest update.chunks
    { (if r.StartsOver update then r.startOver update.generation else r) with
      geometry := update.geometry.or (if r.StartsOver update then
        r.startOver update.generation else r).geometry
      biomes := update.biomes.getD (if r.StartsOver update then
        r.startOver update.generation else r).biomes }
  rw [hknown, hgeometry, hbiomes]
  dsimp only
  refine ⟨?_, ?_, ?_⟩
  · split
    · rfl
    · rename_i hsame
      exact not_not.mp (not_or.mp hsame).2
  · rw [← Option.or_assoc, Option.or_self]
  · cases update.biomes <;> rfl

theorem Announced.next [BEq Target] {s : System Rest Target Inventory} {r : WorldRenderer Mesh}
    (h : Announced s.mailbox r) {input : Input Rest Target Inventory}
    (hnone : s.update? input = none) : Announced (s.next input).mailbox r := by
  have hsame : ∀ m : Mailbox Rest Target Inventory, m.reset = s.mailbox.reset →
      m.generation = s.mailbox.generation → m.geometry = s.mailbox.geometry →
      m.biomes = s.mailbox.biomes → Announced m r := by
    intro m hreset hgeneration hgeometry hbiomes
    unfold Announced
    rw [hreset, hgeneration, hgeometry, hbiomes]
    exact h
  cases input with
  | world op => exact h
  | reset dimension geometry biomes gameMode => exact Or.inl rfl
  | load chunk => exact hsame _ rfl rfl rfl rfl
  | unload coordinate => exact hsame _ rfl rfl rfl rfl
  | entity delta =>
    change Announced (s.publish delta).mailbox r
    unfold System.publish
    split
    · exact h
    · change Announced (s.mailbox.entity delta s.arena.store) r
      unfold Mailbox.entity
      split
      · exact h
      · split
        · exact hsame _ rfl rfl rfl rfl
        · split <;> exact hsame _ rfl rfl rfl rfl
  | inventory inventory => exact hsame _ rfl rfl rfl rfl
  | gameMode gameMode =>
    change Announced (s.mailbox.publishGameMode gameMode) r
    unfold Mailbox.publishGameMode
    split <;> exact hsame _ rfl rfl rfl rfl
  | target target =>
    change Announced (s.mailbox.publishTarget target) r
    unfold Mailbox.publishTarget
    split <;> exact hsame _ rfl rfl rfl rfl
  | breaking breaking =>
    change Announced (s.mailbox.publishBreaking breaking) r
    unfold Mailbox.publishBreaking
    split <;> exact hsame _ rfl rfl rfl rfl
  | pose pose jumped publishedAt => exact hsame _ rfl rfl rfl rfl
  | take =>
    change Announced s.mailbox.takeUpdate.2 r
    change s.mailbox.takeUpdate.1 = none at hnone
    unfold Mailbox.takeUpdate at hnone ⊢
    split at hnone
    · rename_i hclean
      rw [if_pos hclean]
      exact h
    · cases hnone

/-- The meshes are fresh and the mailbox has nothing new to say without a reset. -/
structure MeshSystem.Kept (mesher : ChunkMesher Mesh MeshError)
    (s : MeshSystem Mesh Rest Target Inventory) : Prop where
  fresh : Fresh mesher s.renderer s.marks s.inFlight
  announced : Announced s.published.mailbox s.renderer

theorem MeshSystem.Kept.next [BEq Target] {mesher : ChunkMesher Mesh MeshError}
    {s : MeshSystem Mesh Rest Target Inventory} (h : s.Kept mesher)
    {input : MeshInput Rest Target Inventory} (htimely : s.Timely input) :
    (s.next mesher input).Kept mesher := by
  cases input with
  | world input =>
    unfold MeshSystem.next
    dsimp only
    split
    · rename_i hnone
      exact ⟨h.fresh, h.announced.next hnone⟩
    · rename_i update hupdate
      cases input with
      | take => exact ⟨h.fresh.apply (h.announced.steady hupdate), announced_take hupdate⟩
      | _ => cases hupdate
  | dispatch origin turns =>
    refine ⟨h.fresh.dispatchJobs origin turns, ?_⟩
    have hrest := s.renderer.dispatchJobs_rest origin turns
    unfold MeshSystem.next Announced
    dsimp only
    rw [hrest.1, hrest.2.1, hrest.2.2]
    exact h.announced
  | integrate index =>
    unfold MeshSystem.next
    dsimp only
    split
    · exact h
    · rename_i f hf
      refine ⟨?_, ?_⟩
      · apply h.fresh.integrate (List.mem_of_getElem? hf) (htimely f hf)
        exact fun g hg => List.mem_of_mem_eraseIdx hg
      · dsimp only
        rcases s.renderer.integrate_cases (f.job.result mesher) with ⟨pending, heq⟩ |
          ⟨_, pending, heq⟩
        · rw [heq]
          exact h.announced
        · rw [heq]
          exact h.announced

/-- Whatever the order of updates, dispatches and results, where nothing is dirty the mesh is that
of the chunk loaded there with its neighbours, and there is none without a chunk. -/
theorem meshes_are_current [BEq Target] (mesher : ChunkMesher Mesh MeshError)
    (inputs : List (MeshInput Rest Target Inventory)) (s : MeshSystem Mesh Rest Target Inventory)
    (hrun : Run (fun s input t => s.next mesher input = t ∧ s.Timely input)
      MeshSystem.initial inputs s) (c : ChunkCoordinate)
    (hclean : s.renderer.dirty.lookup c = none) :
    s.renderer.meshes.lookup c = s.renderer.current mesher c := by
  have h : s.Kept mesher := by
    refine hrun.invariant ?_ ⟨fresh_new, Or.inr ⟨rfl, rfl, rfl⟩⟩
    intro s input t h hstep
    exact hstep.1 ▸ h.next hstep.2
  exact h.fresh.meshes c hclean

/-! ### Two runs -/

/-- A mesher that draws the chunk as it is. -/
def portrait : ChunkMesher Chunk Unit := fun c chunks _ _ =>
  .ok ((chunks.lookup c).elim .empty .ready)

/-- A chunk at the origin, told apart by its heightmap. -/
def originChunk (kind : UInt32) : Chunk :=
  ⟨⟨0, 0⟩, [], [⟨kind, []⟩], [], ⟨[], [], [], [], 0, 0, [], []⟩⟩

/-- The chunk is loaded, its neighbours are found missing, and its mesh is on its way. -/
def opening : List (MeshInput Unit Unit Unit) :=
  [.world (.reset "overworld" ⟨-64, 384⟩ [] .survival), .world (.load (originChunk 0)),
    .world .take, .dispatch none [true, true, true, true, true]]

/-- The mesh of a chunk is drawn. -/
theorem meshes_are_current_origin : ∃ s : MeshSystem Chunk Unit Unit Unit,
    Run (fun s input t => s.next portrait input = t ∧ s.Timely input) MeshSystem.initial
      (opening ++ [.integrate 0]) s ∧
    s.renderer.meshes.lookup ⟨0, 0⟩ = s.renderer.current portrait ⟨0, 0⟩ ∧
    s.renderer.meshes.lookup ⟨0, 0⟩ = some (originChunk 0) := by
  obtain ⟨s, hrun, hclean, hmesh⟩ : ∃ s : MeshSystem Chunk Unit Unit Unit,
      Run (fun s input t => some (s.next portrait input) = some t ∧ s.Timely input)
        MeshSystem.initial (opening ++ [.integrate 0]) s ∧
      s.renderer.dirty.lookup ⟨0, 0⟩ = none ∧
      s.renderer.meshes.lookup ⟨0, 0⟩ = some (originChunk 0) :=
    Run.exists_of_foldlM_guard (by decide +kernel)
  have hrun : Run (fun s input t => s.next portrait input = t ∧ s.Timely input)
      MeshSystem.initial (opening ++ [.integrate 0]) s :=
    hrun.mono fun _ _ _ h => ⟨Option.some.inj h.1, h.2⟩
  exact ⟨s, hrun, meshes_are_current portrait _ s hrun ⟨0, 0⟩ hclean, hmesh⟩

/-- Another chunk comes in its place. -/
def replacing : List (MeshInput Unit Unit Unit) :=
  [.world (.load (originChunk 1)), .world .take]

/-- The renderer while the first mesh is on its way and the chunk is replaced over and over. -/
def waiting (revision : UInt64) : WorldRenderer Chunk where
  meshes := OrderedMap.empty
  chunks := OrderedMap.empty.insert ⟨0, 0⟩ (originChunk 1)
  biomes := []
  dirty := markDirtyWithNeighbors OrderedMap.empty ⟨0, 0⟩ revision
  pending := {⟨0, 0⟩}
  generation := 1
  revision := revision
  geometry := some ⟨-64, 384⟩

def openingJob : MeshJob where
  coordinate := ⟨0, 0⟩
  chunks := OrderedMap.empty.insert ⟨0, 0⟩ (originChunk 0)
  geometry := ⟨-64, 384⟩
  biomes := []
  generation := 1
  revision := 2

def quiet : Mailbox Unit Unit Unit :=
  (((Mailbox.default.publishReset "overworld" ⟨-64, 384⟩ [] .survival).load
    (originChunk 0)).takeUpdate).2

structure Waiting (s : MeshSystem Chunk Unit Unit Unit) (revision : UInt64) : Prop where
  mailbox : s.published.mailbox = quiet
  renderer : s.renderer = waiting revision
  inFlight : s.inFlight = [⟨openingJob, 2⟩]

theorem waiting_opening :
    Waiting ((opening ++ replacing).foldl (MeshSystem.next portrait) MeshSystem.initial) 3 := by
  refine ⟨?_, ?_, ?_⟩
  · rfl
  · rfl
  · rfl

theorem markDirtyWithNeighbors_again (dirty : OrderedMap ChunkCoordinate UInt64)
    (coordinate : ChunkCoordinate) (first second : UInt64) :
    markDirtyWithNeighbors (markDirtyWithNeighbors dirty coordinate first) coordinate second =
      markDirtyWithNeighbors dirty coordinate second := by
  apply OrderedMap.ext_lookup
  intro c
  rw [lookup_markDirtyWithNeighbors, lookup_markDirtyWithNeighbors, lookup_markDirtyWithNeighbors]
  by_cases hnear : c ∈ neighborsIncluding coordinate
  · rw [if_pos hnear, if_pos hnear]
  · rw [if_neg hnear, if_neg hnear, if_neg hnear]

theorem waiting_applyChunk (revision : UInt64) :
    (waiting revision).applyChunk (.loaded (originChunk 1)) = waiting (revision + 1) := by
  have hdirty := markDirtyWithNeighbors_again OrderedMap.empty ⟨0, 0⟩ revision (revision + 1)
  have hchunks : (waiting revision).chunks.insert ⟨0, 0⟩ (originChunk 1) =
      (waiting revision).chunks := rfl
  unfold WorldRenderer.applyChunk WorldRenderer.markWithNeighbors
  change WorldRenderer.mk _ ((waiting revision).chunks.insert ⟨0, 0⟩ (originChunk 1)) _ 
    (markDirtyWithNeighbors (markDirtyWithNeighbors OrderedMap.empty ⟨0, 0⟩ revision) ⟨0, 0⟩
      (revision + 1)) _ _ _ _ = _
  rw [hchunks, hdirty]
  rfl

theorem waiting_apply {update : WorldRenderUpdate Unit Unit Unit} (revision : UInt64)
    (hreset : update.reset = false) (hgeneration : update.generation = 1)
    (hgeometry : update.geometry = some ⟨-64, 384⟩) (hbiomes : update.biomes = some [])
    (hchunks : update.chunks = [.loaded (originChunk 1)]) :
    (waiting revision).apply update = waiting (revision + 1) := by
  have hover : ¬ (waiting revision).StartsOver update := by
    rintro (h | h)
    · rw [hreset] at h
      cases h
    · exact h hgeneration
  unfold WorldRenderer.apply
  rw [if_neg hover, hgeometry, hbiomes, hchunks]
  exact waiting_applyChunk revision

theorem Waiting.replacing {s : MeshSystem Chunk Unit Unit Unit} {revision : UInt64}
    (h : Waiting s revision) :
    Waiting (replacing.foldl (MeshSystem.next portrait) s) (revision + 1) := by
  obtain ⟨published, renderer, inFlight, marks⟩ := s
  obtain ⟨arena, mailbox, shown, direct, unpublished, ahead⟩ := published
  obtain ⟨hmailbox, hrenderer, hinFlight⟩ := h
  dsimp only at hmailbox hrenderer hinFlight
  subst hmailbox hrenderer hinFlight
  exact ⟨rfl, waiting_apply revision rfl rfl rfl rfl rfl, rfl⟩

theorem Waiting.often {s : MeshSystem Chunk Unit Unit Unit} {revision : UInt64}
    (h : Waiting s revision) (n : Nat) :
    Waiting ((List.replicate n Render.replacing).flatten.foldl (MeshSystem.next portrait) s)
      (revision + UInt64.ofNat n) := by
  induction n generalizing s revision with
  | zero => exact (UInt64.add_zero revision).symm ▸ h
  | succ n ih =>
    rw [List.replicate_succ, List.flatten_cons, List.foldl_append, ofNat_succ, UInt64.add_comm _ 1,
      ← UInt64.add_assoc]
    exact ih h.replacing

/-- When all revisions have been drawn again, the mesh of a chunk long replaced is drawn. -/
def wrappingAround : List (MeshInput Unit Unit Unit) :=
  (opening ++ replacing) ++ ((List.replicate (2 ^ 64 - 1) replacing).flatten ++
    [.integrate 0, .dispatch none [true, true, true, true]])

theorem meshes_are_stale : ∃ s : MeshSystem Chunk Unit Unit Unit,
    Run (fun s input t => s.next portrait input = t) MeshSystem.initial wrappingAround s ∧
    (∀ c, s.renderer.dirty.lookup c = none) ∧
    s.renderer.meshes.lookup ⟨0, 0⟩ ≠ s.renderer.current portrait ⟨0, 0⟩ := by
  have hwaiting := waiting_opening.often (2 ^ 64 - 1)
  have hwrapped : (3 : UInt64) + UInt64.ofNat (2 ^ 64 - 1) = 2 := by decide
  rw [hwrapped] at hwaiting
  refine ⟨_, Run.foldl _ _ _, ?_⟩
  unfold wrappingAround
  rw [List.foldl_append, List.foldl_append]
  generalize List.foldl _ _ (List.replicate _ _).flatten = s at hwaiting ⊢
  obtain ⟨published, renderer, inFlight, marks⟩ := s
  obtain ⟨_, hrenderer, hinFlight⟩ := hwaiting
  dsimp only at hrenderer hinFlight
  subst hrenderer hinFlight
  have hdirty : ((((waiting 2).integrate (openingJob.result portrait)).dispatchJobs none
      [true, true, true, true]).1).dirty = OrderedMap.empty := rfl
  have hdrawn : (((waiting 2).integrate (openingJob.result portrait)).dispatchJobs none
      [true, true, true, true]).1.meshes.lookup ⟨0, 0⟩ = some (originChunk 0) := rfl
  have hcurrent : (((waiting 2).integrate (openingJob.result portrait)).dispatchJobs none
      [true, true, true, true]).1.current portrait ⟨0, 0⟩ = some (originChunk 1) := rfl
  refine ⟨fun c => congrArg (OrderedMap.lookup · c) hdirty, ?_⟩
  intro hsame
  have hequal := hdrawn.symm.trans (hsame.trans hcurrent)
  revert hequal
  decide

end Cubic.Render
