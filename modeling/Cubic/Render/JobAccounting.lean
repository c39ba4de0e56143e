import Cubic.Render.MeshSystem

/-!
# The jobs in flight

The pending coordinates are those of the jobs the workers have, as long as no world starts
over while there is one: the pending coordinates are forgotten then, the jobs are not.
-/

namespace Cubic.Render

open World

set_option autoImplicit false

variable {Mesh MeshError Rest Target Inventory : Type}

def InFlight.coordinate (f : InFlight) : ChunkCoordinate := f.job.coordinate

/-- Each job that is not integrated is pending, there is room for all of them, and none is
made twice. -/
structure MeshSystem.Accounted (s : MeshSystem Mesh Rest Target Inventory) : Prop where
  pending : ∀ f ∈ s.inFlight, f.coordinate ∈ s.renderer.pending
  bounded : s.inFlight.length ≤ maxPendingMeshJobs
  single : s.inFlight.Pairwise fun f g =>
    ¬ (f.coordinate = g.coordinate ∧ f.job.generation = g.job.generation)

/-- No world starts over while a job is in flight. -/
def MeshSystem.Settled (s : MeshSystem Mesh Rest Target Inventory) :
    MeshInput Rest Target Inventory → Prop
  | .world input => ∀ update ∈ s.published.update? input, s.renderer.StartsOver update →
      s.inFlight = []
  | _ => True

/-! ### Coordinates -/

/-- The jobs of `coordinates` are the pending ones, and not more than the capacity. -/
structure Charged (coordinates : List ChunkCoordinate) (pending : Finset ChunkCoordinate) :
    Prop where
  nodup : coordinates.Nodup
  covered : ∀ c ∈ coordinates, c ∈ pending
  capacity : pending.card ≤ maxPendingMeshJobs

namespace Charged
variable {coordinates : List ChunkCoordinate} {pending : Finset ChunkCoordinate}

theorem nil : Charged [] ∅ :=
  ⟨.nil, fun _ h => absurd h List.not_mem_nil, Nat.zero_le _⟩

theorem length_le (h : Charged coordinates pending) :
    coordinates.length ≤ maxPendingMeshJobs := by
  have hsubset : coordinates.toFinset ⊆ pending := fun c hc =>
    h.covered c (List.mem_toFinset.mp hc)
  calc coordinates.length
      = coordinates.toFinset.card := (List.toFinset_card_of_nodup h.nodup).symm
    _ ≤ pending.card := Finset.card_le_card hsubset
    _ ≤ maxPendingMeshJobs := h.capacity

/-- A coordinate that is not pending has no job. -/
theorem send (h : Charged coordinates pending) {c : ChunkCoordinate} (hc : c ∉ pending)
    (hroom : pending.card < maxPendingMeshJobs) :
    Charged (coordinates ++ [c]) (insert c pending) := by
  refine ⟨?_, ?_, ?_⟩
  · refine List.nodup_append.mpr ⟨h.nodup, List.nodup_singleton c, ?_⟩
    intro d hd e he heq
    obtain rfl := List.mem_singleton.mp he
    exact hc (heq ▸ h.covered d hd)
  · refine List.forall_mem_append.mpr ⟨?_, List.forall_mem_singleton.mpr ?_⟩
    · exact fun d hd => Finset.mem_insert_of_mem (h.covered d hd)
    · exact Finset.mem_insert_self c pending
  · rw [Finset.card_insert_of_notMem hc]
    exact hroom

theorem receive (h : Charged coordinates pending) {index : Nat} {c : ChunkCoordinate}
    (hindex : coordinates[index]? = some c) :
    Charged (coordinates.eraseIdx index) (pending.erase c) := by
  refine ⟨h.nodup.eraseIdx index, fun d hd => ?_, (Finset.card_erase_le).trans h.capacity⟩
  obtain ⟨other, hother, hd⟩ := List.mem_eraseIdx_iff_getElem?.mp hd
  refine Finset.mem_erase.mpr ⟨?_, h.covered d (List.mem_of_getElem? hd)⟩
  rintro rfl
  obtain ⟨hlt, -⟩ := List.getElem?_eq_some_iff.mp hd
  exact hother ((List.getElem?_inj hlt h.nodup).mp (hd.trans hindex.symm))

end Charged

/-! ### Dispatch -/

theorem nextMeshCandidate_not_pending {dirty : OrderedMap ChunkCoordinate UInt64}
    {pending : Finset ChunkCoordinate} {origin : Option ChunkCoordinate}
    {candidate : ChunkCoordinate × UInt64}
    (h : nextMeshCandidate dirty pending origin = some candidate) : candidate.1 ∉ pending := by
  have hmem := List.of_mem_filter (List.argmin_mem (Option.mem_def.mpr h))
  exact of_decide_eq_true hmem

theorem charged_dispatchLoop (geometry : DimensionGeometry) (origin : Option ChunkCoordinate)
    (turns : List Bool) : ∀ (r : WorldRenderer Mesh) (dispatched : Nat)
      (coordinates : List ChunkCoordinate), Charged coordinates r.pending →
      Charged (coordinates ++
          (WorldRenderer.dispatchLoop geometry origin r dispatched turns).2.map MeshJob.coordinate)
        (WorldRenderer.dispatchLoop geometry origin r dispatched turns).1.pending := by
  have hstop : ∀ (r : WorldRenderer Mesh) (coordinates : List ChunkCoordinate),
      Charged coordinates r.pending →
      Charged (coordinates ++ ([] : List MeshJob).map MeshJob.coordinate) r.pending :=
    fun r coordinates h => (List.append_nil coordinates).symm ▸ h
  induction turns with
  | nil => exact fun r _ => hstop r
  | cons room turns ih =>
    intro r dispatched coordinates h
    unfold WorldRenderer.dispatchLoop
    split
    · rename_i hpermitted
      cases hcandidate : nextMeshCandidate r.dirty r.pending origin with
      | none => exact hstop r coordinates h
      | some candidate =>
        obtain ⟨coordinate, revision⟩ := candidate
        dsimp only
        split
        · exact ih _ dispatched coordinates h
        · split
          · have hsent := h.send (nextMeshCandidate_not_pending hcandidate) hpermitted.2
            have hrest := ih { r with pending := insert coordinate r.pending } (dispatched + 1)
              (coordinates ++ [coordinate]) hsent
            rw [List.append_assoc] at hrest
            exact hrest
          · exact hstop r coordinates h
    · exact hstop r coordinates h

theorem charged_dispatchJobs {r : WorldRenderer Mesh} {coordinates : List ChunkCoordinate}
    (h : Charged coordinates r.pending) (origin : Option ChunkCoordinate) (turns : List Bool) :
    Charged (coordinates ++ (r.dispatchJobs origin turns).2.map MeshJob.coordinate)
      (r.dispatchJobs origin turns).1.pending := by
  unfold WorldRenderer.dispatchJobs
  split
  · exact (List.append_nil coordinates).symm ▸ h
  · exact charged_dispatchLoop _ origin turns r 0 coordinates h

/-! ### Results and updates -/

theorem integrate_pending (r : WorldRenderer Mesh) (result : MeshResult Mesh MeshError) :
    (r.integrate result).pending = r.pending.erase result.coordinate := by
  unfold WorldRenderer.integrate
  dsimp only
  split
  · rfl
  · split <;> rfl

theorem applyChunk_pending (deltas : List ChunkRenderDelta) : ∀ r : WorldRenderer Mesh,
    (deltas.foldl WorldRenderer.applyChunk r).pending = r.pending := by
  induction deltas with
  | nil => exact fun r => rfl
  | cons delta rest ih =>
    intro r
    cases delta with
    | loaded chunk => exact ih _
    | unloaded coordinate => exact ih _

/-- An update forgets what is pending exactly when it starts over. -/
theorem apply_pending (r : WorldRenderer Mesh) (update : WorldRenderUpdate Rest Target Inventory) :
    (r.apply update).pending = if r.StartsOver update then ∅ else r.pending := by
  unfold WorldRenderer.apply
  rw [applyChunk_pending]
  split <;> rfl

/-! ### Runs -/

namespace MeshSystem
variable [BEq Target] {mesher : ChunkMesher Mesh MeshError}
variable {s : MeshSystem Mesh Rest Target Inventory} {input : MeshInput Rest Target Inventory}

def Counted (s : MeshSystem Mesh Rest Target Inventory) : Prop :=
  Charged (s.inFlight.map InFlight.coordinate) s.renderer.pending

omit [BEq Target] in
theorem Counted.accounted (h : s.Counted) : s.Accounted := by
  refine ⟨fun f hf => h.covered _ (List.mem_map_of_mem hf), ?_, ?_⟩
  · have hlength := h.length_le
    rwa [List.length_map] at hlength
  · refine (List.pairwise_map.mp h.nodup).imp ?_
    exact fun hne hsame => hne hsame.1

theorem Counted.next (h : s.Counted) (hsettled : s.Settled input) :
    (s.next mesher input).Counted := by
  cases input with
  | world input =>
    unfold MeshSystem.next
    dsimp only
    split
    · exact h
    · rename_i update hupdate
      unfold Counted
      dsimp only
      rw [apply_pending]
      split
      · rename_i hover
        rw [hsettled update hupdate hover]
        exact .nil
      · exact h
  | dispatch origin turns =>
    have hsent := charged_dispatchJobs h origin turns
    unfold MeshSystem.next Counted
    dsimp only
    rw [List.map_append, List.map_map]
    exact hsent
  | integrate index =>
    unfold MeshSystem.next
    dsimp only
    split
    · exact h
    · rename_i f hf
      have hindex : (s.inFlight.map InFlight.coordinate)[index]? = some f.coordinate := by
        rw [List.getElem?_map, hf]
        rfl
      have hreceived := h.receive hindex
      unfold Counted
      dsimp only
      rw [integrate_pending, ← List.eraseIdx_map]
      exact hreceived

/-- Nothing is pending when a world has started over. -/
theorem settled_of_accounted (h : (s.next mesher input).Accounted) : s.Settled input := by
  cases input with
  | world input =>
    intro update hupdate hover
    unfold MeshSystem.next at h
    dsimp only at h
    rw [hupdate] at h
    refine List.eq_nil_iff_forall_not_mem.mpr fun f hf => ?_
    have hpending := h.pending f hf
    dsimp only at hpending
    rw [apply_pending, if_pos hover] at hpending
    exact absurd hpending (Finset.notMem_empty _)
  | dispatch origin turns => trivial
  | integrate index => trivial

/-- In every state reached, the jobs in flight are accounted for, exactly when no world on the
way starts over while there is a job in flight. -/
theorem accounted_iff_settled (mesher : ChunkMesher Mesh MeshError)
    {inputs : List (MeshInput Rest Target Inventory)} {s : MeshSystem Mesh Rest Target Inventory}
    (hrun : Run (fun s input t => s.next mesher input = t) MeshSystem.initial inputs s) :
    (∀ before m, before <+: inputs →
        Run (fun s input t => s.next mesher input = t) MeshSystem.initial before m →
        m.Accounted) ↔
      Run (fun s input t => s.next mesher input = t ∧ s.Settled input) MeshSystem.initial inputs
        s := by
  refine Run.forall_iff_of_keeps (I := Counted) ?_ (fun s => Counted.accounted) ?_ ?_ hrun .nil
  · intro s input t t' h h'
    exact h.symm.trans h'
  · intro s input t h hstep hsettled
    exact hstep ▸ h.next hsettled
  · intro s input t _ hstep haccounted
    exact settled_of_accounted (hstep ▸ haccounted)

end MeshSystem

/-! ### Two runs -/

/-- The mesh of a chunk is made, and another one is on its way. -/
def remeshing : List (MeshInput Unit Unit Unit) :=
  opening ++ [.integrate 0] ++ replacing ++ [.dispatch none [true, true, true, true, true]]

/-- One job after the other. -/
theorem accounted_iff_settled_replacing : ∃ s : MeshSystem Chunk Unit Unit Unit,
    Run (fun s input t => s.next portrait input = t) MeshSystem.initial remeshing s ∧
    s.inFlight.map InFlight.coordinate = [⟨0, 0⟩] ∧
    ((∀ before m, before <+: remeshing →
        Run (fun s input t => s.next portrait input = t) MeshSystem.initial before m →
        m.Accounted) ↔
      Run (fun s input t => s.next portrait input = t ∧ s.Settled input) MeshSystem.initial
        remeshing s) := by
  have hrun := Run.foldl (MeshSystem.next portrait) MeshSystem.initial remeshing
  exact ⟨_, hrun, by decide +kernel, MeshSystem.accounted_iff_settled portrait hrun⟩

/-- The world starts over while the first mesh is on its way. -/
def startingOver : List (MeshInput Unit Unit Unit) :=
  opening ++ opening ++ [.integrate 0, .dispatch none [true]]

/-- The late result takes the place of the new job, which is then made once more. -/
theorem accounted_fails : ∃ s : MeshSystem Chunk Unit Unit Unit,
    Run (fun s input t => s.next portrait input = t) MeshSystem.initial startingOver s ∧
    (s.inFlight.map fun f => (f.coordinate, f.job.generation)) = [(⟨0, 0⟩, 2), (⟨0, 0⟩, 2)] ∧
    ¬ s.Accounted := by
  have hjobs : ((startingOver.foldl (MeshSystem.next portrait) MeshSystem.initial).inFlight.map
      fun f => (f.coordinate, f.job.generation)) = [(⟨0, 0⟩, 2), (⟨0, 0⟩, 2)] := by
    decide +kernel
  refine ⟨_, Run.foldl _ _ _, hjobs, fun h => ?_⟩
  have hsingle : ((startingOver.foldl (MeshSystem.next portrait) MeshSystem.initial).inFlight.map
      fun f => (f.coordinate, f.job.generation)).Pairwise fun f g => ¬ (f.1 = g.1 ∧ f.2 = g.2) :=
    List.pairwise_map.mpr h.single
  rw [hjobs] at hsingle
  exact absurd hsingle (by decide)

end Cubic.Render
