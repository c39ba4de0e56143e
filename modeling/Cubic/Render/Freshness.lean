import Cubic.Render.MeshQueue

/-!
# Meshes are up to date

Where a coordinate is not dirty, what is drawn there is the mesh of the chunk as it and
its neighbours are now. Revisions wrap around, so this asks that a result is taken in before
as many revisions have been drawn as there are.
-/

namespace Cubic.Render

open World

set_option autoImplicit false

/-! ### Neighbours -/

theorem mem_neighborsIncluding {c d : ChunkCoordinate} : d ∈ neighborsIncluding c ↔
    d = c ∨ d = ⟨c.x - 1, c.z⟩ ∨ d = ⟨c.x + 1, c.z⟩ ∨ d = ⟨c.x, c.z - 1⟩ ∨ d = ⟨c.x, c.z + 1⟩ := by
  unfold neighborsIncluding
  simp only [List.mem_cons, List.not_mem_nil, or_false]

theorem self_mem_neighborsIncluding (c : ChunkCoordinate) : c ∈ neighborsIncluding c :=
  List.mem_cons_self

/-- A chunk is in the snapshots of exactly the chunks it has in its own. -/
theorem neighborsIncluding_comm {c d : ChunkCoordinate} (h : d ∈ neighborsIncluding c) :
    c ∈ neighborsIncluding d := by
  obtain ⟨x, z⟩ := c
  rw [mem_neighborsIncluding] at h ⊢
  rcases h with rfl | rfl | rfl | rfl | rfl
  · exact Or.inl rfl
  · exact Or.inr (Or.inr (Or.inl (by simp)))
  · exact Or.inr (Or.inl (by simp))
  · exact Or.inr (Or.inr (Or.inr (Or.inr (by simp))))
  · exact Or.inr (Or.inr (Or.inr (Or.inl (by simp))))

theorem lookup_foldl_insert (cs : List ChunkCoordinate) (revision : UInt64) (c : ChunkCoordinate) :
    ∀ m : OrderedMap ChunkCoordinate UInt64,
      (cs.foldl (fun m c => m.insert c revision) m).lookup c =
        if c ∈ cs then some revision else m.lookup c := by
  induction cs with
  | nil => exact fun m => rfl
  | cons d rest ih =>
    intro m
    rw [List.foldl_cons, ih, OrderedMap.lookup_insert]
    by_cases hrest : c ∈ rest
    · rw [if_pos hrest, if_pos (List.mem_cons_of_mem d hrest)]
    · rw [if_neg hrest]
      by_cases hd : c = d
      · rw [if_pos hd, if_pos (hd ▸ List.mem_cons_self)]
      · rw [if_neg hd, if_neg fun hmem => (List.mem_cons.mp hmem).elim hd hrest]

theorem lookup_markDirtyWithNeighbors (dirty : OrderedMap ChunkCoordinate UInt64)
    (coordinate : ChunkCoordinate) (revision : UInt64) (c : ChunkCoordinate) :
    (markDirtyWithNeighbors dirty coordinate revision).lookup c =
      if c ∈ neighborsIncluding coordinate then some revision else dirty.lookup c :=
  lookup_foldl_insert _ revision c dirty

namespace WorldRenderer
variable {Mesh MeshError Rest Target Inventory : Type}

theorem snapshot_congr {m n : OrderedMap ChunkCoordinate Chunk} {c : ChunkCoordinate}
    (h : ∀ d ∈ neighborsIncluding c, m.lookup d = n.lookup d) : snapshot m c = snapshot n c := by
  unfold snapshot
  congr 1
  apply List.filterMap_congr
  intro d hd
  rw [h d hd]

/-! ### What should be drawn -/

/-- What is drawn of a result. -/
def drawn (mesh : Except MeshError (PreparedChunkMesh Mesh)) : Option Mesh :=
  match mesh with
  | .ok (.ready mesh) => some mesh
  | _ => none

/-- The mesh of the chunk loaded at a coordinate, made with its four neighbours. -/
def current (mesher : ChunkMesher Mesh MeshError) (r : WorldRenderer Mesh)
    (c : ChunkCoordinate) : Option Mesh :=
  (r.chunks.lookup c).bind fun _ => r.geometry.bind fun geometry =>
    drawn (mesher c (snapshot r.chunks c) geometry r.biomes)

theorem current_congr {mesher : ChunkMesher Mesh MeshError} {r r' : WorldRenderer Mesh}
    {c : ChunkCoordinate} (hgeometry : r'.geometry = r.geometry) (hbiomes : r'.biomes = r.biomes)
    (hchunks : ∀ d ∈ neighborsIncluding c, r'.chunks.lookup d = r.chunks.lookup d) :
    r'.current mesher c = r.current mesher c := by
  unfold current
  rw [hgeometry, hbiomes, hchunks c (self_mem_neighborsIncluding c), snapshot_congr hchunks]

/-- A job made of what is loaded now. -/
structure Current (r : WorldRenderer Mesh) (job : MeshJob) : Prop where
  loaded : (r.chunks.lookup job.coordinate).isSome
  chunks : job.chunks = snapshot r.chunks job.coordinate
  geometry : r.geometry = some job.geometry
  biomes : job.biomes = r.biomes

theorem Current.drawn {mesher : ChunkMesher Mesh MeshError} {r : WorldRenderer Mesh} {job : MeshJob}
    (h : r.Current job) : drawn (job.result mesher).mesh = r.current mesher job.coordinate := by
  obtain ⟨chunk, hchunk⟩ := Option.isSome_iff_exists.mp h.loaded
  unfold current MeshJob.result
  rw [hchunk, h.geometry, h.chunks, h.biomes]
  rfl

theorem Current.congr {r r' : WorldRenderer Mesh} {job : MeshJob} (h : r.Current job)
    (hgeometry : r'.geometry = r.geometry) (hbiomes : r'.biomes = r.biomes)
    (hchunks : ∀ d ∈ neighborsIncluding job.coordinate,
      r'.chunks.lookup d = r.chunks.lookup d) : r'.Current job := by
  refine ⟨?_, ?_, hgeometry.trans h.geometry, h.biomes.trans hbiomes.symm⟩
  · rw [hchunks job.coordinate (self_mem_neighborsIncluding _)]
    exact h.loaded
  · rw [snapshot_congr hchunks]
    exact h.chunks

end WorldRenderer

/-! ### Dispatch -/

namespace WorldRenderer
variable {Mesh MeshError : Type}

/-- What dispatching leaves alone, and what it makes: coordinates without a chunk are
cleaned up, and each job answers a mark on a loaded chunk. -/
structure Dispatched (r : WorldRenderer Mesh) (made : DimensionGeometry)
    (next : WorldRenderer Mesh × List MeshJob) : Prop where
  revision : next.1.revision = r.revision
  generation : next.1.generation = r.generation
  geometry : next.1.geometry = r.geometry
  biomes : next.1.biomes = r.biomes
  chunks : next.1.chunks = r.chunks
  cleaned : ∀ c, next.1.dirty.lookup c = r.dirty.lookup c ∧
      next.1.meshes.lookup c = r.meshes.lookup c ∨
    r.chunks.lookup c = none ∧ next.1.dirty.lookup c = none ∧ next.1.meshes.lookup c = none
  jobs : ∀ job ∈ next.2, (r.chunks.lookup job.coordinate).isSome ∧
    job.chunks = snapshot r.chunks job.coordinate ∧ job.geometry = made ∧
    job.biomes = r.biomes ∧ r.dirty.lookup job.coordinate = some job.revision

theorem Dispatched.refl (r : WorldRenderer Mesh) (geometry : DimensionGeometry) :
    Dispatched r geometry (r, []) :=
  ⟨rfl, rfl, rfl, rfl, rfl, fun _ => Or.inl ⟨rfl, rfl⟩, nofun⟩

/-- After a coordinate without a chunk is cleaned up. -/
theorem Dispatched.clean {r : WorldRenderer Mesh} {geometry : DimensionGeometry}
    {next : WorldRenderer Mesh × List MeshJob} {coordinate : ChunkCoordinate}
    (hunloaded : r.chunks.lookup coordinate = none)
    (h : Dispatched { r with
      dirty := r.dirty.remove coordinate
      meshes := r.meshes.remove coordinate } geometry next) : Dispatched r geometry next := by
  have hkept : ∀ {ν : Type} (m : OrderedMap ChunkCoordinate ν) (c : ChunkCoordinate),
      c ≠ coordinate → (m.remove coordinate).lookup c = m.lookup c := by
    intro ν m c hc
    rw [OrderedMap.lookup_remove, if_neg hc]
  have hgone : ∀ {ν : Type} (m : OrderedMap ChunkCoordinate ν),
      (m.remove coordinate).lookup coordinate = none := by
    intro ν m
    rw [OrderedMap.lookup_remove, if_pos rfl]
  refine ⟨h.revision, h.generation, h.geometry, h.biomes, h.chunks, ?_, ?_⟩
  · intro c
    rcases h.cleaned c with ⟨hdirty, hmeshes⟩ | hcleaned
    · by_cases hc : c = coordinate
      · subst hc
        exact Or.inr ⟨hunloaded, hdirty.trans (hgone _), hmeshes.trans (hgone _)⟩
      · exact Or.inl ⟨hdirty.trans (hkept _ c hc), hmeshes.trans (hkept _ c hc)⟩
    · exact Or.inr hcleaned
  · intro job hjob
    obtain ⟨hloaded, hchunks, hgeometry, hbiomes, hdirty⟩ := h.jobs job hjob
    have hne : job.coordinate ≠ coordinate := by
      intro heq
      rw [heq, hunloaded] at hloaded
      cases hloaded
    exact ⟨hloaded, hchunks, hgeometry, hbiomes, (hkept _ _ hne).symm.trans hdirty⟩

theorem nextMeshCandidate_lookup {dirty : OrderedMap ChunkCoordinate UInt64}
    {pending : Finset ChunkCoordinate} {origin : Option ChunkCoordinate}
    {candidate : ChunkCoordinate × UInt64}
    (h : nextMeshCandidate dirty pending origin = some candidate) :
    dirty.lookup candidate.1 = some candidate.2 := by
  have hmem := List.mem_of_mem_filter (List.argmin_mem (Option.mem_def.mpr h))
  exact OrderedMap.mem_entries_iff.mp hmem

theorem dispatched_dispatchLoop (geometry : DimensionGeometry) (origin : Option ChunkCoordinate)
    (turns : List Bool) : ∀ (r : WorldRenderer Mesh) (dispatched : Nat),
      Dispatched r geometry (dispatchLoop geometry origin r dispatched turns) := by
  induction turns with
  | nil => exact fun r _ => Dispatched.refl r geometry
  | cons room turns ih =>
    intro r dispatched
    unfold dispatchLoop
    split
    · cases hcandidate : nextMeshCandidate r.dirty r.pending origin with
      | none => exact Dispatched.refl r geometry
      | some candidate =>
        obtain ⟨coordinate, revision⟩ := candidate
        have hdirty := nextMeshCandidate_lookup hcandidate
        dsimp only
        split
        · rename_i hunloaded
          exact (ih _ dispatched).clean (Option.isNone_iff_eq_none.mp hunloaded)
        · rename_i hloaded
          split
          · have hrest := ih { r with pending := insert coordinate r.pending } (dispatched + 1)
            refine ⟨hrest.revision, hrest.generation, hrest.geometry, hrest.biomes, hrest.chunks,
              hrest.cleaned, ?_⟩
            refine List.forall_mem_cons.mpr ⟨⟨?_, rfl, rfl, rfl, hdirty⟩, hrest.jobs⟩
            exact Option.isSome_iff_ne_none.mpr fun h => hloaded (Option.isNone_iff_eq_none.mpr h)
          · exact Dispatched.refl r geometry
    · exact Dispatched.refl r geometry

/-- Without a geometry nothing happens. -/
theorem dispatchJobs_cases (r : WorldRenderer Mesh) (origin : Option ChunkCoordinate)
    (turns : List Bool) : r.dispatchJobs origin turns = (r, []) ∨
      ∃ geometry, r.geometry = some geometry ∧
        Dispatched r geometry (r.dispatchJobs origin turns) := by
  unfold dispatchJobs
  cases hgeometry : r.geometry with
  | none => exact Or.inl rfl
  | some geometry =>
    exact Or.inr ⟨geometry, rfl, dispatched_dispatchLoop geometry origin turns r 0⟩

theorem dispatchJobs_rest (r : WorldRenderer Mesh) (origin : Option ChunkCoordinate)
    (turns : List Bool) : (r.dispatchJobs origin turns).1.generation = r.generation ∧
      (r.dispatchJobs origin turns).1.geometry = r.geometry ∧
      (r.dispatchJobs origin turns).1.biomes = r.biomes := by
  rcases r.dispatchJobs_cases origin turns with hnothing | ⟨_, _, hspec⟩
  · rw [hnothing]
    exact ⟨rfl, rfl, rfl⟩
  · exact ⟨hspec.generation, hspec.geometry, hspec.biomes⟩

/-! ### Integration -/

/-- A result is dropped, or it answers the mark and is drawn. -/
theorem integrate_cases (r : WorldRenderer Mesh) (result : MeshResult Mesh MeshError) :
    (∃ pending, r.integrate result = { r with pending := pending }) ∨
      r.dirty.lookup result.coordinate = some result.revision ∧
        ∃ pending, r.integrate result = { r with
          pending := pending
          dirty := r.dirty.remove result.coordinate
          meshes := r.meshes.put result.coordinate (drawn result.mesh) } := by
  unfold integrate
  dsimp only
  split
  · exact Or.inl ⟨_, rfl⟩
  · rename_i haccepted
    obtain ⟨_, hdirty⟩ := not_or.mp haccepted
    refine Or.inr ⟨not_not.mp hdirty, r.pending.erase result.coordinate, ?_⟩
    rcases result with ⟨coordinate, generation, revision, mesh | prepared⟩
    · rfl
    · cases prepared <;> rfl

end WorldRenderer

/-! ### Marks -/

/-- A ghost beside the renderer: how many revisions have been drawn, and how many had been
when each coordinate was last marked. -/
structure Marks where
  drawn : Nat
  last : ChunkCoordinate → Nat

namespace Marks
variable {Mesh Rest Target Inventory : Type}

def initial : Marks := ⟨0, fun _ => 0⟩

def mark (marks : Marks) (coordinate : ChunkCoordinate) : Marks where
  drawn := marks.drawn + 1
  last := fun c => if c ∈ neighborsIncluding coordinate then marks.drawn + 1 else marks.last c

/-- The revisions that applying an update draws. -/
def apply (marks : Marks) (r : WorldRenderer Mesh)
    (update : WorldRenderUpdate Rest Target Inventory) : Marks :=
  update.chunks.foldl (fun marks delta => marks.mark delta.coordinate)
    (if r.StartsOver update then { marks with drawn := marks.drawn + 1 } else marks)

end Marks

/-- A job with a worker, and how many revisions had been drawn when its own was. -/
structure InFlight where
  job : MeshJob
  stamp : Nat

/-! ### The invariant -/

section Invariant
variable {Mesh MeshError Rest Target Inventory : Type} {mesher : ChunkMesher Mesh MeshError}
  {r : WorldRenderer Mesh} {marks : Marks} {inFlight : List InFlight}

/-- What is known of a job with a worker: it is current while the mark it answers stands. -/
structure Answers (r : WorldRenderer Mesh) (marks : Marks) (f : InFlight) : Prop where
  revision : f.job.revision = UInt64.ofNat f.stamp
  stamp : f.stamp ≤ marks.last f.job.coordinate
  current : (r.dirty.lookup f.job.coordinate).isSome → marks.last f.job.coordinate = f.stamp →
    r.Current f.job

/-- Revisions are the drawn ones wrapped around, jobs answer the marks they were made for, and
where nothing is dirty the mesh is the current one. -/
structure Fresh (mesher : ChunkMesher Mesh MeshError) (r : WorldRenderer Mesh) (marks : Marks)
    (inFlight : List InFlight) : Prop where
  revision : r.revision = UInt64.ofNat marks.drawn
  last : ∀ c, marks.last c ≤ marks.drawn
  dirty : ∀ c revision, r.dirty.lookup c = some revision →
    revision = UInt64.ofNat (marks.last c)
  inFlight : ∀ f ∈ inFlight, Answers r marks f
  meshes : ∀ c, r.dirty.lookup c = none → r.meshes.lookup c = r.current mesher c

theorem fresh_new : Fresh mesher (WorldRenderer.new : WorldRenderer Mesh) Marks.initial [] :=
  ⟨rfl, fun _ => Nat.le_refl 0, nofun, nofun, fun _ _ => rfl⟩

theorem ofNat_succ (n : Nat) : UInt64.ofNat (n + 1) = UInt64.ofNat n + 1 := by
  rw [UInt64.ofNat_add]
  rfl

/-- Starting over forgets every mark and draws a revision. -/
theorem Fresh.startOver (h : Fresh mesher r marks inFlight) (generation : UInt64)
    (geometry : Option DimensionGeometry) (biomes : List RuntimeBiome) :
    Fresh mesher { r.startOver generation with geometry := geometry, biomes := biomes }
      { marks with drawn := marks.drawn + 1 } inFlight := by
  refine ⟨?_, fun c => Nat.le_succ_of_le (h.last c), nofun, ?_, fun _ _ => rfl⟩
  · change r.revision + 1 = UInt64.ofNat (marks.drawn + 1)
    rw [h.revision, ofNat_succ]
  · intro f hf
    obtain ⟨hrevision, hstamp, _⟩ := h.inFlight f hf
    exact ⟨hrevision, hstamp, nofun⟩

/-- What marking a coordinate makes up for: a change of the chunk there. -/
theorem Fresh.mark (h : Fresh mesher r marks inFlight) {r' : WorldRenderer Mesh}
    {coordinate : ChunkCoordinate} (hgeometry : r'.geometry = r.geometry)
    (hbiomes : r'.biomes = r.biomes) (hdirty : r'.dirty = r.dirty)
    (hrevision : r'.revision = r.revision)
    (hchunks : ∀ d, d ≠ coordinate → r'.chunks.lookup d = r.chunks.lookup d)
    (hmeshes : ∀ d, d ≠ coordinate → r'.meshes.lookup d = r.meshes.lookup d) :
    Fresh mesher (r'.markWithNeighbors coordinate) (marks.mark coordinate) inFlight := by
  have hlookup : ∀ c, (r'.markWithNeighbors coordinate).dirty.lookup c =
      if c ∈ neighborsIncluding coordinate then some (r.revision + 1) else r.dirty.lookup c := by
    intro c
    rw [← hdirty, ← hrevision]
    exact lookup_markDirtyWithNeighbors _ _ _ _
  have hfar : ∀ c, c ∉ neighborsIncluding coordinate → ∀ d ∈ neighborsIncluding c,
      (r'.markWithNeighbors coordinate).chunks.lookup d = r.chunks.lookup d := by
    intro c hc d hd
    apply hchunks
    rintro rfl
    exact hc (neighborsIncluding_comm hd)
  refine ⟨?_, ?_, ?_, ?_, ?_⟩
  · change r'.revision + 1 = UInt64.ofNat (marks.drawn + 1)
    rw [hrevision, h.revision, ofNat_succ]
  · intro c
    change (if _ then _ else _) ≤ marks.drawn + 1
    split
    · exact Nat.le_refl _
    · exact Nat.le_succ_of_le (h.last c)
  · intro c revision hc
    rw [hlookup] at hc
    change revision = UInt64.ofNat (if _ then _ else _)
    split at hc
    · rename_i hnear
      rw [if_pos hnear, ofNat_succ, ← h.revision]
      exact (Option.some.inj hc).symm
    · rename_i hfar
      rw [if_neg hfar]
      exact h.dirty c revision hc
  · intro f hf
    obtain ⟨hrevision, hstamp, hcurrent⟩ := h.inFlight f hf
    by_cases hnear : f.job.coordinate ∈ neighborsIncluding coordinate
    · have hlast : (marks.mark coordinate).last f.job.coordinate = marks.drawn + 1 := if_pos hnear
      have hold : f.stamp < marks.drawn + 1 :=
        Nat.lt_succ_of_le (hstamp.trans (h.last f.job.coordinate))
      refine ⟨hrevision, hlast ▸ hold.le, ?_⟩
      intro _ hsame
      exact absurd (hlast.symm.trans hsame) hold.ne'
    · have hlast : (marks.mark coordinate).last f.job.coordinate =
        marks.last f.job.coordinate := if_neg hnear
      refine ⟨hrevision, hlast ▸ hstamp, ?_⟩
      intro hsome hsame
      rw [hlookup, if_neg hnear] at hsome
      exact (hcurrent hsome (hlast ▸ hsame)).congr hgeometry hbiomes (hfar _ hnear)
  · intro c hc
    rw [hlookup] at hc
    split at hc
    · cases hc
    · rename_i hnear
      have hne : c ≠ coordinate := by
        rintro rfl
        exact hnear (self_mem_neighborsIncluding c)
      change r'.meshes.lookup c = _
      rw [hmeshes c hne, h.meshes c hc]
      exact (WorldRenderer.current_congr hgeometry hbiomes (hfar c hnear)).symm

theorem Fresh.applyChunk (h : Fresh mesher r marks inFlight) (delta : ChunkRenderDelta) :
    Fresh mesher (r.applyChunk delta) (marks.mark delta.coordinate) inFlight := by
  cases delta with
  | loaded chunk =>
    change Fresh mesher (WorldRenderer.markWithNeighbors
      { r with chunks := r.chunks.insert chunk.coordinate chunk } chunk.coordinate) _ _
    refine h.mark ?_ ?_ ?_ ?_ ?_ ?_
    any_goals rfl
    · intro d hd
      exact (OrderedMap.lookup_insert _ _ _ _).trans (if_neg hd)
    · exact fun _ _ => rfl
  | unloaded coordinate =>
    change Fresh mesher (WorldRenderer.markWithNeighbors
      { r with
        chunks := r.chunks.remove coordinate
        meshes := r.meshes.remove coordinate } coordinate) _ _
    refine h.mark ?_ ?_ ?_ ?_ ?_ ?_
    any_goals rfl
    · intro d hd
      exact (OrderedMap.lookup_remove _ _ _).trans (if_neg hd)
    · intro d hd
      exact (OrderedMap.lookup_remove _ _ _).trans (if_neg hd)

/-- An update that does not start over says nothing new about geometry and biomes. -/
def Steady (r : WorldRenderer Mesh) (update : WorldRenderUpdate Rest Target Inventory) : Prop :=
  r.StartsOver update ∨
    update.geometry.or r.geometry = r.geometry ∧ update.biomes.getD r.biomes = r.biomes

theorem Fresh.apply (h : Fresh mesher r marks inFlight)
    {update : WorldRenderUpdate Rest Target Inventory} (hsteady : Steady r update) :
    Fresh mesher (r.apply update) (marks.apply r update) inFlight := by
  have hfold : ∀ (deltas : List ChunkRenderDelta) (r : WorldRenderer Mesh) (marks : Marks),
      Fresh mesher r marks inFlight →
        Fresh mesher (deltas.foldl WorldRenderer.applyChunk r)
          (deltas.foldl (fun marks delta => marks.mark delta.coordinate) marks) inFlight := by
    intro deltas
    induction deltas with
    | nil => exact fun _ _ h => h
    | cons delta rest ih => exact fun r marks h => ih _ _ (h.applyChunk delta)
  unfold WorldRenderer.apply Marks.apply
  apply hfold
  by_cases hover : r.StartsOver update
  · rw [if_pos hover, if_pos hover]
    exact h.startOver update.generation _ _
  · obtain ⟨hgeometry, hbiomes⟩ := hsteady.resolve_left hover
    rw [if_neg hover, if_neg hover, hgeometry, hbiomes]
    exact h

theorem Fresh.dispatchJobs (h : Fresh mesher r marks inFlight) (origin : Option ChunkCoordinate)
    (turns : List Bool) :
    Fresh mesher (r.dispatchJobs origin turns).1 marks (inFlight ++
      (r.dispatchJobs origin turns).2.map fun job => ⟨job, marks.last job.coordinate⟩) := by
  rcases r.dispatchJobs_cases origin turns with hnothing | ⟨geometry, hgeometry, hspec⟩
  · rw [hnothing]
    exact (List.append_nil inFlight).symm ▸ h
  have hcurrent : ∀ job, r.Current job → (r.dispatchJobs origin turns).1.Current job := by
    intro job hjob
    exact hjob.congr hspec.geometry hspec.biomes fun d _ => by rw [hspec.chunks]
  refine ⟨hspec.revision.trans h.revision, h.last, ?_, ?_, ?_⟩
  · intro c revision hc
    rcases hspec.cleaned c with ⟨hdirty, _⟩ | ⟨_, hdirty, _⟩
    · exact h.dirty c revision (hdirty.symm.trans hc)
    · rw [hdirty] at hc
      cases hc
  · intro f hf
    rcases List.mem_append.mp hf with hf | hf
    · obtain ⟨hrevision, hstamp, hanswers⟩ := h.inFlight f hf
      refine ⟨hrevision, hstamp, ?_⟩
      intro hsome hsame
      rcases hspec.cleaned f.job.coordinate with ⟨hdirty, _⟩ | ⟨_, hdirty, _⟩
      · exact hcurrent _ (hanswers (hdirty ▸ hsome) hsame)
      · rw [hdirty] at hsome
        cases hsome
    · obtain ⟨job, hjob, rfl⟩ := List.mem_map.mp hf
      obtain ⟨hloaded, hchunks, hmade, hbiomes, hdirty⟩ := hspec.jobs job hjob
      refine ⟨h.dirty _ _ hdirty, Nat.le_refl _, ?_⟩
      intro _ _
      exact hcurrent job ⟨hloaded, hchunks, hmade ▸ hgeometry, hbiomes⟩
  · intro c hc
    have hsame : (r.dispatchJobs origin turns).1.current mesher c = r.current mesher c :=
      WorldRenderer.current_congr hspec.geometry hspec.biomes fun d _ => by rw [hspec.chunks]
    rcases hspec.cleaned c with ⟨hdirty, hmeshes⟩ | ⟨hunloaded, _, hmeshes⟩
    · rw [hmeshes, hsame]
      exact h.meshes c (hdirty.symm.trans hc)
    · rw [hmeshes, hsame]
      unfold WorldRenderer.current
      rw [hunloaded]
      rfl

/-- A revision drawn less than a full turn ago is not mistaken for another. -/
theorem stamp_eq {stamp last drawn : Nat} (hle : stamp ≤ last) (hlast : last ≤ drawn)
    (htimely : drawn < stamp + 2 ^ 64) (h : UInt64.ofNat stamp = UInt64.ofNat last) :
    last = stamp := by
  have hmod := congrArg UInt64.toNat h
  rw [UInt64.toNat_ofNat', UInt64.toNat_ofNat'] at hmod
  omega

theorem Fresh.integrate (h : Fresh mesher r marks inFlight) {f : InFlight} (hf : f ∈ inFlight)
    (htimely : marks.drawn < f.stamp + 2 ^ 64) {rest : List InFlight}
    (hrest : ∀ g ∈ rest, g ∈ inFlight) :
    Fresh mesher (r.integrate (f.job.result mesher)) marks rest := by
  rcases r.integrate_cases (f.job.result mesher) with ⟨pending, hdropped⟩ |
    ⟨hdirty, pending, haccepted⟩
  · rw [hdropped]
    refine ⟨h.revision, h.last, h.dirty, ?_, h.meshes⟩
    intro g hg
    obtain ⟨hrevision, hstamp, hcurrent⟩ := h.inFlight g (hrest g hg)
    exact ⟨hrevision, hstamp, fun hsome hsame => ⟨(hcurrent hsome hsame).loaded,
      (hcurrent hsome hsame).chunks, (hcurrent hsome hsame).geometry,
      (hcurrent hsome hsame).biomes⟩⟩
  · rw [haccepted]
    obtain ⟨hrevision, hstamp, hcurrent⟩ := h.inFlight f hf
    change r.dirty.lookup f.job.coordinate = some f.job.revision at hdirty
    have hlast : marks.last f.job.coordinate = f.stamp := by
      apply stamp_eq hstamp (h.last _) htimely
      exact hrevision.symm.trans (h.dirty _ _ hdirty)
    have hmesh : WorldRenderer.drawn (f.job.result mesher).mesh =
        r.current mesher f.job.coordinate :=
      (hcurrent (hdirty ▸ rfl) hlast).drawn
    refine ⟨h.revision, h.last, ?_, ?_, ?_⟩
    · intro c revision hc
      change (r.dirty.remove f.job.coordinate).lookup c = some revision at hc
      rw [OrderedMap.lookup_remove] at hc
      split at hc
      · cases hc
      · exact h.dirty c revision hc
    · intro g hg
      obtain ⟨hrevision, hstamp, hcurrent⟩ := h.inFlight g (hrest g hg)
      refine ⟨hrevision, hstamp, ?_⟩
      intro hsome hsame
      change ((r.dirty.remove f.job.coordinate).lookup g.job.coordinate).isSome at hsome
      rw [OrderedMap.lookup_remove] at hsome
      split at hsome
      · cases hsome
      · exact (hcurrent hsome hsame).congr rfl rfl fun _ _ => rfl
    · intro c hc
      change (r.dirty.remove f.job.coordinate).lookup c = none at hc
      change (r.meshes.put f.job.coordinate _).lookup c = r.current mesher c
      rw [OrderedMap.lookup_remove] at hc
      rw [OrderedMap.lookup_put]
      by_cases hsame : c = f.job.coordinate
      · rw [if_pos hsame, hsame]
        exact hmesh
      · rw [if_neg hsame] at hc ⊢
        exact h.meshes c hc

end Invariant

end Cubic.Render
