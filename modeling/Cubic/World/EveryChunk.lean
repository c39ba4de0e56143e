import Cubic.World.Atomicity

/-!
# What every loaded chunk satisfies

A property of chunks is kept by every event, as long as the chunks that are loaded have it and
the light that arrives leaves it alone.
-/

namespace Cubic.World

set_option autoImplicit false

open Mut

variable {Rest : Type}

def EveryChunk (Q : Chunk → Prop) (chunks : LoadedChunks) : Prop :=
  ∀ coordinate chunk, chunks.lookup coordinate = some chunk → Q chunk

variable {Q : Chunk → Prop} {chunks : LoadedChunks}

namespace EveryChunk

theorem empty : EveryChunk Q OrderedMap.empty := nofun

theorem insert (h : EveryChunk Q chunks) {chunk : Chunk} (hchunk : Q chunk)
    (coordinate : ChunkCoordinate) : EveryChunk Q (OrderedMap.insert chunks coordinate chunk) := by
  intro coordinate' chunk' hlookup
  rw [OrderedMap.lookup_insert] at hlookup
  split at hlookup
  · cases hlookup
    exact hchunk
  · exact h coordinate' chunk' hlookup

theorem remove (h : EveryChunk Q chunks) (coordinate : ChunkCoordinate) :
    EveryChunk Q (OrderedMap.remove chunks coordinate) := by
  intro coordinate' chunk' hlookup
  rw [OrderedMap.lookup_remove] at hlookup
  split at hlookup
  · cases hlookup
  · exact h coordinate' chunk' hlookup

theorem updateLight (h : EveryChunk Q chunks) {light : ChunkLightSummary}
    (hlight : ∀ chunk, Q chunk → Q { chunk with light := light }) (coordinate : ChunkCoordinate) :
    EveryChunk Q (chunks.updateLight coordinate light) := by
  unfold LoadedChunks.updateLight
  cases hchunk : chunks.lookup coordinate with
  | none => exact h
  | some chunk =>
    apply h.insert
    exact hlight chunk (h coordinate chunk hchunk)

/-- A block update keeps what it keeps of the chunk it writes to. -/
theorem updateBlock (h : EveryChunk Q chunks) (l : BlockLocation) (state : RuntimeBlockStateId)
    (hwrite : ∀ chunk changed chunk', chunks.lookup l.coordinate = some chunk → Q chunk →
      LoadedChunks.updateSection chunk l.sectionOffset l.localX l.localY l.localZ state =
        some (changed, chunk') → Q chunk') :
    EveryChunk Q
      (chunks.updateBlock l.coordinate l.sectionOffset l.localX l.localY l.localZ state).2 := by
  unfold LoadedChunks.updateBlock
  cases hchunk : chunks.lookup l.coordinate with
  | none => exact h
  | some chunk =>
    rw [Option.bind_some]
    cases hsection : LoadedChunks.updateSection chunk l.sectionOffset l.localX l.localY l.localZ
        state with
    | none => exact h
    | some result => exact h.insert (hwrite chunk _ _ hchunk (h _ _ hchunk) hsection) l.coordinate

end EveryChunk

/-! ### The calls -/

namespace WorldState

/-- An event loads only chunks as `Q` asks. -/
def Loads (Q : Chunk → Prop) : WorldEvent → Prop
  | .loadChunk chunk => Q chunk
  | _ => True

theorem keeps_write {α : Type} {f : WorldState Rest → WorldState Rest}
    (h : ∀ s, EveryChunk Q s.chunks → EveryChunk Q (f s).chunks) (a : α) :
    Keeps (fun s => EveryChunk Q s.chunks) (Mut.modify f >>= fun _ => pure a : WorldM Rest α) :=
  (keeps_modify h).bind fun _ => keeps_pure a

theorem keeps_editSession {α : Type} (event : String) (f : WorldSession → WorldSession) (a : α) :
    Keeps (fun s => EveryChunk Q s.chunks)
      (editSession event f >>= fun _ => pure a : WorldM Rest α) := by
  refine Keeps.bind (keeps_check (guarded_activeMut event) fun _ => ?_) fun _ => keeps_pure a
  exact keeps_modify fun _ h => h

theorem keeps_loadChunk (sums : FloatSums) {chunk : Chunk} (hchunk : Q chunk) :
    Keeps (fun s => EveryChunk Q s.chunks)
      (handle sums (.loadChunk chunk) : WorldM Rest (ResetScope × Bool)) := by
  refine keeps_check (guarded_require _ _) fun _ => ?_
  intro s hs
  rw [wp_bind, wp_get]
  dsimp only
  rw [wp_bind]
  cases hinsert : s.chunks.insert chunk with
  | error e => exact hs
  | ok chunks =>
    unfold LoadedChunks.insert at hinsert
    split at hinsert
    · cases hinsert
    · cases hinsert
      exact hs.insert hchunk chunk.coordinate

theorem keeps_handle (sums : FloatSums) {event : WorldEvent}
    (hlight : ∀ coordinate light, event = .updateChunkLight coordinate light →
      ∀ chunk, Q chunk → Q { chunk with light := light }) (hevent : Loads Q event) :
    Keeps (fun s => EveryChunk Q s.chunks)
      (handle sums event : WorldM Rest (ResetScope × Bool)) := by
  cases event with
  | beginConfiguration => exact keeps_write (fun _ _ => EveryChunk.empty) _
  | disconnect => exact keeps_write (fun _ _ => EveryChunk.empty) _
  | runtimeRegistries registries =>
    refine keeps_check (guarded_require _ _) fun _ =>
      keeps_check (guarded_ofExcept _) fun _ => keeps_write ?_ _
    exact fun _ h => h
  | runtimeDimensionTypes dimensions =>
    refine keeps_check (guarded_require _ _) fun _ =>
      keeps_check (guarded_ofExcept _) fun _ => keeps_write ?_ _
    exact fun _ h => h
  | runtimeBiomes biomes =>
    refine keeps_check (guarded_require _ _) fun _ =>
      keeps_check (guarded_ofExcept _) fun _ => keeps_write ?_ _
    exact fun _ h => h
  | enterWorld enter =>
    refine keeps_check (guarded_require _ _) fun _ =>
      keeps_check (guarded_ofExcept _) fun _ =>
        keeps_check (guarded_geometry _) fun _ => keeps_write ?_ _
    exact fun _ _ => EveryChunk.empty
  | respawn respawn =>
    refine keeps_check (guarded_ofExcept _) fun _ =>
      keeps_check (guarded_geometry _) fun _ =>
        keeps_check (guarded_activeMut _) fun _ => keeps_write ?_ _
    exact fun _ _ => EveryChunk.empty
  | synchronizePlayerPosition update =>
    refine keeps_check (guarded_activeMut _) fun _ =>
      keeps_check (guarded_ofExcept _) fun _ => keeps_write ?_ _
    exact fun _ h => h
  | synchronizePlayerRotation update =>
    refine keeps_check (guarded_activeMut _) fun _ =>
      keeps_check (guarded_ofExcept _) fun _ => keeps_write ?_ _
    exact fun _ h => h
  | setSpawn spawn =>
    exact keeps_check (guarded_ofExcept _) fun _ => keeps_editSession _ _ _
  | setTime time =>
    exact keeps_check (guarded_ofExcept _) fun _ => keeps_editSession _ _ _
  | setDifficulty difficulty locked => exact keeps_editSession _ _ _
  | setRaining raining => exact keeps_editSession _ _ _
  | setRainLevel level =>
    exact keeps_check (guarded_ofExcept _) fun _ => keeps_editSession _ _ _
  | setThunderLevel level =>
    exact keeps_check (guarded_ofExcept _) fun _ => keeps_editSession _ _ _
  | setGameMode mode => exact keeps_editSession _ _ _
  | setWorldBorder border =>
    exact keeps_check (guarded_ofExcept _) fun _ => keeps_editSession _ _ _
  | loadChunk chunk => exact keeps_loadChunk sums hevent
  | unloadChunk coordinate =>
    refine keeps_check (guarded_require _ _) fun _ => keeps_write ?_ _
    exact fun _ h => h.remove coordinate
  | updateChunkLight coordinate light =>
    refine keeps_check (guarded_require _ _) fun _ => keeps_write ?_ _
    exact fun _ h => h.updateLight (hlight coordinate light rfl) coordinate

theorem keeps_apply (sums : FloatSums) {event : WorldEvent}
    (hlight : ∀ coordinate light, event = .updateChunkLight coordinate light →
      ∀ chunk, Q chunk → Q { chunk with light := light }) (hevent : Loads Q event) :
    Keeps (fun s => EveryChunk Q s.chunks) (apply sums event : WorldM Rest WorldTransition) := by
  refine keeps_check steady_get fun s => keeps_check (guarded_okOr _ _) fun _ => ?_
  refine (keeps_handle sums hlight hevent).bind fun _ => keeps_write ?_ _
  exact fun _ h => h

theorem everyChunk_commit {s t : WorldState Rest} {chunks : LoadedChunks}
    {changed : List ChunkCoordinate} {ignored : Nat} (h : EveryChunk Q chunks)
    (hrun : (commit chunks changed ignored s).state? = some t) : EveryChunk Q t.chunks := by
  rcases commit_cases s chunks changed ignored with
    ⟨_, hcommit⟩ | ⟨_, _, hcommit⟩ | ⟨_, _, hcommit⟩
  all_goals
    rw [hcommit] at hrun
    cases hrun
    exact h

theorem everyChunk_blockUpdates {s t : WorldState Rest} {updates : List BlockStateUpdate}
    (h : EveryChunk Q s.chunks)
    (hbatch : ∀ session progress, s.session = some session →
      Batch session.dimensionGeometry s.chunks updates progress → EveryChunk Q progress.chunks)
    (hrun : (applyBlockUpdates updates s).state? = some t) : EveryChunk Q t.chunks := by
  rcases s.applyBlockUpdates_cases updates with
    ⟨_, e, herr⟩ | ⟨session, progress, haccepts, hwritten, hok⟩
  · rw [herr] at hrun
    cases hrun
    exact h
  · rw [hok] at hrun
    exact everyChunk_commit (hbatch session progress haccepts.2.2 hwritten) hrun

/-- An update of a block entity keeps what it keeps of the chunk it writes to. -/
theorem everyChunk_blockEntityUpdate {s t : WorldState Rest} {position : BlockCoordinates}
    {typeRawId : UInt32} {data : BlockEntityData} (h : EveryChunk Q s.chunks)
    (hput : ∀ place chunk, entityPlace? position = some place →
      s.chunks.lookup (chunkOf position) = some chunk → Q chunk →
      Q { chunk with
        blockEntities := (LoadedChunks.putBlockEntity place.localX place.y place.localZ typeRawId
          data chunk.blockEntities).2 })
    (hrun : (applyBlockEntityUpdate position typeRawId data s).state? = some t) :
    EveryChunk Q t.chunks := by
  rcases s.applyBlockEntityUpdate_cases position typeRawId data with
    ⟨_, e, herr⟩ | ⟨_, _, hok⟩ | ⟨_, place, hplace, hcommit⟩
  · rw [herr] at hrun
    cases hrun
    exact h
  · rw [hok] at hrun
    cases hrun
    exact h
  · rw [hcommit] at hrun
    refine everyChunk_commit ?_ hrun
    cases hchunk : s.chunks.lookup (chunkOf position) with
    | none =>
      rw [updateBlockEntity_none hchunk]
      exact h
    | some chunk =>
      rw [updateBlockEntity_some hchunk]
      exact h.insert (hput place chunk hplace hchunk (h _ _ hchunk)) _

end WorldState

end Cubic.World
