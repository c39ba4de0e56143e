import Cubic.Lib.Run
import Cubic.Render.Mailbox
import Cubic.World.EntityArena

/-!
# Coalescing loses nothing

The renderer's scene, once everything pending is taken, is the scene that results from
applying the calls since the last reset one by one.
-/

namespace Cubic.World.EntityStore

set_option autoImplicit false

variable {Rest : Type} {store : EntityStore Rest}

/-- The entity the store holds under an id. -/
def entityAt (store : EntityStore Rest) (id : Int32) : Option (Entity Rest) :=
  (store.handle id).bind store.get

theorem Sound.get_id (h : store.Sound) {id : Int32} {handle : EntityHandle} {entity : Entity Rest}
    (hhandle : store.handle id = some handle) (hget : store.get handle = some entity) :
    entity.id = id := by
  obtain ⟨slot, entity', hslot, hgeneration, hentity, hid⟩ := h.indexed id handle hhandle
  unfold EntityStore.get at hget
  rw [hslot] at hget
  change (if slot.generation ≠ handle.generation then none else slot.entity) = _ at hget
  rw [if_neg (not_not.mpr hgeneration), hentity] at hget
  cases hget
  exact hid

/-- Read by id, the snapshot of a sound store is the store. -/
theorem Sound.lookup_snapshot (h : store.Sound) (id : Int32) :
    (OrderedMap.ofList (store.snapshot.map fun e => (e.2.id, e.2))).lookup id =
      store.entityAt id := by
  have hlist : store.snapshot.map (fun e => (e.2.id, e.2)) =
      store.byId.entries.filterMap fun e => (store.get e.2).map fun entity => (e.1, entity) := by
    unfold snapshot OrderedMap.values
    rw [List.filterMap_map, List.map_filterMap]
    apply List.filterMap_congr
    intro e he
    rw [Function.comp_apply, Option.map_map]
    cases hget : store.get e.2 with
    | none => rfl
    | some entity =>
      have hid := h.get_id (OrderedMap.mem_entries_iff.mp he) hget
      exact congrArg some (congrArg (·, entity) hid)
  have hascending : Entries.Ascending (store.byId.entries.filterMap fun e =>
      (store.get e.2).map fun entity => (e.1, entity)) := by
    refine List.Pairwise.filterMap _ ?_ store.byId.ascending
    intro a b hab a' ha b' hb
    obtain ⟨_, _, rfl⟩ := Option.map_eq_some_iff.mp ha
    obtain ⟨_, _, rfl⟩ := Option.map_eq_some_iff.mp hb
    exact hab
  have hnodup := List.pairwise_map.mpr (hascending.imp fun hlt => hlt.ne)
  rw [hlist, OrderedMap.lookup_ofList hnodup]
  apply Option.ext
  intro entity
  unfold entityAt
  rw [Option.bind_eq_some_iff]
  constructor
  · intro hlookup
    obtain ⟨e, he, hmap⟩ := List.mem_filterMap.mp (Entries.mem_of_lookup hlookup)
    obtain ⟨_, hget, heq⟩ := Option.map_eq_some_iff.mp hmap
    cases heq
    exact ⟨e.2, OrderedMap.mem_entries_iff.mp he, hget⟩
  · rintro ⟨handle, hhandle, hget⟩
    apply Entries.lookup_of_mem hascending
    refine List.mem_filterMap.mpr ⟨(id, handle), OrderedMap.mem_entries_iff.mpr hhandle, ?_⟩
    exact congrArg (Option.map _) hget

end Cubic.World.EntityStore

namespace Cubic.Render

open World

set_option autoImplicit false

variable {Rest Target Inventory : Type}

/-- The chunks and entities on screen. -/
structure Scene (Rest : Type) where
  chunks : OrderedMap ChunkCoordinate Chunk
  entities : OrderedMap Int32 (Entity Rest)

namespace ChunkRenderDelta

def coordinate : ChunkRenderDelta → ChunkCoordinate
  | loaded chunk => chunk.coordinate
  | unloaded coordinate => coordinate

/-- What is shown at the coordinate from then on. -/
def value : ChunkRenderDelta → Option Chunk
  | loaded chunk => some chunk
  | unloaded _ => none

end ChunkRenderDelta

def EntityRenderDelta.value : EntityRenderDelta Rest → Option (Entity Rest)
  | upsert entity => some entity
  | remove _ => none
  | replaceAll _ => none

namespace Scene

def empty : Scene Rest := ⟨OrderedMap.empty, OrderedMap.empty⟩

def chunk (scene : Scene Rest) (delta : ChunkRenderDelta) : Scene Rest :=
  { scene with chunks := scene.chunks.put delta.coordinate delta.value }

def entity (scene : Scene Rest) : EntityRenderDelta Rest → Scene Rest
  | .upsert entity => { scene with entities := scene.entities.insert entity.id entity }
  | .remove id => { scene with entities := scene.entities.remove id }
  | .replaceAll entities =>
    { scene with entities := OrderedMap.ofList (entities.map fun e => (e.id, e)) }

/-- The renderer's reaction to one update. -/
def update (scene : Scene Rest) (update : WorldRenderUpdate Rest Target Inventory) : Scene Rest :=
  update.entities.foldl entity
    (update.chunks.foldl chunk (if update.reset then empty else scene))

end Scene

/-- Whether a delta for an id finds no room, so that a snapshot takes the place of the deltas. -/
def Mailbox.Overflows (m : Mailbox Rest Target Inventory) (id : Int32) : Prop :=
  m.entityReplacement.isNone ∧
    ¬ (m.entities.size < maxRemoteEntities ∨ (m.entities.lookup id).isSome)

instance (m : Mailbox Rest Target Inventory) (id : Int32) : Decidable (m.Overflows id) :=
  inferInstanceAs (Decidable (_ ∧ _))

/-- The mailbox between the authoritative entities and the screen. `direct` is what the calls
since the last reset amount to, `unpublished` the ids under which an entity changed
and no call has told of it yet, and `ahead` those of them that were so when a snapshot was
taken and still are. -/
structure System (Rest Target Inventory : Type) where
  arena : Arena Rest
  mailbox : Mailbox Rest Target Inventory
  shown : Scene Rest
  direct : Scene Rest
  unpublished : Set Int32
  ahead : Set Int32

inductive Input (Rest Target Inventory : Type) where
  | world (op : ArenaOp Rest)
  | reset (dimension : String) (geometry : DimensionGeometry) (biomes : List RuntimeBiome)
      (gameMode : GameMode)
  | load (chunk : Chunk)
  | unload (coordinate : ChunkCoordinate)
  | entity (delta : EntityRenderDelta Rest)
  | inventory (inventory : Inventory)
  | gameMode (gameMode : GameMode)
  | target (target : Option Target)
  | breaking (breaking : Option BlockBreakingOverlay)
  | pose (pose : RenderPoseSample) (jumped : Bool) (publishedAt : Instant)
  | take

namespace System

def initial : System Rest Target Inventory :=
  ⟨Arena.empty, Mailbox.default, Scene.empty, Scene.empty, ∅, ∅⟩

/-- The renderer takes what is pending. -/
def take (s : System Rest Target Inventory) : System Rest Target Inventory :=
  { s with
    mailbox := s.mailbox.takeUpdate.2
    shown := s.mailbox.takeUpdate.1.elim s.shown s.shown.update }

/-- What no call has told of once a delta for an id is published. -/
def untold (s : System Rest Target Inventory) (delta : EntityRenderDelta Rest) (id : Int32) :
    Set Int32 :=
  {k | if k = id then delta.value ≠ s.arena.store.entityAt k else k ∈ s.unpublished}

/-- A delta for all entities is no call the mailbox accepts. -/
def publish (s : System Rest Target Inventory) (delta : EntityRenderDelta Rest) :
    System Rest Target Inventory :=
  match delta.id? with
  | none => s
  | some id =>
    { s with
      mailbox := s.mailbox.entity delta s.arena.store
      direct := s.direct.entity delta
      unpublished := s.untold delta id
      ahead := if s.mailbox.Overflows id then s.untold delta id else s.ahead \ {id} }

/-- An id is told of by the delta the authoritative store holds under it. -/
theorem told_of_publish {s : System Rest Target Inventory} {delta : EntityRenderDelta Rest}
    {id : Int32} (hid : delta.id? = some id) (hvalue : delta.value = s.arena.store.entityAt id) :
    id ∉ (s.publish delta).ahead := by
  unfold publish
  rw [hid]
  dsimp only
  split
  · unfold untold
    rw [Set.mem_ofPred_eq, if_pos rfl]
    exact not_not.mpr hvalue
  · exact fun hmem => hmem.2 rfl

variable [BEq Target]

def next (s : System Rest Target Inventory) :
    Input Rest Target Inventory → System Rest Target Inventory
  | .world op =>
    { s with
      arena := s.arena.next op
      unpublished := {k | k ∈ s.unpublished ∨
        (s.arena.next op).store.entityAt k ≠ s.arena.store.entityAt k} }
  | .reset dimension geometry biomes gameMode =>
    { s with
      mailbox := s.mailbox.publishReset dimension geometry biomes gameMode
      direct := Scene.empty
      unpublished := {k | s.arena.store.entityAt k ≠ none}
      ahead := ∅ }
  | .load chunk =>
    { s with
      mailbox := s.mailbox.load chunk
      direct := s.direct.chunk (.loaded chunk) }
  | .unload coordinate =>
    { s with
      mailbox := s.mailbox.unload coordinate
      direct := s.direct.chunk (.unloaded coordinate) }
  | .entity delta => s.publish delta
  | .inventory inventory => { s with mailbox := s.mailbox.publishInventory inventory }
  | .gameMode gameMode => { s with mailbox := s.mailbox.publishGameMode gameMode }
  | .target target => { s with mailbox := s.mailbox.publishTarget target }
  | .breaking breaking => { s with mailbox := s.mailbox.publishBreaking breaking }
  | .pose pose jumped publishedAt => { s with mailbox := s.mailbox.setPose pose jumped publishedAt }
  | .take => s.take

end System

/-! ### What is pending -/

namespace Mailbox
variable {m : Mailbox Rest Target Inventory} {scene : Scene Rest}

/-- The chunk shown at a coordinate once everything pending is taken. -/
def chunkAfter (m : Mailbox Rest Target Inventory) (scene : Scene Rest)
    (coordinate : ChunkCoordinate) : Option Chunk :=
  match m.chunks.lookup coordinate with
  | some delta => delta.value
  | none => if m.reset then none else scene.chunks.lookup coordinate

/-- The entity shown under an id once everything pending is taken. -/
def entityAfter (m : Mailbox Rest Target Inventory) (scene : Scene Rest) (id : Int32) :
    Option (Entity Rest) :=
  match m.entityReplacement with
  | some replacement => replacement.lookup id
  | none =>
    match m.entities.lookup id with
    | some delta => delta.value
    | none => if m.reset then none else scene.entities.lookup id

/-- Deltas are filed under what they are about, and nothing waits in a clean mailbox. -/
structure Filed (m : Mailbox Rest Target Inventory) : Prop where
  chunks : ∀ coordinate delta, m.chunks.lookup coordinate = some delta →
    delta.coordinate = coordinate
  entities : ∀ id delta, m.entities.lookup id = some delta → delta.id? = some id
  replacement : ∀ entities, m.entityReplacement = some entities →
    ∀ id entity, entities.lookup id = some entity → entity.id = id
  bounded : m.entities.size ≤ maxRemoteEntities
  clean : m.dirty = false → m.reset = false ∧ m.chunks = OrderedMap.empty ∧
    m.entities = OrderedMap.empty ∧ m.entityReplacement = none

end Mailbox

namespace Scene

theorem entity_eq_put (scene : Scene Rest) {delta : EntityRenderDelta Rest} {id : Int32}
    (h : delta.id? = some id) :
    scene.entity delta = { scene with entities := scene.entities.put id delta.value } := by
  cases delta with
  | upsert entity =>
    cases h
    rfl
  | remove id' =>
    cases h
    rfl
  | replaceAll entities => cases h

theorem foldl_chunk (deltas : List (ChunkCoordinate × ChunkRenderDelta))
    (h : ∀ e ∈ deltas, e.2.coordinate = e.1) : ∀ scene : Scene Rest,
    (deltas.map Prod.snd).foldl chunk scene = { scene with
      chunks := OrderedMap.putAll (deltas.map fun e => (e.1, e.2.value)) scene.chunks } := by
  induction deltas with
  | nil => exact fun _ => rfl
  | cons e rest ih =>
    intro scene
    rw [List.map_cons, List.foldl_cons, ih fun e he => h e (List.mem_cons_of_mem _ he)]
    unfold chunk
    rw [h e List.mem_cons_self]
    rfl

theorem foldl_entity (deltas : List (Int32 × EntityRenderDelta Rest))
    (h : ∀ e ∈ deltas, e.2.id? = some e.1) : ∀ scene : Scene Rest,
    (deltas.map Prod.snd).foldl entity scene = { scene with
      entities := OrderedMap.putAll (deltas.map fun e => (e.1, e.2.value)) scene.entities } := by
  induction deltas with
  | nil => exact fun _ => rfl
  | cons e rest ih =>
    intro scene
    rw [List.map_cons, List.foldl_cons, ih fun e he => h e (List.mem_cons_of_mem _ he),
      entity_eq_put scene (h e List.mem_cons_self)]
    rfl

theorem update_chunks (scene : Scene Rest) (u : WorldRenderUpdate Rest Target Inventory) :
    (scene.update u).chunks =
      (u.chunks.foldl chunk (if u.reset then empty else scene)).chunks := by
  have hentity : ∀ (scene : Scene Rest) delta, (scene.entity delta).chunks = scene.chunks := by
    intro scene delta
    cases delta <;> rfl
  unfold update
  generalize u.chunks.foldl chunk _ = base
  induction u.entities generalizing base with
  | nil => rfl
  | cons delta rest ih => exact (ih (base.entity delta)).trans (hentity base delta)

/-- Entities are shown whatever happens to chunks. -/
theorem update_entities (scene : Scene Rest) (u : WorldRenderUpdate Rest Target Inventory) :
    (scene.update u).entities =
      (u.entities.foldl entity (if u.reset then empty else scene)).entities := by
  have hfold : ∀ (deltas : List (EntityRenderDelta Rest)) (a b : Scene Rest),
      a.entities = b.entities → (deltas.foldl entity a).entities = (deltas.foldl entity b).entities := by
    intro deltas
    induction deltas with
    | nil => exact fun _ _ h => h
    | cons delta rest ih =>
      intro a b h
      apply ih
      cases delta with
      | upsert entity => exact congrArg (OrderedMap.insert · entity.id entity) h
      | remove id => exact congrArg (OrderedMap.remove · id) h
      | replaceAll entities => rfl
  unfold update
  apply hfold
  generalize (if u.reset then empty else scene) = base
  induction u.chunks generalizing base with
  | nil => rfl
  | cons delta rest ih => exact ih (base.chunk delta)

end Scene

namespace Mailbox
variable {m : Mailbox Rest Target Inventory}

theorem takeUpdate_clean (h : m.dirty = false) : m.takeUpdate = (none, m) := by
  unfold takeUpdate
  rw [h]
  rfl

theorem filed_takeUpdate (h : m.Filed) : m.takeUpdate.2.Filed := by
  cases hdirty : m.dirty with
  | false =>
    rw [takeUpdate_clean hdirty]
    exact h
  | true =>
    unfold takeUpdate
    rw [hdirty]
    exact ⟨nofun, nofun, nofun, Nat.zero_le _, fun _ => ⟨rfl, rfl, rfl, rfl⟩⟩

/-- Nothing waits once an update is taken. -/
theorem takeUpdate_after (h : m.Filed) (scene : Scene Rest) :
    (∀ coordinate, m.takeUpdate.2.chunkAfter scene coordinate =
      scene.chunks.lookup coordinate) ∧
    ∀ id, m.takeUpdate.2.entityAfter scene id = scene.entities.lookup id := by
  cases hdirty : m.dirty with
  | false =>
    obtain ⟨hreset, hchunks, hentities, hreplacement⟩ := h.clean hdirty
    rw [takeUpdate_clean hdirty]
    unfold chunkAfter entityAfter
    rw [hreset, hchunks, hentities, hreplacement]
    exact ⟨fun _ => rfl, fun _ => rfl⟩
  | true =>
    unfold takeUpdate
    rw [hdirty]
    exact ⟨fun _ => rfl, fun _ => rfl⟩

/-- Taking shows at each coordinate what the mailbox promises. -/
theorem lookup_take_chunks (h : m.Filed) (scene : Scene Rest) (coordinate : ChunkCoordinate) :
    (m.takeUpdate.1.elim scene scene.update).chunks.lookup coordinate =
      m.chunkAfter scene coordinate := by
  cases hdirty : m.dirty with
  | false =>
    obtain ⟨hreset, hchunks, _, _⟩ := h.clean hdirty
    rw [takeUpdate_clean hdirty]
    unfold chunkAfter
    rw [hreset, hchunks]
    rfl
  | true =>
    unfold takeUpdate
    rw [hdirty]
    change (Scene.update scene _).chunks.lookup coordinate = _
    rw [Scene.update_chunks]
    dsimp only
    unfold OrderedMap.values
    rw [Scene.foldl_chunk m.chunks.entries fun e he =>
      h.chunks e.1 e.2 (OrderedMap.mem_entries_iff.mp he)]
    dsimp only
    rw [OrderedMap.lookup_putAll_entries]
    unfold chunkAfter
    cases m.chunks.lookup coordinate with
    | some delta => rfl
    | none => split <;> rfl

/-- Taking shows under each id what the mailbox promises. -/
theorem lookup_take_entities (h : m.Filed) (scene : Scene Rest) (id : Int32) :
    (m.takeUpdate.1.elim scene scene.update).entities.lookup id = m.entityAfter scene id := by
  cases hdirty : m.dirty with
  | false =>
    obtain ⟨hreset, _, hentities, hreplacement⟩ := h.clean hdirty
    rw [takeUpdate_clean hdirty]
    unfold entityAfter
    rw [hreset, hentities, hreplacement]
    rfl
  | true =>
    unfold takeUpdate
    rw [hdirty]
    change (Scene.update scene _).entities.lookup id = _
    rw [Scene.update_entities]
    dsimp only
    unfold entityAfter
    cases hreplacement : m.entityReplacement with
    | some replacement =>
      have hlist : replacement.values.map (fun e => (e.id, e)) = replacement.entries := by
        unfold OrderedMap.values
        rw [List.map_map, List.map_congr_left, List.map_id]
        intro e he
        rw [Function.comp_apply,
          h.replacement replacement hreplacement e.1 e.2 (OrderedMap.mem_entries_iff.mp he)]
        rfl
      change (OrderedMap.ofList (replacement.values.map fun e => (e.id, e))).lookup id = _
      rw [hlist, OrderedMap.ofList_entries]
    | none =>
      dsimp only
      unfold OrderedMap.values
      rw [Scene.foldl_entity m.entities.entries fun e he =>
        h.entities e.1 e.2 (OrderedMap.mem_entries_iff.mp he)]
      dsimp only
      rw [OrderedMap.lookup_putAll_entries]
      cases m.entities.lookup id with
      | some delta => rfl
      | none => split <;> rfl

end Mailbox

namespace Mailbox
variable {m : Mailbox Rest Target Inventory} {store : EntityStore Rest}
  {delta : EntityRenderDelta Rest} {id : Int32}

theorem amend_eq_put (h : delta.id? = some id) (replacement : OrderedMap Int32 (Entity Rest)) :
    delta.amend replacement = replacement.put id delta.value := by
  cases delta with
  | upsert entity =>
    cases h
    rfl
  | remove id' =>
    cases h
    rfl
  | replaceAll entities => cases h

theorem value_id (h : delta.id? = some id) {entity : Entity Rest}
    (hvalue : delta.value = some entity) : entity.id = id := by
  cases delta with
  | upsert entity' =>
    cases h
    cases hvalue
    rfl
  | remove id' => cases hvalue
  | replaceAll entities => cases hvalue

theorem chunkAfter_entity (m : Mailbox Rest Target Inventory) (delta : EntityRenderDelta Rest)
    (store : EntityStore Rest) (scene : Scene Rest) (coordinate : ChunkCoordinate) :
    (m.entity delta store).chunkAfter scene coordinate = m.chunkAfter scene coordinate := by
  unfold entity
  split
  · rfl
  · split
    · rfl
    · split <;> rfl

/-- With room, a delta for one id changes the promise at that id. -/
theorem entityAfter_entity (hroom : ¬ m.Overflows id) (hid : delta.id? = some id)
    (store : EntityStore Rest) (scene : Scene Rest) (k : Int32) :
    (m.entity delta store).entityAfter scene k =
      if k = id then delta.value else m.entityAfter scene k := by
  unfold entity
  rw [hid]
  dsimp only
  cases hreplacement : m.entityReplacement with
  | some replacement =>
    unfold entityAfter
    rw [hreplacement]
    dsimp only
    rw [amend_eq_put hid, OrderedMap.lookup_put]
  | none =>
    have hroom : m.entities.size < maxRemoteEntities ∨ (m.entities.lookup id).isSome := by
      by_contra hfull
      exact hroom ⟨Option.isNone_iff_eq_none.mpr hreplacement, hfull⟩
    dsimp only
    rw [if_pos hroom]
    unfold entityAfter
    dsimp only
    rw [hreplacement, OrderedMap.lookup_insert]
    by_cases hk : k = id
    · rw [if_pos hk, if_pos hk]
    · rw [if_neg hk, if_neg hk]

/-- Without room, the promise becomes the store. -/
theorem entityAfter_snapshot (hfull : m.Overflows id) (hid : delta.id? = some id)
    (hstore : store.Sound) (scene : Scene Rest) (k : Int32) :
    (m.entity delta store).entityAfter scene k = store.entityAt k := by
  unfold entity
  rw [hid, Option.isNone_iff_eq_none.mp hfull.1]
  dsimp only
  rw [if_neg hfull.2]
  exact hstore.lookup_snapshot k

theorem Filed.entity (h : m.Filed) (hstore : store.Sound) (hid : delta.id? = some id) :
    (m.entity delta store).Filed := by
  unfold Mailbox.entity
  rw [hid]
  dsimp only
  cases hreplacement : m.entityReplacement with
  | some replacement =>
    refine ⟨h.chunks, h.entities, ?_, h.bounded, nofun⟩
    intro entities hentities k entity hlookup
    cases hentities
    rw [amend_eq_put hid, OrderedMap.lookup_put] at hlookup
    split at hlookup
    · rename_i hk
      exact hk ▸ value_id hid hlookup
    · exact h.replacement replacement hreplacement k entity hlookup
  | none =>
    dsimp only
    split
    · rename_i hroom
      refine ⟨h.chunks, ?_, nofun, ?_, nofun⟩
      · intro k delta' hlookup
        dsimp only at hlookup
        rw [OrderedMap.lookup_insert] at hlookup
        split at hlookup
        · rename_i hk
          cases hlookup
          exact hk ▸ hid
        · exact h.entities k delta' hlookup
      · dsimp only
        rw [OrderedMap.size_insert]
        have hbounded := h.bounded
        split
        · exact hbounded
        · rename_i hfresh
          rcases hroom with hlt | hold
          · exact hlt
          · exact absurd hold hfresh
    · refine ⟨h.chunks, nofun, ?_, Nat.zero_le _, nofun⟩
      intro entities hentities k entity hlookup
      cases hentities
      rw [hstore.lookup_snapshot, EntityStore.entityAt, Option.bind_eq_some_iff] at hlookup
      obtain ⟨handle, hhandle, hget⟩ := hlookup
      exact hstore.get_id hhandle hget

end Mailbox

/-! ### Step by step -/

/-- The authoritative store is sound, deltas are filed, what is shown once everything is
taken is what the calls amount to, and that is the store where nothing is unpublished. -/
structure System.Coherent (s : System Rest Target Inventory) : Prop where
  tracked : s.arena.Tracked
  filed : s.mailbox.Filed
  chunks : ∀ coordinate, s.mailbox.chunkAfter s.shown coordinate =
    s.direct.chunks.lookup coordinate
  entities : ∀ id, id ∉ s.ahead →
    s.mailbox.entityAfter s.shown id = s.direct.entities.lookup id
  ahead_subset : s.ahead ⊆ s.unpublished
  published : ∀ id, id ∉ s.unpublished →
    s.direct.entities.lookup id = s.arena.store.entityAt id

namespace System
variable {s : System Rest Target Inventory}

theorem coherent_initial : (initial : System Rest Target Inventory).Coherent := by
  refine ⟨Arena.tracked_empty, ?_, fun _ => rfl, fun _ _ => rfl, Set.Subset.rfl, fun _ _ => rfl⟩
  exact ⟨nofun, nofun, nofun, Nat.zero_le _, fun _ => ⟨rfl, rfl, rfl, rfl⟩⟩

/-- The presentation data of the mailbox takes no part. -/
theorem Coherent.presentation (h : s.Coherent) {m : Mailbox Rest Target Inventory}
    (hreset : m.reset = s.mailbox.reset) (hchunks : m.chunks = s.mailbox.chunks)
    (hentities : m.entities = s.mailbox.entities)
    (hreplacement : m.entityReplacement = s.mailbox.entityReplacement)
    (hdirty : m.dirty = false → s.mailbox.dirty = false) : Coherent { s with mailbox := m } := by
  refine ⟨h.tracked, ⟨?_, ?_, ?_, ?_, ?_⟩, ?_, ?_, h.ahead_subset, h.published⟩
  · rw [hchunks]
    exact h.filed.chunks
  · rw [hentities]
    exact h.filed.entities
  · rw [hreplacement]
    exact h.filed.replacement
  · rw [hentities]
    exact h.filed.bounded
  · intro hclean
    rw [hreset, hchunks, hentities, hreplacement]
    exact h.filed.clean (hdirty hclean)
  · unfold Mailbox.chunkAfter
    rw [hreset, hchunks]
    exact h.chunks
  · unfold Mailbox.entityAfter
    rw [hreset, hentities, hreplacement]
    exact h.entities

theorem Coherent.world (h : s.Coherent) (op : ArenaOp Rest) :
    Coherent { s with
      arena := s.arena.next op
      unpublished := {k | k ∈ s.unpublished ∨
        (s.arena.next op).store.entityAt k ≠ s.arena.store.entityAt k} } := by
  refine ⟨h.tracked.next op, h.filed, h.chunks, h.entities, ?_, ?_⟩
  · exact fun id hid => .inl (h.ahead_subset hid)
  · intro id hid
    have hsame : (s.arena.next op).store.entityAt id = s.arena.store.entityAt id :=
      not_not.mp fun hne => hid (.inr hne)
    exact (h.published id fun hmem => hid (.inl hmem)).trans hsame.symm

theorem Coherent.reset (h : s.Coherent) (dimension : String) (geometry : DimensionGeometry)
    (biomes : List RuntimeBiome) (gameMode : GameMode) :
    Coherent { s with
      mailbox := s.mailbox.publishReset dimension geometry biomes gameMode
      direct := Scene.empty
      unpublished := {k | s.arena.store.entityAt k ≠ none}
      ahead := ∅ } := by
  refine ⟨h.tracked, ⟨nofun, nofun, nofun, Nat.zero_le _, nofun⟩, fun _ => rfl, fun _ _ => rfl,
    Set.empty_subset _, ?_⟩
  intro id hid
  exact (not_not.mp hid).symm

/-- A chunk delta replaces what waits at its coordinate. -/
theorem Coherent.chunk (h : s.Coherent) (delta : ChunkRenderDelta) :
    Coherent { s with
      mailbox := { s.mailbox with
        chunks := s.mailbox.chunks.insert delta.coordinate delta
        dirty := true }
      direct := s.direct.chunk delta } := by
  refine ⟨h.tracked, ⟨?_, h.filed.entities, h.filed.replacement, h.filed.bounded, nofun⟩, ?_,
    h.entities, h.ahead_subset, h.published⟩
  · intro coordinate delta' hdelta
    dsimp only at hdelta
    rw [OrderedMap.lookup_insert] at hdelta
    split at hdelta
    · rename_i heq
      cases hdelta
      exact heq.symm
    · exact h.filed.chunks coordinate delta' hdelta
  · intro coordinate
    have hrest := h.chunks coordinate
    unfold Mailbox.chunkAfter Scene.chunk at *
    dsimp only
    rw [OrderedMap.lookup_insert, OrderedMap.lookup_put]
    by_cases hcoordinate : coordinate = delta.coordinate
    · rw [if_pos hcoordinate, if_pos hcoordinate]
    · rw [if_neg hcoordinate, if_neg hcoordinate]
      exact hrest

theorem Coherent.publish (h : s.Coherent) (delta : EntityRenderDelta Rest) :
    (s.publish delta).Coherent := by
  unfold System.publish
  cases hid : delta.id? with
  | none => exact h
  | some id =>
    have hdirect := Scene.entity_eq_put s.direct hid
    have htold : ∀ k, k ∉ s.untold delta id → (s.direct.entity delta).entities.lookup k =
        s.arena.store.entityAt k := by
      intro k hk
      rw [hdirect, OrderedMap.lookup_put]
      unfold untold at hk
      rw [Set.mem_ofPred_eq] at hk
      by_cases hkid : k = id
      · rw [if_pos hkid, not_not] at hk
        rw [if_pos hkid, hk]
      · rw [if_neg hkid] at hk
        rw [if_neg hkid, h.published k hk]
    refine ⟨h.tracked, h.filed.entity h.tracked.sound hid, ?_, ?_, ?_, htold⟩
    · intro coordinate
      dsimp only
      rw [hdirect, Mailbox.chunkAfter_entity]
      exact h.chunks coordinate
    · intro k hk
      dsimp only at hk ⊢
      by_cases hfull : s.mailbox.Overflows id
      · rw [if_pos hfull] at hk
        rw [Mailbox.entityAfter_snapshot hfull hid h.tracked.sound, htold k hk]
      · rw [if_neg hfull] at hk
        rw [Mailbox.entityAfter_entity hfull hid, hdirect, OrderedMap.lookup_put]
        by_cases hkid : k = id
        · rw [if_pos hkid, if_pos hkid]
        · rw [if_neg hkid, if_neg hkid]
          exact h.entities k fun hmem => hk ⟨hmem, hkid⟩
    · dsimp only
      split
      · exact Set.Subset.rfl
      · rintro k ⟨hk, hkid⟩
        unfold untold
        rw [Set.mem_ofPred_eq, if_neg (show k ≠ id from hkid)]
        exact h.ahead_subset hk

theorem Coherent.take (h : s.Coherent) : s.take.Coherent := by
  have hchunks := Mailbox.lookup_take_chunks h.filed s.shown
  have hentities := Mailbox.lookup_take_entities h.filed s.shown
  obtain ⟨hnoChunks, hnoEntities⟩ := Mailbox.takeUpdate_after h.filed
    (s.mailbox.takeUpdate.1.elim s.shown s.shown.update)
  refine ⟨h.tracked, Mailbox.filed_takeUpdate h.filed, ?_, ?_, h.ahead_subset, h.published⟩
  · intro coordinate
    exact (hnoChunks coordinate).trans ((hchunks coordinate).trans (h.chunks coordinate))
  · intro id hid
    exact (hnoEntities id).trans ((hentities id).trans (h.entities id hid))

theorem Coherent.next [BEq Target] (h : s.Coherent) (input : Input Rest Target Inventory) :
    (s.next input).Coherent := by
  cases input with
  | world op => exact h.world op
  | reset dimension geometry biomes gameMode => exact h.reset dimension geometry biomes gameMode
  | load chunk => exact h.chunk (.loaded chunk)
  | unload coordinate => exact h.chunk (.unloaded coordinate)
  | entity delta => exact h.publish delta
  | inventory inventory => exact h.presentation rfl rfl rfl rfl nofun
  | pose pose jumped publishedAt => exact h.presentation rfl rfl rfl rfl nofun
  | take => exact h.take
  | gameMode gameMode =>
    change Coherent { s with mailbox := s.mailbox.publishGameMode gameMode }
    unfold Mailbox.publishGameMode
    split
    · exact h
    · exact h.presentation rfl rfl rfl rfl nofun
  | target target =>
    change Coherent { s with mailbox := s.mailbox.publishTarget target }
    unfold Mailbox.publishTarget
    split
    · exact h
    · exact h.presentation rfl rfl rfl rfl nofun
  | breaking breaking =>
    change Coherent { s with mailbox := s.mailbox.publishBreaking breaking }
    unfold Mailbox.publishBreaking
    split
    · exact h
    · exact h.presentation rfl rfl rfl rfl nofun

end System

/-- Whenever the renderer catches up after a run, the chunks on screen are those the calls since
the last reset amount to, and so are the entities, except under ids at which a snapshot of the
store was ahead of the calls and no call has caught up; and deltas never pile up. -/
theorem coalescing_loses_nothing [BEq Target] (inputs : List (Input Rest Target Inventory))
    (s : System Rest Target Inventory)
    (hrun : Run (fun s input t => s.next input = t) System.initial inputs s) :
    s.mailbox.entities.size ≤ maxRemoteEntities ∧
      s.take.shown.chunks = s.direct.chunks ∧
      (∀ id, id ∉ s.ahead → s.take.shown.entities.lookup id = s.direct.entities.lookup id) ∧
      s.ahead ⊆ s.unpublished ∧
      (s.ahead = ∅ → s.take.shown.entities = s.direct.entities) := by
  have h : s.Coherent := by
    refine hrun.invariant ?_ System.coherent_initial
    intro s input t h hstep
    exact hstep ▸ h.next input
  have hentities : ∀ id, id ∉ s.ahead →
      s.take.shown.entities.lookup id = s.direct.entities.lookup id := by
    intro id hid
    exact (Mailbox.lookup_take_entities h.filed s.shown id).trans (h.entities id hid)
  refine ⟨h.filed.bounded, ?_, hentities, h.ahead_subset, ?_⟩
  · apply OrderedMap.ext_lookup
    intro coordinate
    exact (Mailbox.lookup_take_chunks h.filed s.shown coordinate).trans (h.chunks coordinate)
  · intro hnone
    apply OrderedMap.ext_lookup
    intro id
    apply hentities
    rw [hnone]
    exact Set.notMem_empty id

/-- A zombie is shown, and gone by the next look. -/
theorem coalescing_loses_nothing_zombie :
    ∃ s : System Unit Unit Unit, Run (fun s input t => s.next input = t) System.initial
        [.world (.spawn (zombie 7) 0), .entity (.upsert (zombie 7)), .take, .world (.remove 7),
          .entity (.remove 7), .unload ⟨2, -3⟩] s ∧
      s.mailbox.entities.size ≤ maxRemoteEntities ∧ s.take.shown.chunks = s.direct.chunks ∧
      s.take.shown.entities.lookup 7 = s.direct.entities.lookup 7 := by
  have hrun : Run (fun (s : System Unit Unit Unit) input t => s.next input = t) System.initial
      [.world (.spawn (zombie 7) 0), .entity (.upsert (zombie 7)), .take, .world (.remove 7),
        .entity (.remove 7), .unload ⟨2, -3⟩] _ :=
    .cons rfl (.cons rfl (.cons rfl (.cons rfl (.cons rfl (.cons rfl (.nil _))))))
  have hgone : ((Arena.empty.next (.spawn (zombie 7) 0)).next (.remove 7)).store.entityAt 7 =
      none := by
    decide +kernel
  obtain ⟨hbounded, hchunks, hentities, _⟩ := coalescing_loses_nothing _ _ hrun
  refine ⟨_, hrun, hbounded, hchunks, hentities 7 (System.told_of_publish rfl ?_)⟩
  exact hgone.symm

end Cubic.Render
