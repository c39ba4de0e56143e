import Cubic.Codec.Reader
import Cubic.Lib.OrderedMap
import Cubic.Version.Identifier
import Cubic.World.Float

/-!
# The store of remote entities (`entity.rs`)

Slots are reused under a new generation; the free slots form a stack.
-/

namespace Cubic.World

set_option autoImplicit false

def maxRemoteEntities : Nat := 4096

structure EntityHandle where
  slot : UInt32
  generation : UInt64
  deriving DecidableEq

structure EntityTransform where
  position : Vec3d
  yaw : F32
  pitch : F32
  headYaw : F32
  deriving DecidableEq

def EntityTransform.isFinite (t : EntityTransform) : Bool :=
  t.position.isFinite && t.yaw.isFinite && t.pitch.isFinite && t.headYaw.isFinite

/-- `Rest` is what the store keeps of an entity without looking at it. -/
structure Entity (Rest : Type) where
  id : Int32
  entityType : String
  authoritative : EntityTransform
  velocity : Vec3d
  rest : Rest
  deriving DecidableEq

structure EntitySlot (Rest : Type) where
  generation : UInt64
  entity : Option (Entity Rest)
  previous : EntityTransform
  targetAtMs : UInt64
  deriving DecidableEq

structure EntityStore (Rest : Type) where
  slots : List (EntitySlot Rest)
  byId : OrderedMap Int32 EntityHandle
  /-- The last slot freed first. -/
  free : List UInt32
  deriving DecidableEq

inductive EntityError where
  | capacity
  | nonFinite
  | invalidType
  deriving DecidableEq

namespace EntityStore
variable {Rest : Type}

def empty : EntityStore Rest := ⟨[], OrderedMap.empty, []⟩

def handle (store : EntityStore Rest) (id : Int32) : Option EntityHandle := store.byId.lookup id

def get (store : EntityStore Rest) (handle : EntityHandle) : Option (Entity Rest) := do
  let slot ← store.slots[handle.slot.toNat]?
  if slot.generation ≠ handle.generation then none else slot.entity

/-- What a caller writes through the reference that `get_mut` hands out. -/
def edit (store : EntityStore Rest) (handle : EntityHandle) (f : Entity Rest → Entity Rest) :
    EntityStore Rest :=
  match store.slots[handle.slot.toNat]? with
  | none => store
  | some slot =>
    if slot.generation ≠ handle.generation then store
    else { store with
      slots := store.slots.set handle.slot.toNat { slot with entity := slot.entity.map f } }

def remove (store : EntityStore Rest) (id : Int32) : Bool × EntityStore Rest :=
  match store.byId.lookup id with
  | none => (false, store)
  | some handle =>
    let store := { store with byId := store.byId.remove id }
    match store.slots[handle.slot.toNat]? with
    | none => (true, store)
    | some slot =>
      (true, { store with
        slots := store.slots.set handle.slot.toNat
          { slot with entity := none, generation := slot.generation + 1 }
        free := handle.slot :: store.free })

/-- A free slot, or a new one at the end. -/
def takeSlot (store : EntityStore Rest) (entity : Entity Rest) (atMs : UInt64) :
    Except EntityError UInt32 × EntityStore Rest :=
  match store.free with
  | index :: free => (.ok index, { store with free := free })
  | [] =>
    if maxRemoteEntities ≤ store.slots.length then (.error .capacity, store)
    else if 2 ^ 32 ≤ store.slots.length then (.error .capacity, store)
    else
      (.ok (.ofNat store.slots.length), { store with
        slots := store.slots ++ [⟨0, none, entity.authoritative, atMs⟩] })

/-- `spawn` once the entity is checked and its old self removed. -/
def place (store : EntityStore Rest) (entity : Entity Rest) (atMs : UInt64) :
    Except EntityError EntityHandle × EntityStore Rest :=
  match store.takeSlot entity atMs with
  | (.error e, store) => (.error e, store)
  | (.ok slotIndex, store) =>
    match store.slots[slotIndex.toNat]? with
    | none => (.error .capacity, store)
    | some slot =>
      (.ok ⟨slotIndex, slot.generation⟩, { store with
        slots := store.slots.set slotIndex.toNat { slot with
          previous := entity.authoritative, targetAtMs := atMs, entity := some entity }
        byId := store.byId.insert entity.id ⟨slotIndex, slot.generation⟩ })

def spawn (store : EntityStore Rest) (entity : Entity Rest) (atMs : UInt64) :
    Except EntityError EntityHandle × EntityStore Rest :=
  if !entity.authoritative.isFinite || !entity.velocity.isFinite then (.error .nonFinite, store)
  else if 256 < (utf8Bytes entity.entityType).length || !containsText entity.entityType ":" then
    (.error .invalidType, store)
  else (store.remove entity.id).2.place entity atMs

def clear (store : EntityStore Rest) : EntityStore Rest :=
  store.byId.keys.foldl (fun store id => (store.remove id).2) store

/-- The entities by id; the transform interpolated for each is not kept. -/
def snapshot (store : EntityStore Rest) : List (EntityHandle × Entity Rest) :=
  store.byId.values.filterMap fun handle => (store.get handle).map fun entity => (handle, entity)

end EntityStore

end Cubic.World
