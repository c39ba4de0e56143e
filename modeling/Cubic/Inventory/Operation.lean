import Cubic.Inventory.State

/-!
# The public operations, and the states they reach
-/

namespace Cubic.Inventory

set_option autoImplicit false

/-- The operations that take `&mut self`. `edit` is whatever a caller does through the
reference that `container_mut` hands out. -/
inductive InventoryOp where
  | setInstantBuild (instantBuild : Bool)
  | setPermissionLevel (permissionLevel : UInt8)
  | setSelectedHotbarSlot (slot : UInt8)
  | setCarried (stack : Option ItemStack)
  | setCreativeSlot (slot : SlotIndex) (stack : Option ItemStack)
  | openContainer (container : ContainerState)
  | closeContainer (id : ContainerId)
  | edit (id : ContainerId) (f : ContainerState → ContainerState)
  | replaceContent (id : ContainerId) (stateId : Int32) (slots : List (Option ItemStack))
      (carried : Option ItemStack)
  | setSlot (id : ContainerId) (stateId : Int32) (slot : SlotIndex) (stack : Option ItemStack)
  | reset
  | applyClick (click : ContainerClick)

def InventoryOp.run : InventoryOp → InventoryM Unit
  | setInstantBuild instantBuild => InventoryState.setInstantBuild instantBuild
  | setPermissionLevel permissionLevel => InventoryState.setPermissionLevel permissionLevel
  | setSelectedHotbarSlot slot => InventoryState.setSelectedHotbarSlot slot
  | setCarried stack => InventoryState.setCarried stack
  | setCreativeSlot slot stack => InventoryState.setCreativeSlot slot stack
  | openContainer container => InventoryState.openContainer container
  | closeContainer id => InventoryState.closeContainer id
  | edit id f => InventoryState.onContainer id (Mut.modify f)
  | replaceContent id stateId slots carried =>
    InventoryState.replaceContent id stateId slots carried
  | setSlot id stateId slot stack => InventoryState.setSlot id stateId slot stack
  | reset => InventoryState.reset
  | applyClick click => do
    let _ ← Inventory.applyClick click
    pure ()

/-- Any sequence of operations from a new inventory, each succeeding or failing. -/
inductive Reachable : InventoryState → Prop where
  | new : Reachable InventoryState.new
  | step {s s' : InventoryState} (op : InventoryOp) :
    Reachable s → (op.run s).state? = some s' → Reachable s'

/-- The state after a sequence of operations; none after a panic. -/
def runAll : List InventoryOp → InventoryState → Option InventoryState
  | [], s => some s
  | op :: rest, s => ((op.run s).state?).bind (runAll rest)

theorem Reachable.runAll (ops : List InventoryOp) {s s' : InventoryState} (h : Reachable s)
    (hrun : runAll ops s = some s') : Reachable s' := by
  induction ops generalizing s with
  | nil =>
    cases hrun
    exact h
  | cons op rest ih =>
    obtain ⟨t, ht, hrest⟩ := Option.bind_eq_some_iff.mp hrun
    exact ih (.step op h ht) hrest

end Cubic.Inventory
