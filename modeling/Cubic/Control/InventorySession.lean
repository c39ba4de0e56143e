import Cubic.Control.Mailbox
import Cubic.Inventory.Semantic
import Cubic.Inventory.State

/-!
# The inventory in its session

`chat_session.rs`: `apply_inventory_packet` for what the server sends, and
`service_inventory_command` for what the UI has queued.
-/

namespace Cubic.Control

set_option autoImplicit false

open Inventory InventoryState

/-- `ClientboundInventoryPacket` -/
inductive InventoryPacket where
  | openScreen (container : ContainerId) (menu : MinecraftIdentifier) (title : String)
  | close (container : ContainerId)
  | setContent (container : ContainerId) (stateId : Int32) (items : List (Option WireItemStack))
      (carried : Option WireItemStack)
  | setSlot (container : ContainerId) (stateId : Int32) (slot : SlotIndex)
      (item : Option WireItemStack)
  | setData (container : ContainerId) (property value : Int16)
  | setHeldSlot (slot : UInt8)

/-- What a serviced command sends. -/
inductive InventoryAction where
  | setCarriedItem (slot : UInt8)
  | containerClose (container : ContainerId)
  | containerButtonClick (container : ContainerId) (button : UInt32)
  | setCreativeSlot (slot : SlotIndex) (stack : Option ItemStack)
  | containerClick (click : ContainerClick) (outcome : ClickOutcome)

section
variable {E α : Type}

abbrev SessionM (E : Type) := Mut InventoryState (ChatSessionError E)

/-- `?` on a call that returns an `InventoryError`. -/
def inventory (m : InventoryM α) : SessionM E α := Mut.mapErr .inventory m

def applyInventoryPacket (project : Projection E) : InventoryPacket → SessionM E Unit
  | .openScreen container menu title => do
    let opened ← inventory (Mut.ofExcept (ContainerState.new container (.menu menu) title 0))
    inventory (openContainer opened)
  | .close container => do
    let s ← Mut.get
    if s.opened.isSome then inventory (closeContainer container) else pure ()
  | .setContent container stateId items carried => do
    let slots ← Mut.ofExcept (items.mapM (semanticOptionalStack project))
    let carried ← Mut.ofExcept (semanticOptionalStack project carried)
    inventory (replaceContent container stateId slots carried)
  | .setSlot container stateId slot item => do
    let stack ← Mut.ofExcept (semanticOptionalStack project item)
    inventory (setSlot container stateId slot stack)
  | .setData container property value =>
    inventory (onContainer container (Mut.modify fun c =>
      { c with properties := c.properties.insert property value }))
  | .setHeldSlot slot => inventory (setSelectedHotbarSlot slot)

/-- The encoding of what a command sends and its write to the connection, which may fail. -/
abbrev Send (E : Type) := InventoryAction → Except E Unit

def sendAction (send : Send E) (action : InventoryAction) : SessionM E (Option InventoryAction) := do
  Mut.ofExcept ((send action).mapError .other)
  pure (some action)

/-- Returns what was sent. A click that the inventory refuses is ignored. -/
def serviceInventoryCommand (send : Send E) :
    InventoryCommand → SessionM E (Option InventoryAction)
  | .selectHotbar slot => do
    inventory (setSelectedHotbarSlot slot)
    sendAction send (.setCarriedItem slot)
  | .close container => do
    inventory (closeContainer container)
    sendAction send (.containerClose container)
  | .button container button => sendAction send (.containerButtonClick container button)
  | .creativeSlot slot stack => do
    inventory (setCreativeSlot slot stack)
    sendAction send (.setCreativeSlot slot stack)
  | .creativeCarried stack => do
    inventory (setCarried stack)
    pure none
  | .click click => do
    let outcome ← Mut.attempt (applyClick click)
    match outcome with
    | .error _ => pure none
    | .ok outcome => sendAction send (.containerClick click outcome)

end

end Cubic.Control
