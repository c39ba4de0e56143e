import Cubic.Inventory.Container

/-!
# The inventory state machine

`inventory.rs`, `InventoryState`: the player container, at most one open container,
and the quick-craft gesture in progress.
-/

namespace Cubic.Inventory

set_option autoImplicit false

structure QuickCraftGesture where
  container : ContainerId
  stateId : Int32
  kind : UInt8
  slots : OrderedSet SlotIndex
  deriving DecidableEq

structure InventoryState where
  player : ContainerState
  opened : Option ContainerState
  selectedHotbarSlot : UInt8
  quickCraft : Option QuickCraftGesture
  instantBuild : Bool
  permissionLevel : UInt8
  deriving DecidableEq

structure ClickOutcome where
  changedSlots : OrderedMap SlotIndex (Option ItemStack)
  carried : Option ItemStack
  deriving DecidableEq

abbrev InventoryM := Mut InventoryState InventoryError

namespace InventoryState

def new : InventoryState where
  player :=
    { id := playerContainerId, menu := .playerInventory, title := "Inventory", stateId := 0,
      slots := List.replicate playerInventorySlots none, carried := none, properties := .empty }
  opened := none
  selectedHotbarSlot := 0
  quickCraft := none
  instantBuild := false
  permissionLevel := 0

def setInstantBuild (instantBuild : Bool) : InventoryM Unit :=
  Mut.modify fun s => { s with instantBuild }

def setPermissionLevel (permissionLevel : UInt8) : InventoryM Unit :=
  Mut.modify fun s => { s with permissionLevel := min permissionLevel 4 }

def setSelectedHotbarSlot (slot : UInt8) : InventoryM Unit :=
  if slot > 8 then Mut.fail (.invalidHotbarSlot slot)
  else Mut.modify fun s => { s with selectedHotbarSlot := slot }

def setCarried (stack : Option ItemStack) : InventoryM Unit :=
  Mut.modify fun s =>
    { s with
      opened := s.opened.map fun c => c.withCarried stack
      player := s.player.withCarried stack }

def onPlayer {α : Type} (m : ContainerM α) : InventoryM α :=
  Mut.zoom player (fun c s => { s with player := c }) m

def setCreativeSlot (slot : SlotIndex) (stack : Option ItemStack) : InventoryM Unit :=
  if slot.val = -1 then pure ()
  else do
    let s ← Mut.get
    onPlayer (ContainerState.setSlot s.player.stateId slot stack)

def openContainer (container : ContainerState) : InventoryM Unit :=
  if container.id = playerContainerId then Mut.fail .invalidOpenContainerId
  else Mut.modify fun s => { s with opened := some container, quickCraft := none }

def closeContainer (id : ContainerId) : InventoryM Unit := do
  let s ← Mut.get
  if s.opened.any (·.id = id) then Mut.set { s with opened := none, quickCraft := none }
  else Mut.fail (.unknownContainer id.val)

/-- The container `container_mut` borrows. -/
def container? (s : InventoryState) (id : ContainerId) : Option ContainerState :=
  if id = playerContainerId then some s.player else s.opened.filter (·.id = id)

def putContainer (id : ContainerId) (c : ContainerState) (s : InventoryState) : InventoryState :=
  if id = playerContainerId then { s with player := c } else { s with opened := some c }

/-- `self.container_mut(id)?` and then `m` on the borrowed container. -/
def onContainer {α : Type} (id : ContainerId) (m : ContainerM α) : InventoryM α := do
  let s ← Mut.get
  match s.container? id with
  | none => Mut.fail (.unknownContainer id.val)
  | some c => Mut.zoom (fun _ => c) (putContainer id) m

theorem wp_onContainer {α : Type} {id : ContainerId} {m : ContainerM α}
    {Q : Post InventoryError InventoryState α} {s : InventoryState} :
    Mut.wp (onContainer id m) Q s ↔ match s.container? id with
      | none => Q.err (.unknownContainer id.val) s
      | some c => Mut.wp m ⟨fun a c' => Q.ok a (putContainer id c' s),
          fun e c' => Q.err e (putContainer id c' s), Q.panic⟩ c := by
  simp only [onContainer, Mut.wp_bind, Mut.wp_get]
  cases s.container? id with
  | none => exact Iff.rfl
  | some c => exact Mut.wp_zoom _ _ _

/-- Write `stacks` over the slots from index `9 + offset` on, as far as they exist. -/
def copyToPlayer (offset : Nat) :
    List (Option ItemStack) → List (Option ItemStack) → List (Option ItemStack)
  | [], slots => slots
  | stack :: rest, slots => copyToPlayer (offset + 1) rest (slots.set (9 + offset) stack)

/-- The state after `synchronize_player_from`. -/
def synchronizedFrom (id : ContainerId) (s : InventoryState) : InventoryState :=
  if id = playerContainerId then
    { s with opened := s.opened.map fun c => c.withCarried s.player.carried }
  else match s.opened with
    | none => s
    | some c =>
      let player := s.player.withCarried c.carried
      if c.slots.length < 36 then { s with player }
      else
        let tail := c.slots.drop (c.slots.length - 36)
        { s with player := player.withSlots (copyToPlayer 0 tail player.slots) }

def synchronizePlayerFrom (id : ContainerId) : InventoryM Unit := Mut.modify (synchronizedFrom id)

/-- A gesture on this container does not survive a change of its state id. -/
def cancelsQuickCraft (s : InventoryState) (id : ContainerId) (stateId : Int32) : Bool :=
  s.quickCraft.any fun gesture => gesture.container = id && gesture.stateId ≠ stateId

def clearQuickCraftIf (cancel : Bool) : InventoryM Unit :=
  Mut.modify fun s => if cancel then { s with quickCraft := none } else s

def replaceContent (id : ContainerId) (stateId : Int32) (slots : List (Option ItemStack))
    (carried : Option ItemStack) : InventoryM Unit := do
  let s ← Mut.get
  onContainer id (ContainerState.replaceContent stateId slots carried)
  clearQuickCraftIf (s.cancelsQuickCraft id stateId)
  synchronizePlayerFrom id

def setSlot (id : ContainerId) (stateId : Int32) (slot : SlotIndex) (stack : Option ItemStack) :
    InventoryM Unit := do
  let s ← Mut.get
  onContainer id (ContainerState.setSlot stateId slot stack)
  clearQuickCraftIf (s.cancelsQuickCraft id stateId)
  synchronizePlayerFrom id

def reset : InventoryM Unit := Mut.set new

end InventoryState

open InventoryState

/-! ### Quick craft -/

def quickCraftAccepts (menu : MenuIdentity) (index : Nat) : Bool :=
  match menu with
  | .playerInventory => index ≠ 0
  | .menu identifier =>
    if identifier.text = "minecraft:furnace" then index ≠ 2
    else if identifier.text = "minecraft:crafting" then index ≠ 0
    else true

def quickCraftSlotEligible (index : Nat) (carried : ItemStack) : ContainerM Bool := do
  let c ← Mut.get
  if ¬ quickCraftAccepts c.menu index then pure false
  else do
    let content ← readSlot index
    match content with
    | none => pure true
    | some stack => pure (stack.stackableWith carried && stack.count < stack.maxStackSize)

/-- What each slot of the gesture is to receive. -/
def quickCraftPerSlot (kind : UInt8) (carried : ItemStack) (slotCount : Nat) : ContainerM Nat :=
  if kind = 0 then Mut.divU32 carried.count (if slotCount < 2 ^ 32 then slotCount else 2 ^ 32 - 1)
  else if kind = 1 then pure 1
  else if kind = 2 then pure carried.maxStackSize
  else Mut.fail (.invalidClickButton 127)

/-- The slot's new stack: `destination` grown by `amount`, or a copy of the cursor's. -/
def grownStack (carried : ItemStack) (amount : Nat) : Option ItemStack → ContainerM ItemStack
  | some stack => do
    let count ← Mut.addU32 stack.count amount
    pure { stack with count }
  | none => pure { carried with count := amount }

/-- Only a clone gesture (kind 2) leaves the cursor's count alone. -/
def spend (kind : UInt8) (carried : ItemStack) (amount : Nat) : ContainerM ItemStack :=
  if kind ≠ 2 then do
    let count ← Mut.subU32 carried.count amount
    pure { carried with count }
  else pure carried

def deposit (kind : UInt8) (perSlot index : Nat) (carried : ItemStack)
    (destination : Option ItemStack) (capacity : Nat) : ContainerM ItemStack :=
  let amount :=
    if kind = 2 then min perSlot capacity else min (min perSlot capacity) carried.count
  if amount = 0 then do
    writeSlot index destination
    pure carried
  else do
    let filled ← grownStack carried amount destination
    let carried ← spend kind carried amount
    writeSlot index (some filled)
    pure carried

/-- One turn of the loop of `finish_quick_craft`. -/
def fillSlot (kind : UInt8) (perSlot index : Nat) (carried : ItemStack) : ContainerM ItemStack := do
  let existing ← takeSlot index
  match existing with
  | none => deposit kind perSlot index carried none carried.maxStackSize
  | some stack =>
    if stack.stackableWith carried then
      deposit kind perSlot index carried (some stack) (stack.maxStackSize - stack.count)
    else do
      writeSlot index (some stack)
      pure carried

def fillSlots (kind : UInt8) (perSlot : Nat) : List SlotIndex → ItemStack → ContainerM ItemStack
  | [], carried => pure carried
  | slot :: rest, carried =>
    if carried.count = 0 ∧ kind ≠ 2 then pure carried
    else do
      let index ← slotIndex slot
      let carried ← fillSlot kind perSlot index carried
      fillSlots kind perSlot rest carried

def finishQuickCraft (gesture : QuickCraftGesture) : ContainerM Unit := do
  let taken ← takeCarried
  match taken with
  | none => Mut.fail .quickCraftWithoutCarriedStack
  | some carried =>
    if gesture.slots.entries.isEmpty then writeCarried (some carried)
    else do
      let perSlot ← quickCraftPerSlot gesture.kind carried gesture.slots.size
      let carried ← fillSlots gesture.kind perSlot gesture.slots.keys carried
      keepCarried carried

/-! ### Clicks -/

def changedSlots (before after : List (Option ItemStack)) :
    OrderedMap SlotIndex (Option ItemStack) :=
  .ofList ((before.zip after).zipIdx.filterMap fun ((old, new), index) =>
    if old ≠ new ∧ index < 2 ^ 15 then some (⟨Int16.ofNat index⟩, new) else none)

/-- `u8::try_from(button >> 2)` -/
def quickCraftKind? (button : Int8) : Option UInt8 :=
  let kind := button >>> 2
  if kind.toInt < 0 then none else some (UInt8.ofNat kind.toInt.toNat)

def quickCraftStage (button : Int8) : Int8 := button &&& 3

/-- Run `m` on the clicked container and report what it changed there. -/
def clickOutcome (m : ContainerM Unit) : ContainerM ClickOutcome := do
  let before ← Mut.get
  m
  let after ← Mut.get
  pure { changedSlots := changedSlots before.slots after.slots, carried := after.carried }

def startQuickCraft (click : ContainerClick) (kind : UInt8) : InventoryM ClickOutcome :=
  if click.slot.val ≠ -999 then Mut.fail (.invalidQuickCraftSlot click.slot.val)
  else do
    let carried ← onContainer click.container (do
      let c ← Mut.get
      if c.stateId ≠ click.stateId then Mut.fail (.staleStateId c.stateId click.stateId)
      else match c.carried with
        | none => Mut.fail .quickCraftWithoutCarriedStack
        | some carried => pure carried)
    Mut.modify fun s =>
      { s with
        quickCraft := some
          { container := click.container, stateId := click.stateId, kind, slots := .empty } }
    pure { changedSlots := .empty, carried := some carried }

def QuickCraftGesture.mismatches (gesture : QuickCraftGesture) (click : ContainerClick)
    (kind : UInt8) : Bool :=
  gesture.container ≠ click.container || gesture.stateId ≠ click.stateId || gesture.kind ≠ kind

def QuickCraftGesture.insert (gesture : QuickCraftGesture) (slot : SlotIndex) :
    QuickCraftGesture :=
  { gesture with slots := gesture.slots.insert slot () }

def addQuickCraftSlot (click : ContainerClick) (kind : UInt8) : InventoryM ClickOutcome := do
  let index ← onContainer click.container (slotIndex click.slot)
  let s ← Mut.get
  match s.quickCraft with
  | none => Mut.fail .quickCraftNotStarted
  | some gesture =>
    if gesture.mismatches click kind then Mut.fail .quickCraftGestureMismatch
    else do
      let eligible ← onContainer click.container (do
        let c ← Mut.get
        match c.carried with
        | none => Mut.fail .quickCraftWithoutCarriedStack
        | some carried => quickCraftSlotEligible index carried)
      if gesture.slots.size ≥ maxContainerSlots then Mut.fail .tooManyQuickCraftSlots
      else do
        Mut.modify fun s =>
          if eligible then
            { s with quickCraft := some (gesture.insert click.slot) }
          else s
        let c ← onContainer click.container Mut.get
        pure { changedSlots := .empty, carried := c.carried }

def endQuickCraft (click : ContainerClick) (kind : UInt8) : InventoryM ClickOutcome :=
  if click.slot.val ≠ -999 then Mut.fail (.invalidQuickCraftSlot click.slot.val)
  else do
    let s ← Mut.get
    match s.quickCraft with
    | none => Mut.fail .quickCraftNotStarted
    | some gesture => do
      Mut.set { s with quickCraft := none }
      if gesture.mismatches click kind then Mut.fail .quickCraftGestureMismatch
      else do
        let outcome ← onContainer click.container (clickOutcome (finishQuickCraft gesture))
        synchronizePlayerFrom click.container
        pure outcome

def applyQuickCraft (click : ContainerClick) : InventoryM ClickOutcome :=
  match quickCraftKind? click.button with
  | none => Mut.fail (.invalidClickButton click.button)
  | some kind =>
    let stage := quickCraftStage click.button
    if kind > 2 ∨ stage > 2 then Mut.fail (.invalidClickButton click.button)
    else if stage = 0 then startQuickCraft click kind
    else if stage = 1 then addQuickCraftSlot click kind
    else if stage = 2 then endQuickCraft click kind
    else Mut.fail (.invalidClickButton click.button)

/-- The operation of a click that is not part of a quick-craft drag. -/
def clickAction (click : ContainerClick) : ContainerM Unit :=
  match click.kind with
  | .pickup => pickup click.slot click.button
  | .quickMove => quickMove click.slot
  | .swap => swapHotbar click.slot click.button
  | .clone => cloneStack click.slot
  | .throw => throwStack click.slot click.button
  | .pickupAll => pickupAll click.button
  | .quickCraft => Mut.fault

/-- What `apply_click` does with the container it has borrowed. -/
def checkedAction (click : ContainerClick) : ContainerM ClickOutcome := do
  let c ← Mut.get
  if c.stateId ≠ click.stateId then Mut.fail (.staleStateId c.stateId click.stateId)
  else clickOutcome (clickAction click)

def applyClick (click : ContainerClick) : InventoryM ClickOutcome :=
  if click.kind = .quickCraft then applyQuickCraft click
  else do
    Mut.modify fun s => { s with quickCraft := none }
    let outcome ← onContainer click.container (checkedAction click)
    synchronizePlayerFrom click.container
    pure outcome

end Cubic.Inventory
