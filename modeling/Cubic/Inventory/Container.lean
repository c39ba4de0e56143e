import Cubic.Inventory.Item
import Cubic.Lib.Mut

/-!
# Clicks on one container

`inventory.rs`, from `ContainerState` to `pickup_all`. Every function runs on the
container it is given by `&mut`; loops are recursions over what they iterate.
-/

namespace Cubic.Inventory

set_option autoImplicit false

structure ContainerId where
  val : UInt32
  deriving DecidableEq

structure SlotIndex where
  val : Int16
  deriving DecidableEq

instance : LinearOrder SlotIndex :=
  LinearOrder.lift' SlotIndex.val fun a b h => by cases a; cases b; cases h; rfl

def playerContainerId : ContainerId := ⟨0⟩
def playerInventorySlots : Nat := 46
def maxContainerSlots : Nat := 512
def maxComponentsPerStack : Nat := 256
def maxComponentBytes : Nat := 1024 * 1024

inductive MenuIdentity where
  | playerInventory
  | menu (identifier : MinecraftIdentifier)
  deriving DecidableEq

inductive InventoryError where
  | zeroItemCount
  | tooManyComponents (count max : Nat)
  | componentDataTooLarge (size max : Nat)
  | conflictingComponentPatch
  | orphanComponentFingerprint
  | tooManySlots (count max : Nat)
  | invalidSlot (slot : Int16)
  | invalidHotbarSlot (slot : UInt8)
  | invalidOpenContainerId
  | unknownContainer (id : UInt32)
  | staleStateId (expected actual : Int32)
  | invalidClickButton (button : Int8)
  | quickCraftNotStarted
  | quickCraftGestureMismatch
  | quickCraftWithoutCarriedStack
  | invalidQuickCraftSlot (slot : Int16)
  | tooManyQuickCraftSlots
  deriving DecidableEq

structure ContainerState where
  id : ContainerId
  menu : MenuIdentity
  title : String
  stateId : Int32
  slots : List (Option ItemStack)
  carried : Option ItemStack
  properties : OrderedMap Int16 Int16
  deriving DecidableEq

inductive ContainerClickKind where
  | pickup
  | quickMove
  | swap
  | clone
  | throw
  | quickCraft
  | pickupAll
  deriving DecidableEq

structure ContainerClick where
  container : ContainerId
  stateId : Int32
  slot : SlotIndex
  button : Int8
  kind : ContainerClickKind
  deriving DecidableEq

abbrev ContainerM := Mut ContainerState InventoryError

namespace ContainerState

def withSlots (c : ContainerState) (slots : List (Option ItemStack)) : ContainerState :=
  { c with slots }

def withCarried (c : ContainerState) (carried : Option ItemStack) : ContainerState :=
  { c with carried }

section Fields
variable (c : ContainerState) (slots : List (Option ItemStack)) (carried : Option ItemStack)

@[simp] theorem withSlots_slots : (c.withSlots slots).slots = slots := rfl
@[simp] theorem withSlots_carried : (c.withSlots slots).carried = c.carried := rfl
@[simp] theorem withSlots_id : (c.withSlots slots).id = c.id := rfl
@[simp] theorem withSlots_menu : (c.withSlots slots).menu = c.menu := rfl
@[simp] theorem withSlots_stateId : (c.withSlots slots).stateId = c.stateId := rfl
@[simp] theorem withCarried_slots : (c.withCarried carried).slots = c.slots := rfl
@[simp] theorem withCarried_carried : (c.withCarried carried).carried = carried := rfl
@[simp] theorem withCarried_id : (c.withCarried carried).id = c.id := rfl
@[simp] theorem withCarried_menu : (c.withCarried carried).menu = c.menu := rfl
@[simp] theorem withCarried_stateId : (c.withCarried carried).stateId = c.stateId := rfl

@[simp] theorem withSlots_withSlots (slots' : List (Option ItemStack)) :
    (c.withSlots slots).withSlots slots' = c.withSlots slots' := rfl

@[simp] theorem withCarried_withCarried (carried' : Option ItemStack) :
    (c.withCarried carried).withCarried carried' = c.withCarried carried' := rfl

@[simp] theorem withCarried_withSlots :
    (c.withCarried carried).withSlots slots = (c.withSlots slots).withCarried carried := rfl

theorem withCarried_self (h : c.carried = carried) : c.withCarried carried = c := by
  cases h
  rfl

end Fields

def new (id : ContainerId) (menu : MenuIdentity) (title : String) (slotCount : Nat) :
    Except InventoryError ContainerState :=
  if slotCount > maxContainerSlots then .error (.tooManySlots slotCount maxContainerSlots)
  else .ok
    { id, menu, title, stateId := 0, slots := List.replicate slotCount none, carried := none,
      properties := .empty }

def replaceContent (stateId : Int32) (slots : List (Option ItemStack))
    (carried : Option ItemStack) : ContainerM Unit :=
  if slots.length > maxContainerSlots then
    Mut.fail (.tooManySlots slots.length maxContainerSlots)
  else Mut.modify fun c => { c with stateId, slots, carried }

/-- `usize::try_from(slot.0)` followed by a bounds check. -/
def slotIndex? (c : ContainerState) (slot : SlotIndex) : Option Nat :=
  if slot.val.toInt < 0 then none
  else if slot.val.toInt.toNat < c.slots.length then some slot.val.toInt.toNat
  else none

def setSlot (stateId : Int32) (slot : SlotIndex) (stack : Option ItemStack) :
    ContainerM Unit := do
  let c ← Mut.get
  match c.slotIndex? slot with
  | none => Mut.fail (.invalidSlot slot.val)
  | some index => Mut.set { c with stateId, slots := c.slots.set index stack }

end ContainerState

/-! ### Access to slots and cursor -/

def slotIndex (slot : SlotIndex) : ContainerM Nat := do
  let c ← Mut.get
  match c.slotIndex? slot with
  | none => Mut.fail (.invalidSlot slot.val)
  | some index => pure index

/-- `container.slots[index]` -/
def readSlot (index : Nat) : ContainerM (Option ItemStack) := do
  let c ← Mut.get
  Mut.index c.slots index

/-- `container.slots[index] = stack` -/
def writeSlot (index : Nat) (stack : Option ItemStack) : ContainerM Unit := do
  let c ← Mut.get
  if index < c.slots.length then Mut.set (c.withSlots (c.slots.set index stack))
  else Mut.fault

/-- `container.slots[index].take()` -/
def takeSlot (index : Nat) : ContainerM (Option ItemStack) := do
  let stack ← readSlot index
  writeSlot index none
  pure stack

def writeCarried (stack : Option ItemStack) : ContainerM Unit :=
  Mut.modify fun c => c.withCarried stack

/-- `container.carried.take()` -/
def takeCarried : ContainerM (Option ItemStack) := do
  let c ← Mut.get
  writeCarried none
  pure c.carried

/-- `if carried.count != 0 { container.carried = Some(carried) }` -/
def keepCarried (stack : ItemStack) : ContainerM Unit :=
  if stack.count ≠ 0 then writeCarried (some stack) else pure ()

/-! ### Pickup -/

def pickupOutside (button : Int8) : ContainerM Unit := do
  let c ← Mut.get
  if button = 0 then writeCarried none
  else match c.carried with
    | none => pure ()
    | some carried => writeCarried (carried.withCount? (carried.count - 1))

/-- The `match` of `pickup`: the cursor is written, the new slot content returned. -/
def pickupExchange (button : Int8) :
    Option ItemStack → Option ItemStack → ContainerM (Option ItemStack)
  | none, none => pure none
  | none, some stack =>
    if button = 0 then do
      writeCarried (some stack)
      pure none
    else do
      let taken := (stack.count + 1) / 2
      let remaining ← Mut.subU32 stack.count taken
      writeCarried (some { stack with count := taken })
      pure (stack.withCount? remaining)
  | some carried, none =>
    if button = 0 then pure (some carried)
    else do
      let count ← Mut.subU32 carried.count 1
      keepCarried { carried with count }
      pure (some { carried with count := 1 })
  | some carried, some stack =>
    if carried.stackableWith stack then do
      let moved := min (if button = 0 then carried.count else min carried.count 1)
        (stack.maxStackSize - stack.count)
      let stackCount ← Mut.addU32 stack.count moved
      let carriedCount ← Mut.subU32 carried.count moved
      keepCarried { carried with count := carriedCount }
      pure (some { stack with count := stackCount })
    else do
      writeCarried (some stack)
      pure (some carried)

def pickup (slot : SlotIndex) (button : Int8) : ContainerM Unit :=
  if ¬ (button = 0 ∨ button = 1) then Mut.fail (.invalidClickButton button)
  else if slot.val = -999 then pickupOutside button
  else do
    let index ← slotIndex slot
    let target ← takeSlot index
    let carried ← takeCarried
    let target ← pickupExchange button carried target
    writeSlot index target

/-! ### Quick move -/

structure SlotRoute where
  start : Nat
  stop : Nat
  reverse : Bool
  deriving DecidableEq

def SlotRoute.indices (route : SlotRoute) : List Nat :=
  let ascending := List.range' route.start (route.stop - route.start)
  if route.reverse then ascending.reverse else ascending

def isFurnaceFuel (stack : ItemStack) : Bool :=
  let name := stack.item.text
  ["minecraft:coal", "minecraft:charcoal", "minecraft:blaze_rod"].contains name ||
    endsWith name "_planks" || endsWith name "_log" || endsWith name "_wood"

def isProbableFurnaceInput (stack : ItemStack) : Bool :=
  let name := stack.item.text
  endsWith name "_ore" || containsText name "raw_" ||
    ["minecraft:sand", "minecraft:red_sand", "minecraft:cobblestone", "minecraft:clay_ball",
      "minecraft:wet_sponge", "minecraft:cactus", "minecraft:kelp", "minecraft:potato",
      "minecraft:beef", "minecraft:chicken", "minecraft:porkchop", "minecraft:mutton",
      "minecraft:rabbit", "minecraft:cod", "minecraft:salmon"].contains name

def equipmentSlot (name : String) : Option Nat :=
  if endsWith name "_helmet" || name = "minecraft:carved_pumpkin" then some 5
  else if endsWith name "_chestplate" || name = "minecraft:elytra" then some 6
  else if endsWith name "_leggings" then some 7
  else if endsWith name "_boots" then some 8
  else if name = "minecraft:shield" then some 45
  else none

def equipmentDestination (c : ContainerState) (stack : ItemStack) : Option Nat :=
  match equipmentSlot stack.item.text with
  | none => none
  | some destination => if c.slots[destination]? = some none then some destination else none

def furnacePlayerRoutes (c : ContainerState) (moving : ItemStack)
    (alternateStart alternateEnd : Nat) : List SlotRoute :=
  (if isFurnaceFuel moving then [⟨1, 2, false⟩]
    else if isProbableFurnaceInput moving then [⟨0, 1, false⟩]
    else []) ++
  [⟨alternateStart, min alternateEnd c.slots.length, false⟩]

def ContainerState.isPlayerInventory (c : ContainerState) : Bool :=
  c.id = playerContainerId && c.slots.length = playerInventorySlots

def MenuIdentity.is (menu : MenuIdentity) (name : String) : Bool :=
  match menu with
  | .playerInventory => false
  | .menu identifier => identifier.text = name

def quickMoveRoutes (c : ContainerState) (source : Nat) (moving : ItemStack) : List SlotRoute :=
  if c.isPlayerInventory then
    if source ≤ 8 ∨ source = 45 then [⟨9, 45, true⟩]
    else if source ≤ 35 then
      (equipmentDestination c moving).toList.map (fun slot => ⟨slot, slot + 1, false⟩) ++
        [⟨36, 45, false⟩]
    else if source ≤ 44 then [⟨9, 36, false⟩]
    else []
  else
    let len := c.slots.length
    let playerStart := len - 36
    if c.menu.is "minecraft:furnace" then
      if source ≤ 2 then [⟨3, len, true⟩]
      else if source ≤ 29 then furnacePlayerRoutes c moving 30 39
      else if source ≤ 38 then furnacePlayerRoutes c moving 3 30
      else []
    else if c.menu.is "minecraft:crafting" then
      if source = 0 then [⟨10, len, true⟩]
      else if source ≤ 9 then [⟨10, len, false⟩]
      else if source ≤ 36 then [⟨37, min 46 len, false⟩]
      else if source ≤ 45 then [⟨10, min 37 len, false⟩]
      else []
    else if source < playerStart then [⟨playerStart, len, true⟩]
    else [⟨0, playerStart, false⟩]

/-- The first loop of `move_stack_to`; the flag says that it returned early. -/
def mergeAlong : List Nat → ItemStack → ContainerM (ItemStack × Bool)
  | [], moving => pure (moving, false)
  | index :: rest, moving => do
    let content ← readSlot index
    match content with
    | none => mergeAlong rest moving
    | some stack =>
      if stack.stackableWith moving then do
        let amount := min moving.count (stack.maxStackSize - stack.count)
        let stackCount ← Mut.addU32 stack.count amount
        writeSlot index (some { stack with count := stackCount })
        let movingCount ← Mut.subU32 moving.count amount
        if movingCount = 0 then pure ({ moving with count := movingCount }, true)
        else mergeAlong rest { moving with count := movingCount }
      else mergeAlong rest moving

/-- `route.indices().find(|index| container.slots[*index].is_none())` -/
def findEmpty : List Nat → ContainerM (Option Nat)
  | [] => pure none
  | index :: rest => do
    let content ← readSlot index
    match content with
    | none => pure (some index)
    | some _ => findEmpty rest

def moveStackTo (moving : ItemStack) (route : SlotRoute) : ContainerM ItemStack := do
  let (moving, returned) ← mergeAlong route.indices moving
  if returned then pure moving
  else do
    let empty ← findEmpty route.indices
    match empty with
    | none => pure moving
    | some index => do
      writeSlot index (some moving)
      pure { moving with count := 0 }

/-- The route loop of `quick_move`. -/
def moveAlongRoutes (source : Nat) : List SlotRoute → ItemStack → ContainerM Unit
  | [], moving => writeSlot source (some moving)
  | route :: rest, moving => do
    let moving ← moveStackTo moving route
    if moving.count = 0 then pure () else moveAlongRoutes source rest moving

def quickMove (slot : SlotIndex) : ContainerM Unit := do
  let source ← slotIndex slot
  let content ← takeSlot source
  match content with
  | none => pure ()
  | some moving => do
    let c ← Mut.get
    moveAlongRoutes source (quickMoveRoutes c source moving) moving

/-! ### Swap, clone, throw -/

def swapHotbar (slot : SlotIndex) (button : Int8) : ContainerM Unit := do
  let source ← slotIndex slot
  let c ← Mut.get
  if button.toInt < 0 then Mut.fail (.invalidClickButton button)
  else do
    let hotbar := button.toInt.toNat
    if hotbar > 8 ∨ c.slots.length < 9 then Mut.fail (.invalidClickButton button)
    else do
      let destination :=
        if c.isPlayerInventory then 36 + hotbar else c.slots.length - 9 + hotbar
      let atSource ← readSlot source
      let atDestination ← readSlot destination
      writeSlot source atDestination
      writeSlot destination atSource

def cloneStack (slot : SlotIndex) : ContainerM Unit := do
  let index ← slotIndex slot
  let content ← readSlot index
  writeCarried (content.map fun stack => { stack with count := stack.maxStackSize })

def throwStack (slot : SlotIndex) (button : Int8) : ContainerM Unit := do
  let index ← slotIndex slot
  if ¬ (button = 0 ∨ button = 1) then Mut.fail (.invalidClickButton button)
  else if button = 1 then writeSlot index none
  else do
    let content ← readSlot index
    match content with
    | none => pure ()
    | some stack => do
      let count ← Mut.subU32 stack.count 1
      writeSlot index (stack.withCount? count)

/-! ### Pickup all -/

def canTakeForPickAll (menu : MenuIdentity) (index : Nat) : Bool :=
  match menu with
  | .playerInventory => index ≠ 0
  | .menu identifier =>
    if identifier.text = "minecraft:crafting" then index ≠ 0
    else if identifier.text = "minecraft:furnace" then index ≠ 2
    else true

/-- One pass over the slots from `index` on; the flag says that the cursor is full. -/
def pickAllPass (menu : MenuIdentity) (fullPass : Bool) :
    List Nat → ItemStack → ContainerM (ItemStack × Bool)
  | [], carried => pure (carried, false)
  | index :: rest, carried =>
    if ¬ canTakeForPickAll menu index then pickAllPass menu fullPass rest carried
    else do
      let content ← readSlot index
      match content with
      | none => pickAllPass menu fullPass rest carried
      | some stack =>
        if stack.stackableWith carried ∧ (stack.count = stack.maxStackSize ↔ fullPass) then do
          let moved := min stack.count (carried.maxStackSize - carried.count)
          let stackCount ← Mut.subU32 stack.count moved
          let carriedCount ← Mut.addU32 carried.count moved
          let carried := { carried with count := carriedCount }
          writeCarried (some carried)
          writeSlot index (stack.withCount? stackCount)
          if carried.count = carried.maxStackSize then pure (carried, true)
          else pickAllPass menu fullPass rest carried
        else pickAllPass menu fullPass rest carried

def pickupAll (button : Int8) : ContainerM Unit :=
  if button ≠ 0 then Mut.fail (.invalidClickButton button)
  else do
    let c ← Mut.get
    match c.carried with
    | none => pure ()
    | some carried => do
      let indices := List.range c.slots.length
      let (carried, full) ← pickAllPass c.menu false indices carried
      if full then pure ()
      else do
        let _ ← pickAllPass c.menu true indices carried
        pure ()

end Cubic.Inventory
