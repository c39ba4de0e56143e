import Cubic.Inventory.ComponentText
import Cubic.Inventory.Semantic
import Cubic.ItemWire.Stack

/-!
# Between the wire and the inventory

`chat_session.rs`: `semantic_stack` with its projection of each component, and `wire_stack`
back. The error `none` of a projection is a panic of the text cut.
-/

namespace Cubic.ItemWire

set_option autoImplicit false

open Inventory (ComponentError ComponentValue)

/-! ### The projection of a component -/

abbrev ProjectM := Mut CodecReader ComponentError

/-- A value with nothing behind it. -/
def untrailed {α : Type} (m : ProjectM α) (message : String) : ProjectM α := do
  let value ← m
  let r ← Mut.get
  if r.remaining ≠ 0 then Mut.fail (.inventoryAction message) else pure value

def projectVarInt : ProjectM ComponentValue := do
  let value ← untrailed (Mut.mapErr .codec readVarInt) "primitive item component has trailing data"
  pure (.varInt value)

def projectItemModel : ProjectM ComponentValue := do
  let value ← untrailed (Mut.mapErr .codec (readString ⟨256, 1024⟩))
    "item model component has trailing data"
  pure (.text value)

/-- One round of the loop of `decode_string_map`. -/
def readStringEntry (values : OrderedMap String String) : ProjectM (OrderedMap String String) := do
  let key ← Mut.mapErr .codec (readString ⟨128, 512⟩)
  let value ← Mut.mapErr .codec (readString ⟨128, 512⟩)
  if (values.lookup key).isSome then
    Mut.fail (.inventoryAction "block-state component has a duplicate property")
  else pure (values.insert key value)

def readStringEntries : Nat → OrderedMap String String → ProjectM (OrderedMap String String)
  | 0, values => pure values
  | left + 1, values => do
    let values ← readStringEntry values
    readStringEntries left values

def decodeStringMap : ProjectM (OrderedMap String String) := do
  let count ← Mut.mapErr .codec readVarInt
  if count < 0 ∨ count.toInt.toNat > 64 then
    Mut.fail (.inventoryAction "block-state component property count is invalid")
  else
    untrailed (readStringEntries count.toInt.toNat .empty)
      "block-state component has trailing data"

def varIntComponents : List String := ["minecraft:max_stack_size", "minecraft:max_damage",
  "minecraft:damage", "minecraft:repair_cost", "minecraft:enchantable"]

def unitComponents : List String := ["minecraft:unbreakable", "minecraft:creative_slot_lock",
  "minecraft:intangible_projectile", "minecraft:glider"]

def textComponents : List String := ["minecraft:custom_name", "minecraft:item_name"]

section Layout
variable (layout : NbtLayout)

/-- The match over a component's identifier in `semantic_stack`. -/
def projectComponentValue (identifier : MinecraftIdentifier) (bytes : Bytes) :
    Option (Except ComponentError ComponentValue) :=
  if identifier.text ∈ varIntComponents then (projectVarInt (.new bytes)).result?
  else if identifier.text ∈ unitComponents then some (.ok .unit)
  else if identifier.text = "minecraft:enchantment_glint_override" ∧ bytes.length = 1 then
    some (.ok (.bool (bytes.head?.any fun value => value ≠ 0)))
  else if identifier.text = "minecraft:item_model" then (projectItemModel (.new bytes)).result?
  else if identifier.text ∈ textComponents then
    (Inventory.projectComponentText layout bytes).map (.map fun plain => .richText plain bytes)
  else if identifier.text = "minecraft:lore" then
    (Inventory.projectComponentLore layout bytes).map (.map fun lines => .lore lines bytes)
  else if identifier.text = "minecraft:block_state" then
    (decodeStringMap (.new bytes)).result?.map (.map fun values => .stringMap values bytes)
  else some (.ok (.opaqueBytes bytes))

def projectComponent : Inventory.Projection (Option ComponentError) := fun identifier bytes =>
  match projectComponentValue layout identifier bytes with
  | some r => r.mapError some
  | none => .error none

end Layout

/-- What `semantic_stack` reads of a stack of the wire. -/
def ItemStack.parts (stack : ItemStack) : Inventory.WireItemStack where
  item := stack.item
  count := stack.count
  added := stack.components.added
  removed := stack.components.removed
  hashes := stack.components.hashes

def semanticStack (layout : NbtLayout) (stack : ItemStack) :
    Except (Inventory.ChatSessionError (Option ComponentError)) Inventory.ItemStack :=
  Inventory.semanticStack (projectComponent layout) stack.parts

/-! ### Back to the wire -/

end Cubic.ItemWire
