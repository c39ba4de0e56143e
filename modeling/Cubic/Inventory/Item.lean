import Cubic.Lib.Machine
import Cubic.Lib.OrderedMap
import Cubic.Version.Identifier

/-!
# Item stacks

`inventory.rs`, `ComponentPatch` and `ItemStack`. A count is a `u32` held as a
natural number; the operations on it are the checked ones.
-/

namespace Cubic.Inventory

set_option autoImplicit false

inductive ComponentValue where
  | unit
  | varInt (value : Int32)
  | bool (value : Bool)
  | text (value : String)
  | richText (plain : String) (wire : List UInt8)
  | lore (lines : List String) (wire : List UInt8)
  | stringMap (values : OrderedMap String String) (wire : List UInt8)
  | registryEncoded (wire : List UInt8) (sourceRegistry : List MinecraftIdentifier)
  | opaqueBytes (value : List UInt8)
  deriving DecidableEq

structure ComponentPatch where
  added : OrderedMap MinecraftIdentifier ComponentValue
  removed : OrderedSet MinecraftIdentifier
  fingerprints : OrderedMap MinecraftIdentifier Int32
  deriving DecidableEq

def ComponentPatch.default : ComponentPatch := ⟨.empty, .empty, .empty⟩

structure ItemStack where
  item : MinecraftIdentifier
  count : Nat
  components : ComponentPatch
  deriving DecidableEq

namespace ItemStack

/-- The number a `minecraft:max_stack_size` component holds, if it is a `u32`. -/
def declaredMaxStackSize (stack : ItemStack) : Option Nat :=
  match stack.components.added.entries.find? fun e => e.1.text = "minecraft:max_stack_size" with
  | some (_, .varInt value) => if 0 ≤ value.toInt then some value.toInt.toNat else none
  | _ => none

def maxStackSize (stack : ItemStack) : Nat :=
  max 1 (min 99 (stack.declaredMaxStackSize.getD 64))

def stackableWith (stack other : ItemStack) : Bool :=
  stack.item = other.item && stack.components = other.components

theorem one_le_maxStackSize (stack : ItemStack) : 1 ≤ stack.maxStackSize :=
  Nat.le_max_left _ _

theorem maxStackSize_le (stack : ItemStack) : stack.maxStackSize ≤ 99 := by
  unfold maxStackSize
  omega

@[simp] theorem maxStackSize_withCount (stack : ItemStack) (n : Nat) :
    ({ stack with count := n } : ItemStack).maxStackSize = stack.maxStackSize := rfl

/-- What two stacks must share to merge, and what a count is a count of. -/
def key (stack : ItemStack) : MinecraftIdentifier × ComponentPatch :=
  (stack.item, stack.components)

@[simp] theorem key_withCount (stack : ItemStack) (n : Nat) :
    ({ stack with count := n } : ItemStack).key = stack.key := rfl

theorem stackableWith_iff {stack other : ItemStack} :
    stack.stackableWith other = true ↔ stack.key = other.key := by
  simp [stackableWith, key, Prod.ext_iff]

theorem maxStackSize_eq_of_key {stack other : ItemStack} (h : stack.key = other.key) :
    stack.maxStackSize = other.maxStackSize := by
  have hc : stack.components = other.components := congrArg Prod.snd h
  unfold maxStackSize declaredMaxStackSize
  rw [hc]

/-- `stack` with `n` items, or no stack when none are left. -/
def withCount? (stack : ItemStack) (n : Nat) : Option ItemStack :=
  if n = 0 then none else some { stack with count := n }

/-- Neither empty nor overfull. -/
def WellCounted (stack : ItemStack) : Prop := 1 ≤ stack.count ∧ stack.count ≤ stack.maxStackSize

instance (stack : ItemStack) : Decidable stack.WellCounted := inferInstanceAs (Decidable (_ ∧ _))

end ItemStack

end Cubic.Inventory
