import Cubic.Inventory.Counts

/-!
# From the stacks of a packet to those of the inventory

`inventory.rs`, `ItemStack::new`, and `semantic_stack` of the session. What a component's
bytes are projected to is left to a parameter.
-/

namespace Cubic.Inventory

set_option autoImplicit false

/-- `value.iter().map(len).sum()` and `.saturating_add(wire.len())` -/
def withWire (lengths : List Nat) (wire : List UInt8) : Nat :=
  saturatingAdd lengths.sum wire.length

def ComponentValue.retainedBytes : ComponentValue → Nat
  | .unit => 0
  | .varInt _ => 4
  | .bool _ => 1
  | .text value => value.utf8ByteSize
  | .richText plain wire => withWire [plain.utf8ByteSize] wire
  | .lore lines wire => withWire (lines.map String.utf8ByteSize) wire
  | .stringMap values wire =>
    withWire (values.entries.map fun e => saturatingAdd e.1.utf8ByteSize e.2.utf8ByteSize) wire
  | .registryEncoded wire sourceRegistry =>
    saturatingAdd wire.length (sourceRegistry.map fun identifier => identifier.text.utf8ByteSize).sum
  | .opaqueBytes value => value.length

def ComponentPatch.retained (patch : ComponentPatch) : Option Nat :=
  patch.added.entries.foldlM (fun total e => checkedAdd total e.2.retainedBytes) 0

def ComponentPatch.validate (patch : ComponentPatch) : Except InventoryError Unit :=
  let count := saturatingAdd patch.added.size patch.removed.size
  if count > maxComponentsPerStack then .error (.tooManyComponents count maxComponentsPerStack)
  else match patch.retained with
    | none => .error (.componentDataTooLarge usizeMax maxComponentBytes)
    | some retained =>
      if retained > maxComponentBytes then
        .error (.componentDataTooLarge retained maxComponentBytes)
      else if patch.added.keys.any fun key => (patch.removed.lookup key).isSome then
        .error .conflictingComponentPatch
      else if patch.fingerprints.keys.any fun component => (patch.added.lookup component).isNone then
        .error .orphanComponentFingerprint
      else .ok ()

def ItemStack.new (item : MinecraftIdentifier) (count : UInt32) (components : ComponentPatch) :
    Except InventoryError ItemStack :=
  if count = 0 then .error .zeroItemCount
  else do
    components.validate
    pure { item, count := count.toNat, components }

/-- The errors that `ItemStack::new` raises of the stack it is given. -/
def InventoryError.IsAboutStack : InventoryError → Prop
  | .zeroItemCount | .tooManyComponents _ _ | .componentDataTooLarge _ _
  | .conflictingComponentPatch | .orphanComponentFingerprint => True
  | _ => False

instance (e : InventoryError) : Decidable e.IsAboutStack := by
  cases e <;> first | exact isTrue trivial | exact isFalse not_false

theorem ComponentPatch.validate_error {patch : ComponentPatch} {e : InventoryError}
    (h : patch.validate = .error e) : e.IsAboutStack := by
  unfold ComponentPatch.validate at h
  dsimp only at h
  split at h
  · cases h
    trivial
  · split at h
    · cases h
      trivial
    · repeat' split at h
      all_goals cases h
      all_goals trivial

theorem ItemStack.new_spec (item : MinecraftIdentifier) (count : UInt32)
    (components : ComponentPatch) :
    match ItemStack.new item count components with
    | .ok stack => stack.Counted
    | .error e => e.IsAboutStack := by
  unfold ItemStack.new
  split
  · rename_i hzero
    split at hzero
    · cases hzero
    · rename_i hcount
      obtain ⟨u, _, hstack⟩ := Mut.except_bind_eq_ok.mp hzero
      cases hstack
      refine ⟨?_, count.toNat_lt⟩
      apply Nat.one_le_iff_ne_zero.mpr
      intro hnone
      apply hcount
      exact UInt32.toNat_inj.mp hnone
  · rename_i e h
    split at h
    · cases h
      trivial
    · cases hvalid : components.validate with
      | ok u =>
        rw [hvalid] at h
        cases h
      | error e' =>
        rw [hvalid] at h
        cases h
        exact ComponentPatch.validate_error hvalid

/-! ### The session's conversion -/

/-- The parts of a stack of the wire that the session reads. -/
structure WireItemStack where
  item : MinecraftIdentifier
  count : UInt32
  added : OrderedMap MinecraftIdentifier (List UInt8)
  removed : OrderedSet MinecraftIdentifier
  hashes : OrderedMap MinecraftIdentifier Int32

/-- `ChatSessionError`: an error of the inventory, or any other. -/
inductive ChatSessionError (E : Type) where
  | inventory (error : InventoryError)
  | other (error : E)

variable {E α β : Type}

/-- The projection of one component's bytes. -/
abbrev Projection (E : Type) := MinecraftIdentifier → List UInt8 → Except E ComponentValue

def semanticComponents (project : Projection E)
    (added : OrderedMap MinecraftIdentifier (List UInt8)) :
    Except E (OrderedMap MinecraftIdentifier ComponentValue) :=
  (added.entries.mapM fun e => (project e.1 e.2).map fun value => (e.1, value)).map
    OrderedMap.ofList

def semanticStack (project : Projection E) (stack : WireItemStack) :
    Except (ChatSessionError E) ItemStack := do
  let added ← (semanticComponents project stack.added).mapError .other
  (ItemStack.new stack.item stack.count ⟨added, stack.removed, stack.hashes⟩).mapError .inventory

def semanticOptionalStack (project : Projection E) :
    Option WireItemStack → Except (ChatSessionError E) (Option ItemStack)
  | none => pure none
  | some stack => do
    let stack ← semanticStack project stack
    pure (some stack)

/-- An error of the inventory that is about its state, not about a stack. -/
def ChatSessionError.IsState : ChatSessionError E → Prop
  | .inventory error => ¬ error.IsAboutStack
  | .other _ => False

instance (e : ChatSessionError E) : Decidable e.IsState :=
  match e with
  | .inventory error => inferInstanceAs (Decidable (¬ error.IsAboutStack))
  | .other _ => isFalse not_false

/-- The conversion does not blame the inventory's state, and `P` holds of its result. -/
def Converts (P : α → Prop) : Except (ChatSessionError E) α → Prop
  | .ok a => P a
  | .error e => ¬ e.IsState

theorem Converts.bind {P : α → Prop} {Q : β → Prop} {r : Except (ChatSessionError E) α}
    {f : α → Except (ChatSessionError E) β} (h : Converts P r) (hf : ∀ a, P a → Converts Q (f a)) :
    Converts Q (r >>= f) := by
  cases r with
  | ok a => exact hf a h
  | error e => exact h

variable (project : Projection E)

theorem converts_semanticStack (stack : WireItemStack) :
    Converts ItemStack.Counted (semanticStack project stack) := by
  apply Converts.bind (P := fun _ => True)
  · cases semanticComponents project stack.added with
    | ok added => trivial
    | error e => exact not_false
  · intro added _
    have hnew := ItemStack.new_spec stack.item stack.count ⟨added, stack.removed, stack.hashes⟩
    cases h : ItemStack.new stack.item stack.count ⟨added, stack.removed, stack.hashes⟩ with
    | ok s =>
      rw [h] at hnew
      exact hnew
    | error e =>
      rw [h] at hnew
      exact not_not.mpr hnew

theorem converts_semanticOptionalStack (stack : Option WireItemStack) :
    Converts (fun o => ∀ s ∈ o, s.Counted) (semanticOptionalStack project stack) := by
  cases stack with
  | none => exact fun s hs => nomatch hs
  | some stack =>
    apply (converts_semanticStack project stack).bind
    intro s hs s' hs'
    cases hs'
    exact hs

/-- The slots of a content packet: every stack is converted, or the first error returned. -/
theorem converts_semanticOptionalStacks (items : List (Option WireItemStack)) :
    Converts (fun slots => slots.length = items.length ∧ ∀ o ∈ slots, ∀ s ∈ o, s.Counted)
      (items.mapM (semanticOptionalStack project)) := by
  induction items with
  | nil => exact ⟨rfl, fun o ho => absurd ho List.not_mem_nil⟩
  | cons item items ih =>
    rw [List.mapM_cons]
    apply (converts_semanticOptionalStack project item).bind
    intro o ho
    apply ih.bind
    intro rest hrest
    exact ⟨congrArg Nat.succ hrest.1, List.forall_mem_cons.mpr ⟨ho, hrest.2⟩⟩

end Cubic.Inventory
