import Cubic.Inventory.ClickReport
import Cubic.Lib.Dealing
import Mathlib.Algebra.BigOperators.Group.Finset.Basic

/-!
# How a quick craft distributes the cursor

The slots of a gesture are checked when they are added and filled when it ends. Nothing
is written in between, so the slots filled are the eligible ones among those added.
-/

namespace Cubic.Inventory

set_option autoImplicit false

open Mut

/-- Every stack of the container is neither empty nor overfull. -/
def ContainerState.WellCounted (c : ContainerState) : Prop :=
  (∀ o ∈ c.slots, ∀ stack ∈ o, stack.WellCounted) ∧ ∀ stack ∈ c.carried, stack.WellCounted

instance (c : ContainerState) : Decidable c.WellCounted := inferInstanceAs (Decidable (_ ∧ _))

/-- How many more items of the cursor's kind fit beside a slot's content. -/
def room (held : ItemStack) : Option ItemStack → Nat
  | none => held.maxStackSize
  | some stack => stack.maxStackSize - stack.count

def ContainerState.capacity (c : ContainerState) (held : ItemStack) (i : Nat) : Nat :=
  room held (c.slots[i]?.getD none)

/-- A slot's content after so many items of the cursor's kind were added. -/
def grown (held : ItemStack) (amount : Nat) : Option ItemStack → Option ItemStack
  | none => held.withCount? amount
  | some stack => some { stack with count := stack.count + amount }

/-- Every slot grown by the amount it receives. -/
def ContainerState.receive (c : ContainerState) (held : ItemStack) (amount : Nat → Nat) :
    ContainerState :=
  c.withSlots (c.slots.mapIdx fun i content => grown held (amount i) content)

@[simp] theorem grown_zero (held : ItemStack) (content : Option ItemStack) :
    grown held 0 content = content := by
  cases content <;> rfl

section Receive
variable {c : ContainerState} {held : ItemStack} {amount amount' : Nat → Nat} {i : Nat}

@[simp] theorem receive_carried : (c.receive held amount).carried = c.carried := rfl

@[simp] theorem receive_id : (c.receive held amount).id = c.id := rfl

@[simp] theorem length_receive : (c.receive held amount).slots.length = c.slots.length :=
  List.length_mapIdx

theorem getElem?_receive : (c.receive held amount).slots[i]? =
    (c.slots[i]?).map (grown held (amount i)) := List.getElem?_mapIdx

theorem receive_congr (h : ∀ i, amount i = amount' i) :
    c.receive held amount = c.receive held amount' := by
  rw [funext h]

theorem receive_zero (h : ∀ i, amount i = 0) : c.receive held amount = c := by
  unfold ContainerState.receive
  rw [mapIdx_self fun i content => by rw [h i]; exact grown_zero held content]
  rfl

/-- Growing one slot and then the others grows them all. -/
theorem receive_set {content : Option ItemStack} (hi : c.slots[i]? = some content)
    (h : amount i = 0) (n : Nat) :
    (c.withSlots (c.slots.set i (grown held n content))).receive held amount =
      c.receive held (Function.update amount i n) := by
  have hslots := mapIdx_set (f := fun i content => grown held (amount i) content)
    (g := fun j content => grown held (Function.update amount i n j) content) hi
    (fun content => by rw [h]; exact grown_zero held content)
    fun j hj => by rw [Function.update_of_ne hj]
  rw [Function.update_self] at hslots
  exact congrArg c.withSlots hslots

end Receive

/-! ### One slot -/

/-- What a slot may receive: the cursor's count is no bound for a clone gesture. -/
def amountFor (kind : UInt8) (perSlot : Nat) (held : ItemStack) (capacity : Nat) : Nat :=
  if kind = 2 then min perSlot capacity else min (min perSlot capacity) held.count

def spent (kind : UInt8) (held : ItemStack) (amount : Nat) : ItemStack :=
  if kind = 2 then held else { held with count := held.count - amount }

section Slot
variable {c : ContainerState} {held : ItemStack} {i : Nat} {content : Option ItemStack}

theorem Eligible.stack (h : Eligible c held i) (hi : c.slots[i]? = some content) :
    ∀ stack ∈ content, stack.stackableWith held = true ∧ stack.count < stack.maxStackSize := by
  obtain ⟨-, content', hcontent, hstack⟩ := h
  cases hi.symm.trans hcontent
  exact hstack

theorem deposit_eq (kind : UInt8) (perSlot : Nat) (hi : c.slots[i]? = some content)
    (hstack : ∀ stack ∈ content, stack.stackableWith held = true ∧
      stack.count < stack.maxStackSize) :
    deposit kind perSlot i held content (room held content) (c.withSlots (c.slots.set i none)) =
      .ok (spent kind held (amountFor kind perSlot held (room held content)))
        (c.withSlots (c.slots.set i
          (grown held (amountFor kind perSlot held (room held content)) content))) := by
  have hlen : i < (c.withSlots (c.slots.set i none)).slots.length := by
    simpa using (List.getElem?_eq_some_iff.mp hi).1
  have hwrite : ∀ o, writeSlot i o (c.withSlots (c.slots.set i none)) =
      .ok () (c.withSlots (c.slots.set i o)) := by
    intro o
    rw [writeSlot, get_bind, if_pos hlen, ContainerState.withSlots_slots, List.set_set]
    rfl
  unfold deposit
  rw [← amountFor]
  generalize hamount : amountFor kind perSlot held (room held content) = amount
  have hroom : amount ≤ room held content := by
    rw [← hamount, amountFor]
    split <;> omega
  split
  · rename_i hzero
    rw [bind_of_ok (hwrite _), hzero, grown_zero]
    unfold spent
    split <;> rfl
  · rename_i hpos
    have hgrown : ∃ filled, grown held amount content = some filled ∧
        ∀ c' : ContainerState, grownStack held amount content c' = .ok filled c' := by
      cases content with
      | none => exact ⟨_, if_neg hpos, fun _ => rfl⟩
      | some stack =>
        have hlt := (hstack stack rfl).2
        have hmax := stack.maxStackSize_le
        have hroom' : amount ≤ stack.maxStackSize - stack.count := hroom
        refine ⟨_, rfl, fun c' => ?_⟩
        simp only [grownStack, addU32, if_pos (show stack.count + amount < 2 ^ 32 by omega)]
        rfl
    obtain ⟨filled, hfilled, hstackRun⟩ := hgrown
    have hspend : ∀ c' : ContainerState, spend kind held amount c' =
        .ok (spent kind held amount) c' := by
      intro c'
      unfold spend spent
      by_cases hk : kind = 2
      · rw [if_neg (not_not.mpr hk), if_pos hk]
        rfl
      · have hle : amount ≤ held.count := by
          rw [← hamount, amountFor, if_neg hk]
          omega
        rw [if_pos hk, if_neg hk]
        simp only [subU32, if_pos hle]
        rfl
    rw [bind_of_ok (hstackRun _), bind_of_ok (hspend _), bind_of_ok (hwrite _), hfilled]
    rfl

theorem fillSlot_eq (kind : UInt8) (perSlot : Nat) (hi : c.slots[i]? = some content)
    (hstack : ∀ stack ∈ content, stack.stackableWith held = true ∧
      stack.count < stack.maxStackSize) :
    fillSlot kind perSlot i held c =
      .ok (spent kind held (amountFor kind perSlot held (room held content)))
        (c.withSlots (c.slots.set i
          (grown held (amountFor kind perSlot held (room held content)) content))) := by
  have htake : takeSlot i c = .ok content (c.withSlots (c.slots.set i none)) := by
    have hread : readSlot i c = .ok content c := by
      simp only [readSlot, get_bind, Mut.index, hi]
      rfl
    have hwrite : writeSlot i none c = .ok () (c.withSlots (c.slots.set i none)) := by
      rw [writeSlot, get_bind, if_pos (List.getElem?_eq_some_iff.mp hi).1]
      rfl
    unfold takeSlot
    rw [bind_of_ok hread]
    rw [bind_of_ok hwrite]
    rfl
  unfold fillSlot
  rw [bind_of_ok htake]
  cases content with
  | none => exact deposit_eq kind perSlot hi hstack
  | some stack =>
    dsimp only
    rw [if_pos (hstack stack rfl).1]
    exact deposit_eq kind perSlot hi hstack

/-- A place the gesture may fill from the cursor. -/
def Fits (c : ContainerState) (held : ItemStack) (i : Nat) : Prop :=
  ∃ content, c.slots[i]? = some content ∧
    ∀ stack ∈ content, stack.stackableWith held = true ∧ stack.count < stack.maxStackSize

theorem capacity_eq (hi : c.slots[i]? = some content) :
    c.capacity held i = room held content := by
  rw [ContainerState.capacity, hi]
  rfl

@[simp] theorem maxStackSize_spent (kind : UInt8) (held : ItemStack) (n : Nat) :
    (spent kind held n).maxStackSize = held.maxStackSize := by
  unfold spent
  split <;> rfl

@[simp] theorem stackableWith_spent (kind : UInt8) (stack held : ItemStack) (n : Nat) :
    stack.stackableWith (spent kind held n) = stack.stackableWith held := by
  unfold spent
  split <;> rfl

@[simp] theorem room_spent (kind : UInt8) (held : ItemStack) (n : Nat) :
    room (spent kind held n) = room held := by
  funext content
  cases content with
  | none => exact maxStackSize_spent kind held n
  | some stack => rfl

@[simp] theorem grown_spent (kind : UInt8) (held : ItemStack) (n m : Nat) :
    grown (spent kind held n) m = grown held m := by
  unfold spent
  split
  · rfl
  · funext content
    cases content <;> rfl

@[simp] theorem receive_spent (kind : UInt8) (n : Nat) (amount : Nat → Nat) :
    c.receive (spent kind held n) amount = c.receive held amount := by
  simp only [ContainerState.receive, grown_spent]

/-- Spending for one slot and then for the rest. -/
theorem spent_spent (kind : UInt8) (held : ItemStack) (m n : Nat) :
    spent kind (spent kind held (min m held.count)) n = spent kind held (m + n) := by
  unfold spent
  by_cases hk : kind = 2
  · simp only [if_pos hk]
  · simp only [if_neg hk, ItemStack.mk.injEq, true_and, and_true]
    omega

/-- What is filled elsewhere does not matter to a place. -/
theorem Fits.set {j : Nat} (h : Fits c held i) (hne : i ≠ j) (kind : UInt8) (n : Nat)
    (o : Option ItemStack) :
    Fits (c.withSlots (c.slots.set j o)) (spent kind held n) i ∧
      (c.withSlots (c.slots.set j o)).capacity (spent kind held n) i = c.capacity held i := by
  have hsame : (c.withSlots (c.slots.set j o)).slots[i]? = c.slots[i]? :=
    List.getElem?_set_ne hne.symm
  refine ⟨?_, ?_⟩
  · obtain ⟨content, hcontent, hstack⟩ := h
    refine ⟨content, hsame.trans hcontent, fun stack hmem => ?_⟩
    rw [stackableWith_spent]
    exact hstack stack hmem
  · rw [ContainerState.capacity, ContainerState.capacity, hsame, room_spent]

end Slot

/-! ### The loop -/

theorem slotIndex_place {c : ContainerState} {slot : SlotIndex} (hpos : 0 ≤ slot.val.toInt)
    (hlt : slot.place < c.slots.length) : slotIndex slot c = .ok slot.place c := by
  refine slotIndex_eq_ok.mpr ⟨?_, rfl⟩
  rw [ContainerState.slotIndex?, if_neg (by omega)]
  exact if_pos hlt

/-- The loop deals the cursor along the slots of the gesture. For a clone gesture the
budget is what all of them wish. -/
theorem fillSlots_eq (kind : UInt8) (perSlot : Nat) (slots : List SlotIndex) (wish : Nat → Nat) :
    ∀ {c : ContainerState} {held : ItemStack} (budget : Nat),
      (∀ slot ∈ slots, 0 ≤ slot.val.toInt ∧ Fits c held slot.place ∧
        wish slot.place = min perSlot (c.capacity held slot.place)) →
      (slots.map SlotIndex.place).Nodup →
      (kind = 2 → ((slots.map SlotIndex.place).map wish).sum ≤ budget) →
      (kind ≠ 2 → budget = held.count) →
      fillSlots kind perSlot slots held c =
        .ok (spent kind held ((slots.map SlotIndex.place).map wish).sum)
          (c.receive held (dealt wish (slots.map SlotIndex.place) budget)) := by
  induction slots with
  | nil =>
    intro c held budget _ _ _ _
    have hspent : spent kind held 0 = held := by
      unfold spent
      split <;> rfl
    have hreceive : c.receive held (dealt wish [] budget) = c := receive_zero fun i => rfl
    change Outcome.ok held c = .ok (spent kind held 0) (c.receive held (dealt wish [] budget))
    rw [hspent, hreceive]
  | cons slot rest ih =>
    intro c held budget hslots hnodup hclone hbudget
    obtain ⟨⟨hpos, hfits, hwish⟩, hrest⟩ := List.forall_mem_cons.mp hslots
    obtain ⟨hfresh, hnodup'⟩ := List.nodup_cons.mp hnodup
    obtain ⟨content, hcontent, hstack⟩ := hfits
    rw [List.map_cons, List.map_cons, List.sum_cons]
    unfold fillSlots
    split
    · -- The cursor is spent, and nothing more is dealt.
      rename_i hempty
      have hzero : budget = 0 := (hbudget hempty.2).trans hempty.1
      subst hzero
      rw [receive_zero fun i => dealt_zero]
      refine congrArg (Outcome.ok · c) ?_
      unfold spent
      rw [if_neg hempty.2]
      cases held
      simp only [ItemStack.mk.injEq, true_and, and_true] at hempty ⊢
      omega
    · have hlt : slot.place < c.slots.length := (List.getElem?_eq_some_iff.mp hcontent).1
      rw [capacity_eq hcontent] at hwish
      have hamount : amountFor kind perSlot held (room held content) =
          min (wish slot.place) budget := by
        unfold amountFor
        rw [← hwish]
        by_cases hk : kind = 2
        · have hle := hclone hk
          rw [List.map_cons, List.map_cons, List.sum_cons] at hle
          rw [if_pos hk]
          omega
        · rw [if_neg hk, hbudget hk]
      have hspent : spent kind held (min (wish slot.place) budget) =
          spent kind held (min (wish slot.place) held.count) := by
        unfold spent
        split
        · rfl
        · rename_i hk
          rw [hbudget hk]
      rw [bind_of_ok (slotIndex_place hpos hlt), bind_of_ok (fillSlot_eq kind perSlot hcontent hstack),
        hamount, hspent, ih (budget - wish slot.place), spent_spent, receive_spent,
        receive_set hcontent (dealt_of_not_mem hfresh _), ← dealt_cons]
      · intro k hk
        have hne : k.place ≠ slot.place := fun heq =>
          hfresh (heq ▸ List.mem_map_of_mem hk)
        obtain ⟨hpos', hfits', hwish'⟩ := hrest k hk
        obtain ⟨hset, hcapacity⟩ := hfits'.set hne kind (min (wish slot.place) held.count)
          (grown held (min (wish slot.place) budget) content)
        exact ⟨hpos', hset, by rw [hcapacity, hwish']⟩
      · exact hnodup'
      · intro hk
        have hle := hclone hk
        rw [List.map_cons, List.map_cons, List.sum_cons] at hle
        omega
      · intro hk
        rw [hbudget hk, spent, if_neg hk]
        simp only
        omega

end Cubic.Inventory
