import Cubic.Inventory.Gesture

/-!
# What an accepted click does

One lemma for each way a click can succeed: the container it borrowed, the run on that
container, and the state that follows.
-/

namespace Cubic.Inventory

set_option autoImplicit false

open Mut

theorem onContainer_eq_ok {α : Type} {id : ContainerId} {m : ContainerM α} {s s' : InventoryState}
    {a : α} : InventoryState.onContainer id m s = .ok a s' ↔
      ∃ c c', s.container? id = some c ∧ m c = .ok a c' ∧
        s' = InventoryState.putContainer id c' s := by
  simp only [InventoryState.onContainer, get_bind]
  cases hc : s.container? id with
  | none =>
    constructor
    · intro h
      cases h
    · rintro ⟨c, c', hsome, -⟩
      cases hsome
  | some c =>
    constructor
    · intro h
      obtain ⟨c', hm, rfl⟩ := zoom_eq_ok.mp h
      exact ⟨c, c', rfl, hm, rfl⟩
    · rintro ⟨c₀, c', hsome, hm, rfl⟩
      cases hsome
      exact zoom_eq_ok.mpr ⟨c', hm, rfl⟩

theorem clickOutcome_eq_ok {m : ContainerM Unit} {c c' : ContainerState} {outcome : ClickOutcome} :
    clickOutcome m c = .ok outcome c' ↔
      m c = .ok () c' ∧ outcome = ⟨changedSlots c.slots c'.slots, c'.carried⟩ := by
  simp only [clickOutcome, get_bind]
  constructor
  · intro h
    obtain ⟨⟨⟩, c₁, hm, h⟩ := bind_eq_ok.mp h
    cases h
    exact ⟨hm, rfl⟩
  · rintro ⟨hm, rfl⟩
    exact bind_of_ok hm

theorem checkedAction_eq_ok {click : ContainerClick} {c c' : ContainerState}
    {outcome : ClickOutcome} (h : checkedAction click c = .ok outcome c') :
    c.stateId = click.stateId ∧ clickAction click c = .ok () c' ∧
      outcome = ⟨changedSlots c.slots c'.slots, c'.carried⟩ := by
  simp only [checkedAction, get_bind] at h
  split at h
  · cases h
  · rename_i hid
    exact ⟨not_not.mp hid, clickOutcome_eq_ok.mp h⟩

/-- The run of an accepted operation on the clicked container, and what follows it. -/
structure Ran (m : ContainerM Unit) (id : ContainerId) (s s' : InventoryState)
    (outcome : ClickOutcome) (c c' : ContainerState) : Prop where
  before : s.container? id = some c
  run : m c = .ok () c'
  outcome : outcome = ⟨changedSlots c.slots c'.slots, c'.carried⟩
  after : s' =
    (InventoryState.putContainer id c' { s with quickCraft := none }).synchronizedFrom id

/-- The clicked container is still there after the copy to the player. -/
theorem Ran.container {m : ContainerM Unit} {id : ContainerId} {s s' : InventoryState}
    {outcome : ClickOutcome} {c c' : ContainerState} (h : Ran m id s s' outcome c c')
    (hid : c'.id = c.id) : s'.container? id = some c' := by
  have hdropped : ({ s with quickCraft := none } : InventoryState).container? id = some c :=
    (container?_congr rfl rfl).trans h.before
  rw [h.after, container?_synchronizedFrom]
  exact container?_putContainer hdropped hid

theorem applyClick_ran {click : ContainerClick} {s s' : InventoryState} {outcome : ClickOutcome}
    (hkind : click.kind ≠ .quickCraft) (h : applyClick click s = .ok outcome s') :
    ∃ c c', c.stateId = click.stateId ∧
      Ran (clickAction click) click.container s s' outcome c c' := by
  simp only [applyClick, if_neg hkind, modify_bind] at h
  obtain ⟨o, t, hon, hrest⟩ := bind_eq_ok.mp h
  obtain ⟨c, c', hc, hrun, rfl⟩ := onContainer_eq_ok.mp hon
  obtain ⟨hid, haction, rfl⟩ := checkedAction_eq_ok hrun
  cases hrest
  exact ⟨c, c', hid, (container?_congr rfl rfl).symm.trans hc, haction, rfl, rfl⟩

/-! ### The three stages of a quick craft -/

/-- The gesture that a first click opens. -/
def QuickCraftGesture.opened (click : ContainerClick) (kind : UInt8) : QuickCraftGesture :=
  { container := click.container, stateId := click.stateId, kind, slots := .empty }

theorem startQuickCraft_eq_ok {click : ContainerClick} {kind : UInt8} {s s' : InventoryState}
    {outcome : ClickOutcome} (h : startQuickCraft click kind s = .ok outcome s') :
    ∃ c held, s.container? click.container = some c ∧ c.carried = some held ∧
      s' = { s with quickCraft := some (.opened click kind) } ∧ outcome = ⟨.empty, some held⟩ := by
  unfold startQuickCraft at h
  split at h
  · cases h
  · obtain ⟨held, t, hread, hrest⟩ := bind_eq_ok.mp h
    obtain ⟨c, c', hc, hrun, rfl⟩ := onContainer_eq_ok.mp hread
    rw [get_bind] at hrun
    split at hrun
    · cases hrun
    · cases hheld : c.carried with
      | none =>
        rw [hheld] at hrun
        cases hrun
      | some stack =>
        rw [hheld] at hrun
        cases hrun
        rw [putContainer_self hc] at hrest
        cases hrest
        exact ⟨c, held, hc, hheld, rfl, rfl⟩

/-- `quick_craft_slot_eligible` as a condition on the container. -/
def Eligible (c : ContainerState) (held : ItemStack) (index : Nat) : Prop :=
  quickCraftAccepts c.menu index = true ∧ ∃ content ∈ c.slots[index]?,
    ∀ stack ∈ content, stack.stackableWith held = true ∧ stack.count < stack.maxStackSize

instance (c : ContainerState) (held : ItemStack) (index : Nat) :
    Decidable (Eligible c held index) := inferInstanceAs (Decidable (_ ∧ _))

theorem quickCraftSlotEligible_eq {c : ContainerState} {index : Nat}
    (hi : index < c.slots.length) (held : ItemStack) :
    quickCraftSlotEligible index held c = .ok (decide (Eligible c held index)) c := by
  have hwp : Mut.wp (quickCraftSlotEligible index held)
      ⟨fun b c' => (b = true ↔ Eligible c held index) ∧ c' = c, fun _ _ => False, False⟩ c := by
    have hcontent := List.getElem?_eq_getElem hi
    simp only [quickCraftSlotEligible, Mut.wp_bind, Mut.wp_get, Mut.wp_ite, Mut.wp_pure]
    split
    · rename_i hmenu
      exact ⟨iff_of_false Bool.false_ne_true fun h => hmenu h.1, trivial⟩
    · rename_i hmenu
      simp only [wp_readSlot hcontent]
      unfold Eligible
      rw [hcontent]
      cases hslot : c.slots[index] with
      | none =>
        refine ⟨iff_of_true rfl ⟨not_not.mp hmenu, none, rfl, ?_⟩, rfl⟩
        intro stack hsome
        cases hsome
      | some stack =>
        refine ⟨?_, rfl⟩
        rw [Bool.and_eq_true, decide_eq_true_iff]
        constructor
        · intro h
          refine ⟨not_not.mp hmenu, some stack, rfl, ?_⟩
          rintro _ ⟨⟩
          exact h
        · rintro ⟨-, content, hsome, h⟩
          cases hsome
          exact h stack rfl
  cases hrun : quickCraftSlotEligible index held c with
  | ok b c' =>
    obtain ⟨hb, rfl⟩ := ok_of_wp hwp hrun
    have hdecide : b = decide (Eligible c' held index) := by
      rw [Bool.eq_iff_iff, decide_eq_true_iff]
      exact hb
    rw [hdecide]
  | err e c' => exact (err_of_wp hwp hrun).elim
  | panic =>
    unfold Mut.wp at hwp
    rw [hrun] at hwp
    exact hwp.elim

theorem slotIndex_eq_ok {slot : SlotIndex} {c c' : ContainerState} {index : Nat} :
    slotIndex slot c = .ok index c' ↔ c.slotIndex? slot = some index ∧ c' = c := by
  rw [slotIndex, get_bind]
  cases c.slotIndex? slot with
  | none =>
    constructor
    · intro h
      cases h
    · rintro ⟨hsome, -⟩
      cases hsome
  | some i =>
    constructor
    · intro h
      cases h
      exact ⟨rfl, rfl⟩
    · rintro ⟨hsome, rfl⟩
      cases hsome
      rfl

theorem addQuickCraftSlot_eq_ok {click : ContainerClick} {kind : UInt8} {s s' : InventoryState}
    {outcome : ClickOutcome} (h : addQuickCraftSlot click kind s = .ok outcome s') :
    ∃ c held gesture index, s.container? click.container = some c ∧
      c.slotIndex? click.slot = some index ∧ s.quickCraft = some gesture ∧
      gesture.mismatches click kind = false ∧ c.carried = some held ∧
      gesture.slots.size < maxContainerSlots ∧
      s' = (if Eligible c held index then { s with quickCraft := some (gesture.insert click.slot) }
        else s) ∧
      outcome = ⟨.empty, c.carried⟩ := by
  unfold addQuickCraftSlot at h
  obtain ⟨index, t, hread, h₁⟩ := bind_eq_ok.mp h
  obtain ⟨c, c', hc, hrun, rfl⟩ := onContainer_eq_ok.mp hread
  obtain ⟨hindex, rfl⟩ := slotIndex_eq_ok.mp hrun
  rw [putContainer_self hc, get_bind] at h₁
  cases hgesture : s.quickCraft with
  | none =>
    rw [hgesture] at h₁
    cases h₁
  | some gesture =>
    rw [hgesture] at h₁
    dsimp only at h₁
    split at h₁
    · cases h₁
    · rename_i hmatch
      obtain ⟨eligible, t₁, hread₁, h₂⟩ := bind_eq_ok.mp h₁
      obtain ⟨c₁, c₂, hc₁, hrun₁, rfl⟩ := onContainer_eq_ok.mp hread₁
      cases hc.symm.trans hc₁
      rw [get_bind] at hrun₁
      cases hheld : c'.carried with
      | none =>
        rw [hheld] at hrun₁
        cases hrun₁
      | some held =>
        rw [hheld] at hrun₁
        dsimp only at hrun₁
        rw [quickCraftSlotEligible_eq (slotIndex?_lt hindex)] at hrun₁
        cases hrun₁
        rw [putContainer_self hc] at h₂
        split at h₂
        · cases h₂
        · rename_i hsize
          simp only [modify_bind, decide_eq_true_iff] at h₂
          generalize hnext : (if Eligible c' held index then
            { s with quickCraft := some (gesture.insert click.slot) } else s) = next at h₂
          have hnow : next.container? click.container = some c' := by
            rw [← hnext]
            split <;> exact hc
          obtain ⟨c₃, t₂, hget, h₃⟩ := bind_eq_ok.mp h₂
          obtain ⟨c₄, c₅, hc₄, hrun₄, rfl⟩ := onContainer_eq_ok.mp hget
          cases hrun₄
          cases hnow.symm.trans hc₄
          rw [putContainer_self hnow] at h₃
          cases h₃
          exact ⟨c', held, gesture, index, hc, hindex, rfl, Bool.eq_false_iff.mpr hmatch, hheld,
            Nat.lt_of_not_le hsize, hnext.symm, by rw [hheld]⟩

theorem endQuickCraft_ran {click : ContainerClick} {kind : UInt8} {s s' : InventoryState}
    {outcome : ClickOutcome} (h : endQuickCraft click kind s = .ok outcome s') :
    ∃ gesture c c', s.quickCraft = some gesture ∧ gesture.mismatches click kind = false ∧
      Ran (finishQuickCraft gesture) click.container s s' outcome c c' := by
  unfold endQuickCraft at h
  split at h
  · cases h
  · rw [get_bind] at h
    cases hgesture : s.quickCraft with
    | none =>
      rw [hgesture] at h
      cases h
    | some gesture =>
      rw [hgesture] at h
      dsimp only at h
      rw [set_bind] at h
      split at h
      · cases h
      · rename_i hmatch
        obtain ⟨o, t, hon, hrest⟩ := bind_eq_ok.mp h
        obtain ⟨c, c', hc, hrun, rfl⟩ := onContainer_eq_ok.mp hon
        obtain ⟨hfinish, rfl⟩ := clickOutcome_eq_ok.mp hrun
        cases hrest
        exact ⟨gesture, c, c', rfl, Bool.eq_false_iff.mpr hmatch,
          (container?_congr rfl rfl).symm.trans hc, hfinish, rfl, rfl⟩

/-- An accepted quick-craft click is one of the three stages. -/
theorem applyClick_quickCraft {click : ContainerClick} {s s' : InventoryState}
    {outcome : ClickOutcome} (hkind : click.kind = .quickCraft)
    (h : applyClick click s = .ok outcome s') :
    ∃ kind, quickCraftKind? click.button = some kind ∧ kind ≤ 2 ∧
      ((quickCraftStage click.button = 0 ∧ startQuickCraft click kind s = .ok outcome s') ∨
        (quickCraftStage click.button = 1 ∧ addQuickCraftSlot click kind s = .ok outcome s') ∨
        (quickCraftStage click.button = 2 ∧ endQuickCraft click kind s = .ok outcome s')) := by
  simp only [applyClick, if_pos hkind] at h
  unfold applyQuickCraft at h
  cases hk : quickCraftKind? click.button with
  | none =>
    rw [hk] at h
    cases h
  | some kind =>
    rw [hk] at h
    simp only at h
    split at h
    · cases h
    · rename_i hrange
      refine ⟨kind, rfl, UInt8.not_lt.mp fun hlt => hrange (Or.inl hlt), ?_⟩
      split at h
      · exact Or.inl ⟨by assumption, h⟩
      · split at h
        · exact Or.inr (Or.inl ⟨by assumption, h⟩)
        · split at h
          · exact Or.inr (Or.inr ⟨by assumption, h⟩)
          · cases h

end Cubic.Inventory
