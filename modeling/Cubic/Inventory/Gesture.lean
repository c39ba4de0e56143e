import Cubic.Inventory.Counts

/-!
# Borrowing a container, and the first two stages of a quick craft

Starting a drag and adding a slot to it read the clicked container and write nothing
but the gesture.
-/

namespace Cubic.Inventory

set_option autoImplicit false

section Borrowing
variable {s : InventoryState} {id : ContainerId} {c c' : ContainerState}

theorem container?_eq_some {c : ContainerState} (hid : id ≠ playerContainerId) :
    s.container? id = some c ↔ s.opened = some c ∧ c.id = id := by
  unfold InventoryState.container?
  rw [if_neg hid, Option.filter_eq_some_iff]
  simp

@[simp] theorem container?_player : s.container? playerContainerId = some s.player := rfl

theorem container?_putContainer (h : s.container? id = some c) (hc : c'.id = c.id) :
    (InventoryState.putContainer id c' s).container? id = some c' := by
  by_cases hid : id = playerContainerId
  · subst hid
    rfl
  · have hc' := ((container?_eq_some hid).mp h).2
    simp only [InventoryState.putContainer, if_neg hid]
    exact (container?_eq_some hid).mpr ⟨rfl, hc.trans hc'⟩

theorem putContainer_self (h : s.container? id = some c) :
    InventoryState.putContainer id c s = s := by
  by_cases hid : id = playerContainerId
  · subst hid
    cases h
    rfl
  · simp only [InventoryState.putContainer, if_neg hid, ← ((container?_eq_some hid).mp h).1]

theorem container?_congr {s' : InventoryState} (hp : s'.player = s.player)
    (ho : s'.opened = s.opened) : s'.container? id = s.container? id := by
  unfold InventoryState.container?
  rw [hp, ho]

/-- The copy to or from the player leaves the clicked container alone. -/
theorem container?_synchronizedFrom :
    (s.synchronizedFrom id).container? id = s.container? id := by
  by_cases hid : id = playerContainerId
  · subst hid
    rfl
  · have hopen : (s.synchronizedFrom id).opened = s.opened := by
      simp only [InventoryState.synchronizedFrom, if_neg hid]
      split
      · rfl
      · split <;> rfl
    unfold InventoryState.container?
    rw [if_neg hid, if_neg hid, hopen]

/-- A call that only reads the borrowed container leaves the inventory alone. -/
theorem onContainer_read {α : Type} {m : ContainerM α} {A : α → ContainerState → Prop}
    (hm : ∀ c, s.container? id = some c →
      Mut.wp m ⟨fun a c' => c' = c ∧ A a c, fun _ c' => c' = c, False⟩ c) :
    Mut.wp (InventoryState.onContainer id m)
      ⟨fun a s' => s' = s ∧ ∃ c, s.container? id = some c ∧ A a c, fun _ s' => s' = s, False⟩
      s := by
  rw [InventoryState.wp_onContainer]
  split
  · exact rfl
  · rename_i c hc
    refine Mut.wp_mono (hm c hc) ?_ ?_ fun h => h
    · rintro a c' ⟨rfl, ha⟩
      exact ⟨putContainer_self hc, c', hc, ha⟩
    · rintro _ _ rfl
      exact putContainer_self hc

end Borrowing

theorem wp_clickOutcome {m : ContainerM Unit} {Q : Post InventoryError ContainerState ClickOutcome}
    {c : ContainerState} :
    Mut.wp (clickOutcome m) Q c ↔ Mut.wp m
      ⟨fun _ c' => Q.ok ⟨changedSlots c.slots c'.slots, c'.carried⟩ c', Q.err, Q.panic⟩ c := by
  simp only [clickOutcome, Mut.wp_bind, Mut.wp_get]
  exact Iff.rfl

/-- The call reads the clicked container and writes nothing but the gesture, and
nothing at all when it fails. -/
def onlyGesture (click : ContainerClick) (s : InventoryState) :
    Post InventoryError InventoryState ClickOutcome where
  ok _ s' := s'.player = s.player ∧ s'.opened = s.opened ∧ ∃ c, s.container? click.container = some c
  err _ s' := s' = s
  panic := False

theorem startQuickCraft_spec {s : InventoryState} (click : ContainerClick) (kind : UInt8) :
    Mut.wp (startQuickCraft click kind) (onlyGesture click s) s := by
  simp only [startQuickCraft, Mut.wp_ite, Mut.wp_fail]
  split
  · exact rfl
  · refine Mut.wp_seq (onContainer_read (A := fun _ _ => True) fun c hc => ?_) ?_
      (fun _ _ => id) id
    · simp only [Mut.wp_bind, Mut.wp_get, Mut.wp_ite, Mut.wp_fail]
      split
      · trivial
      · split
        · exact rfl
        · exact ⟨rfl, trivial⟩
    · rintro carried _ ⟨rfl, c, hc, -⟩
      exact ⟨rfl, rfl, c, hc⟩

theorem quickCraftSlotEligible_spec {c : ContainerState} {index : Nat}
    (h : index < c.slots.length) (carried : ItemStack) :
    Mut.wp (quickCraftSlotEligible index carried)
      ⟨fun _ c' => c' = c ∧ True, fun _ c' => c' = c, False⟩ c := by
  simp only [quickCraftSlotEligible, Mut.wp_bind, Mut.wp_get, Mut.wp_ite]
  split
  · exact ⟨rfl, trivial⟩
  · simp only [wp_readSlot (List.getElem?_eq_getElem h)]
    split <;> exact ⟨rfl, trivial⟩

theorem addQuickCraftSlot_spec {s : InventoryState} (click : ContainerClick) (kind : UInt8) :
    Mut.wp (addQuickCraftSlot click kind) (onlyGesture click s) s := by
  refine Mut.wp_seq (onContainer_read (A := fun index c => index < c.slots.length)
    fun c hc => ?_) ?_ (fun _ _ => id) id
  · rw [wp_slotIndex]
    split
    · exact rfl
    · rename_i i hi
      exact ⟨rfl, slotIndex?_lt hi⟩
  · rintro index s' ⟨rfl, c, hc, hlt⟩
    simp only [Mut.wp_bind, Mut.wp_get]
    split
    · exact rfl
    · rename_i gesture _
      simp only [Mut.wp_ite, Mut.wp_fail]
      split
      · exact rfl
      · refine Mut.wp_seq (onContainer_read (A := fun _ _ => True) fun c' hc' => ?_) ?_
          (fun _ _ => id) id
        · cases hc.symm.trans hc'
          simp only [Mut.wp_bind, Mut.wp_get]
          split
          · exact rfl
          · exact quickCraftSlotEligible_spec hlt _
        · rintro eligible s' ⟨rfl, -⟩
          simp only [Mut.wp_ite, Mut.wp_fail]
          split
          · exact rfl
          · simp only [Mut.wp_bind, Mut.wp_modify]
            generalize hnext : (if eligible = true then
              { s' with quickCraft := some (gesture.insert click.slot) } else s') = next
            have hp : next.player = s'.player := by
              rw [← hnext]
              split <;> rfl
            have ho : next.opened = s'.opened := by
              rw [← hnext]
              split <;> rfl
            have hnow := (container?_congr hp ho).trans hc
            simp only [InventoryState.wp_onContainer, hnow, Mut.wp_get, putContainer_self hnow]
            exact ⟨hp, ho, c, hc⟩

end Cubic.Inventory
