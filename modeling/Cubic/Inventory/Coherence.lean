import Cubic.Inventory.ClickFrame
import Cubic.Inventory.Conservation
import Cubic.Inventory.Operation

/-!
# The two copies of the player's slots

An open menu of 36 slots or more ends in the player's main inventory and hotbar, and the
cursor is stored with both containers. `synchronize_player_from` copies slots from the
open menu to the player only, and the cursor both ways.
-/

namespace Cubic.Inventory

set_option autoImplicit false

open Mut

/-- The last 36 slots. -/
def ContainerState.tail (c : ContainerState) : List (Option ItemStack) :=
  c.slots.drop (c.slots.length - 36)

namespace InventoryState

/-- Player slots 9 to 44. -/
def mainSlots (s : InventoryState) : List (Option ItemStack) := (s.player.slots.drop 9).take 36

def Coherent (s : InventoryState) : Prop :=
  ∀ c ∈ s.opened, c.carried = s.player.carried ∧ (36 ≤ c.slots.length → c.tail = s.mainSlots)

instance (s : InventoryState) : Decidable s.Coherent :=
  inferInstanceAs (Decidable (∀ c ∈ s.opened, c.carried = s.player.carried ∧
    (36 ≤ c.slots.length → c.tail = s.mainSlots)))

end InventoryState

open InventoryState

theorem length_tail {c : ContainerState} (h : 36 ≤ c.slots.length) : c.tail.length = 36 := by
  rw [ContainerState.tail, List.length_drop]
  omega

/-- A mirrored menu presupposes the slots it mirrors. -/
theorem room_of_coherent {s : InventoryState} (h : s.Coherent) {c : ContainerState}
    (hc : s.opened = some c) (hwide : 36 ≤ c.slots.length) : 45 ≤ s.player.slots.length := by
  have hlen := congrArg List.length ((h c hc).2 hwide)
  rw [length_tail hwide, mainSlots, List.length_take, List.length_drop] at hlen
  omega

theorem copyToPlayer_eq (tail : List (Option ItemStack)) :
    ∀ (offset : Nat) {slots : List (Option ItemStack)}, 9 + offset + tail.length ≤ slots.length →
      copyToPlayer offset tail slots =
        slots.take (9 + offset) ++ tail ++ slots.drop (9 + offset + tail.length) := by
  induction tail with
  | nil =>
    intro offset slots _
    simp [copyToPlayer]
  | cons stack rest ih =>
    intro offset slots h
    rw [List.length_cons] at h
    have hlt : 9 + offset < slots.length := by omega
    have hroom : 9 + (offset + 1) + rest.length ≤ (slots.set (9 + offset) stack).length := by
      rw [List.length_set]
      omega
    have hnext := ih (offset + 1) hroom
    have htake : (slots.set (9 + offset) stack).take (9 + (offset + 1)) =
        slots.take (9 + offset) ++ [stack] := by
      rw [show 9 + (offset + 1) = 9 + offset + 1 by omega, List.take_add_one,
        List.take_set_of_le (le_refl _), List.getElem?_set_self hlt]
      rfl
    have hdrop : (slots.set (9 + offset) stack).drop (9 + (offset + 1) + rest.length) =
        slots.drop (9 + offset + (rest.length + 1)) := by
      rw [List.drop_set_of_lt (by omega)]
      congr 1
      omega
    rw [copyToPlayer, hnext, htake, hdrop]
    simp

/-- The copied slots are read back where `mainSlots` looks. -/
theorem copied_slots {tail slots : List (Option ItemStack)} (htail : tail.length = 36)
    (hslots : 45 ≤ slots.length) : ((copyToPlayer 0 tail slots).drop 9).take 36 = tail := by
  rw [copyToPlayer_eq tail 0 (by omega), List.append_assoc,
    List.drop_left' (by rw [List.length_take]; omega), List.take_left' htail]

theorem coherent_synchronizedFrom {id : ContainerId} (hid : id ≠ playerContainerId)
    {s : InventoryState} {c : ContainerState} (hc : s.opened = some c)
    (hroom : 36 ≤ c.slots.length → 45 ≤ s.player.slots.length) :
    (s.synchronizedFrom id).Coherent := by
  simp only [synchronizedFrom, if_neg hid, hc]
  split
  · rename_i hnarrow
    rintro _ ⟨⟩
    exact ⟨rfl, fun hwide => by omega⟩
  · rename_i hwide
    rintro _ ⟨⟩
    refine ⟨rfl, fun _ => ?_⟩
    have hlen : 36 ≤ c.slots.length := by omega
    exact (copied_slots (length_tail hlen) (hroom hlen)).symm

/-- What a successful operation on container `id` does: it rewrites `c` into `c'`, then
synchronizes. -/
def Rewrote (id : ContainerId) (s s' : InventoryState) (c c' : ContainerState) : Prop :=
  s.container? id = some c ∧ ∃ s₁ : InventoryState, s₁.player = (putContainer id c' s).player ∧
    s₁.opened = (putContainer id c' s).opened ∧ s' = s₁.synchronizedFrom id

section Rewrote
variable {id : ContainerId} {s s' : InventoryState} {c c' : ContainerState}

theorem Rewrote.coherent (hid : id ≠ playerContainerId) (h : Rewrote id s s' c c')
    (hroom : 36 ≤ c'.slots.length → 45 ≤ s.player.slots.length) : s'.Coherent := by
  obtain ⟨-, s₁, hplayer, hopened, rfl⟩ := h
  simp only [putContainer, if_neg hid] at hplayer hopened
  exact coherent_synchronizedFrom hid hopened (hplayer ▸ hroom)

/-- Only the player's slots can come apart from their copies. -/
theorem coherent_player_iff (h : s.Coherent)
    (ho : s'.opened = s.opened.map fun c => c.withCarried s'.player.carried) :
    s'.Coherent ↔ ∀ c ∈ s.opened, 36 ≤ c.slots.length → s'.mainSlots = s.mainSlots := by
  unfold Coherent
  rw [ho]
  constructor
  · intro hs' c hc hwide
    obtain ⟨-, htail⟩ := hs' _ (Option.mem_map_of_mem _ hc)
    exact (htail hwide).symm.trans ((h c hc).2 hwide)
  · intro hmain c' hc'
    obtain ⟨c, hc, rfl⟩ := Option.map_eq_some_iff.mp hc'
    refine ⟨rfl, fun hwide => ?_⟩
    exact ((h c hc).2 hwide).trans (hmain c hc hwide).symm

theorem Rewrote.coherent_iff (h : s.Coherent) (hr : Rewrote playerContainerId s s' c c') :
    s'.Coherent ↔ ∀ c ∈ s.opened, 36 ≤ c.slots.length → s'.mainSlots = s.mainSlots := by
  obtain ⟨-, s₁, hplayer, hopened, rfl⟩ := hr
  refine coherent_player_iff h ?_
  show s₁.opened.map _ = _
  rw [hopened]
  rfl

theorem coherent_congr (h : s.Coherent) (hp : s'.player = s.player) (ho : s'.opened = s.opened) :
    s'.Coherent := by
  unfold Coherent mainSlots at *
  rw [hp, ho]
  exact h

theorem coherent_iff_of_same (h : s.Coherent) (hp : s'.player = s.player)
    (ho : s'.opened = s.opened) :
    s'.Coherent ↔ ∀ c ∈ s.opened, 36 ≤ c.slots.length → s'.mainSlots = s.mainSlots := by
  refine ⟨fun _ _ _ _ => ?_, fun _ => coherent_congr h hp ho⟩
  unfold mainSlots
  rw [hp]

end Rewrote

/-! ### What the operations do -/

theorem onContainer_steady {α : Type} {m : ContainerM α} (hm : SteadyOk m) (id : ContainerId)
    (s : InventoryState) :
    wp (onContainer id m) (Post.onOk fun _ s' => ∃ c c', s.container? id = some c ∧
      c'.slots.length = c.slots.length ∧ s' = putContainer id c' s) s := by
  rw [wp_onContainer]
  split
  · trivial
  · rename_i c hc
    refine wp_mono (hm c) ?_ (fun _ _ _ => trivial) fun _ => trivial
    intro a c' houtline
    exact ⟨c, c', hc, congrArg Prod.snd houtline, rfl⟩

/-- A successful click touches the gesture alone, or rewrites the clicked container
without resizing it. -/
theorem applyClick_effect (click : ContainerClick) (s : InventoryState) :
    wp (applyClick click) (Post.onOk fun _ s' =>
      (s'.player = s.player ∧ s'.opened = s.opened) ∨
      ∃ c c', Rewrote click.container s s' c c' ∧ c'.slots.length = c.slots.length) s := by
  have hgesture : ∀ {m : InventoryM ClickOutcome}, wp m (onlyGesture click s) s →
      wp m (Post.onOk fun _ s' => (s'.player = s.player ∧ s'.opened = s.opened) ∨
        ∃ c c', Rewrote click.container s s' c c' ∧ c'.slots.length = c.slots.length) s :=
    fun hm => wp_mono hm (fun _ _ h => Or.inl ⟨h.1, h.2.1⟩) (fun _ _ _ => trivial) False.elim
  have hrun : ∀ {m : ContainerM ClickOutcome}, SteadyOk m → ∀ g,
      wp (onContainer click.container m) (Post.onOk fun _ s' =>
        ∃ c c', Rewrote click.container s (s'.synchronizedFrom click.container) c c' ∧
          c'.slots.length = c.slots.length) { s with quickCraft := g } := by
    intro m hm g
    refine wp_mono (onContainer_steady hm _ _) ?_ (fun _ _ _ => trivial) fun _ => trivial
    rintro a _ ⟨c, c', hc, hlen, rfl⟩
    refine ⟨c, c', ⟨hc, _, ?_, ?_, rfl⟩, hlen⟩ <;> unfold putContainer <;> split <;> rfl
  unfold applyClick
  split
  · unfold applyQuickCraft
    split
    · trivial
    · rename_i kind _
      simp only [wp_ite, wp_fail]
      split
      · trivial
      · split
        · exact hgesture (startQuickCraft_spec click kind)
        · split
          · exact hgesture (addQuickCraftSlot_spec click kind)
          · split
            · simp only [endQuickCraft, wp_ite, wp_fail, wp_bind, wp_get]
              split
              · trivial
              · split
                · trivial
                · rename_i gesture _
                  simp only [wp_bind, wp_set, wp_ite, wp_fail]
                  split
                  · trivial
                  · exact wp_mono (hrun (steady_clickOutcome (steadyOk_finishQuickCraft gesture))
                      none) (fun _ _ => Or.inr) (fun _ _ => id) id
            · trivial
  · simp only [wp_bind, wp_modify]
    refine wp_mono (hrun ?_ none) (fun _ _ => Or.inr) (fun _ _ => id) id
    exact (guarded_checkedAction click).weaken fun _ _ _ => trivial

theorem replaceContent_effect (id : ContainerId) (stateId : Int32)
    (slots : List (Option ItemStack)) (carried : Option ItemStack) (s : InventoryState) :
    wp (replaceContent id stateId slots carried) (Post.onOk fun _ s' =>
      ∃ c c', Rewrote id s s' c c' ∧ c'.slots = slots) s := by
  simp only [replaceContent, wp_bind, wp_get, wp_onContainer]
  split
  · trivial
  · rename_i c hc
    simp only [ContainerState.replaceContent, wp_ite, wp_fail, wp_modify]
    split
    · trivial
    · refine ⟨c, { c with stateId, slots, carried }, ⟨hc, _, ?_, ?_, rfl⟩, rfl⟩ <;> split <;> rfl

theorem setSlot_effect (id : ContainerId) (stateId : Int32) (slot : SlotIndex)
    (stack : Option ItemStack) (s : InventoryState) :
    wp (setSlot id stateId slot stack) (Post.onOk fun _ s' =>
      ∃ c c', Rewrote id s s' c c' ∧ c'.slots.length = c.slots.length) s := by
  simp only [setSlot, wp_bind, wp_get, wp_onContainer]
  split
  · trivial
  · rename_i c hc
    simp only [ContainerState.setSlot, wp_bind, wp_get]
    split
    · trivial
    · rename_i index _
      refine ⟨c, { c with stateId, slots := c.slots.set index stack }, ⟨hc, _, ?_, ?_, rfl⟩,
        List.length_set⟩ <;> split <;> rfl

/-- The container an operation addresses. -/
def InventoryOp.target : InventoryOp → Option ContainerId
  | setCreativeSlot _ _ => some playerContainerId
  | edit id _ | replaceContent id _ _ _ | setSlot id _ _ _ => some id
  | applyClick click => some click.container
  | _ => none

/-- The operations that maintain the two copies: neither the opening of a container nor
what is done through `container_mut`. -/
def InventoryOp.Maintained : InventoryOp → Prop
  | openContainer _ | edit _ _ => False
  | _ => True

/-- Content that is to be mirrored finds the player's slots in place. -/
def InventoryOp.FitsPlayer (s : InventoryState) : InventoryOp → Prop
  | replaceContent _ _ slots _ => 36 ≤ slots.length → 45 ≤ s.player.slots.length
  | _ => True

theorem Rewrote.maintains {id : ContainerId} {s s' : InventoryState} {c c' : ContainerState}
    (h : s.Coherent) (hr : Rewrote id s s' c c')
    (hroom : id ≠ playerContainerId → 36 ≤ c'.slots.length → 45 ≤ s.player.slots.length) :
    (some id ≠ some playerContainerId → s'.Coherent) ∧
      (some id = some playerContainerId →
        (s'.Coherent ↔ ∀ c ∈ s.opened, 36 ≤ c.slots.length → s'.mainSlots = s.mainSlots)) := by
  constructor
  · intro hid
    have hid : id ≠ playerContainerId := fun heq => hid (congrArg some heq)
    exact hr.coherent hid (hroom hid)
  · intro hid
    cases hid
    exact hr.coherent_iff h

theorem Rewrote.maintains_resized {id : ContainerId} {s s' : InventoryState}
    {c c' : ContainerState} (h : s.Coherent) (hr : Rewrote id s s' c c')
    (hlen : c'.slots.length = c.slots.length) :
    (some id ≠ some playerContainerId → s'.Coherent) ∧
      (some id = some playerContainerId →
        (s'.Coherent ↔ ∀ c ∈ s.opened, 36 ≤ c.slots.length → s'.mainSlots = s.mainSlots)) := by
  refine hr.maintains h fun hid hwide => ?_
  exact room_of_coherent h ((container?_eq_some hid).mp hr.1).1 (hlen ▸ hwide)

/-- Two copies that agree still do after an operation on the open container or on
neither; after one on the player container they do unless a mirrored slot has changed. -/
theorem coherent_run {s s' : InventoryState} (h : s.Coherent) {op : InventoryOp}
    (hop : op.Maintained) (hfits : op.target ≠ some playerContainerId → op.FitsPlayer s)
    (hok : op.run s = .ok () s') :
    (op.target ≠ some playerContainerId → s'.Coherent) ∧
      (op.target = some playerContainerId →
        (s'.Coherent ↔ ∀ c ∈ s.opened, 36 ≤ c.slots.length → s'.mainSlots = s.mainSlots)) := by
  have hneither : s'.Coherent → (none ≠ some playerContainerId → s'.Coherent) ∧
      (none = some playerContainerId →
        (s'.Coherent ↔ ∀ c ∈ s.opened, 36 ≤ c.slots.length → s'.mainSlots = s.mainSlots)) :=
    fun hs' => ⟨fun _ => hs', fun hnone => by cases hnone⟩
  cases op with
  | setInstantBuild instantBuild =>
    cases hok
    exact hneither (coherent_congr h rfl rfl)
  | setPermissionLevel level =>
    cases hok
    exact hneither (coherent_congr h rfl rfl)
  | setSelectedHotbarSlot slot =>
    have hwp : wp (setSelectedHotbarSlot slot) (Post.onOk fun _ t =>
        t.player = s.player ∧ t.opened = s.opened) s := by
      simp only [setSelectedHotbarSlot, wp_ite, wp_fail, wp_modify]
      split
      · trivial
      · exact ⟨rfl, rfl⟩
    obtain ⟨hp, ho⟩ := ok_of_wp hwp hok
    exact hneither (coherent_congr h hp ho)
  | setCarried stack =>
    cases hok
    refine hneither ?_
    intro c' hc'
    obtain ⟨c, hc, rfl⟩ := Option.map_eq_some_iff.mp hc'
    exact ⟨rfl, (h c hc).2⟩
  | setCreativeSlot slot stack =>
    refine ⟨fun hne => (hne rfl).elim, fun _ => coherent_player_iff h ?_⟩
    have hwp : wp (setCreativeSlot slot stack) (Post.onOk fun _ t =>
        t.player.carried = s.player.carried ∧ t.opened = s.opened) s := by
      simp only [setCreativeSlot, onPlayer, ContainerState.setSlot, wp_ite, wp_pure, wp_bind,
        wp_get, wp_zoom]
      split
      · exact ⟨rfl, rfl⟩
      · split
        · trivial
        · exact ⟨rfl, rfl⟩
    obtain ⟨hcarried, ho⟩ := ok_of_wp hwp hok
    rw [ho, hcarried]
    cases hopen : s.opened with
    | none => rfl
    | some c => rw [Option.map_some, c.withCarried_self _ (h c hopen).1]
  | openContainer container => exact hop.elim
  | closeContainer id =>
    have hwp : wp (closeContainer id) (Post.onOk fun _ t => t.opened = none) s := by
      simp only [closeContainer, wp_bind, wp_get, wp_ite, wp_fail, wp_set]
      split
      · rfl
      · trivial
    have ho : s'.opened = none := ok_of_wp hwp hok
    refine hneither ?_
    unfold Coherent
    rw [ho]
    rintro c ⟨⟩
  | edit id f => exact hop.elim
  | replaceContent id stateId slots carried =>
    obtain ⟨c, c', hr, rfl⟩ := ok_of_wp (replaceContent_effect id stateId slots carried s) hok
    exact hr.maintains h fun hid => hfits fun heq => hid (Option.some.inj heq)
  | setSlot id stateId slot stack =>
    obtain ⟨c, c', hr, hlen⟩ := ok_of_wp (setSlot_effect id stateId slot stack s) hok
    exact hr.maintains_resized h hlen
  | reset =>
    cases hok
    refine hneither ?_
    rintro c ⟨⟩
  | applyClick click =>
    obtain ⟨outcome, t, hclick, hret⟩ := bind_eq_ok.mp hok
    cases hret
    rcases ok_of_wp (applyClick_effect click s) hclick with ⟨hp, ho⟩ | ⟨c, c', hr, hlen⟩
    · exact ⟨fun _ => coherent_congr h hp ho, fun _ => coherent_iff_of_same h hp ho⟩
    · exact hr.maintains_resized h hlen

theorem coherent_run_chest :
    ∃ s', (InventoryOp.applyClick ⟨⟨1⟩, 7, ⟨4⟩, 0, .quickMove⟩).run chestOpen = .ok () s' ∧
      s'.Coherent := by
  generalize hop : InventoryOp.applyClick ⟨⟨1⟩, 7, ⟨4⟩, 0, .quickMove⟩ = op
  have hm : op.Maintained := by
    rw [← hop]
    trivial
  have hfits : op.FitsPlayer chestOpen := by
    rw [← hop]
    trivial
  have htarget : op.target ≠ some playerContainerId := by
    rw [← hop]
    decide
  have hrun : (op.run chestOpen).value?.isSome = true := by
    rw [← hop]
    decide +kernel
  have h : chestOpen.Coherent := by decide +kernel
  cases hok : op.run chestOpen with
  | ok u s' => exact ⟨s', rfl, (coherent_run h hm (fun _ => hfits) hok).1 htarget⟩
  | err e s' =>
    rw [hok] at hrun
    cases hrun
  | panic =>
    rw [hok] at hrun
    cases hrun

/-- A narrow menu, open over a player container of ten slots. -/
def shortPlayer : InventoryState :=
  { InventoryState.new with
    player := InventoryState.new.player.withSlots (List.replicate 10 none)
    opened := some ((chestMenu.withSlots []).withCarried none) }

/-- With the chest open the server sets slot 9 of the player container; or a menu is
resent with 36 slots that the player container does not have. -/
theorem coherent_run_fails :
    (chestOpen.Coherent ∧ ∃ s',
      (InventoryOp.setSlot ⟨0⟩ 1 ⟨9⟩ (some (stone 1))).run chestOpen = .ok () s' ∧
      ¬ s'.Coherent) ∧
    (shortPlayer.Coherent ∧ ∃ s',
      (InventoryOp.replaceContent ⟨1⟩ 1 (List.replicate 36 none) none).run shortPlayer =
        .ok () s' ∧ ¬ s'.Coherent) := by
  refine ⟨⟨by decide +kernel, (((InventoryOp.setSlot ⟨0⟩ 1 ⟨9⟩ (some (stone 1))).run
      chestOpen).state?).getD .new, by decide +kernel, by decide +kernel⟩,
    by decide +kernel, (((InventoryOp.replaceContent ⟨1⟩ 1 (List.replicate 36 none) none).run
      shortPlayer).state?).getD .new, by decide +kernel, by decide +kernel⟩

end Cubic.Inventory
