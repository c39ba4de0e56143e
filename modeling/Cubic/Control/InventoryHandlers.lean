import Cubic.Control.InventorySession
import Cubic.Inventory.Atomicity

/-!
# What the inventory handlers need

A packet or command needs little of the inventory it meets: mostly that the container it
is about is still open. `Agrees` is what holds of the inventory between two calls, given
how many slots each container was last said to have.
-/

namespace Cubic.Control

set_option autoImplicit false

open Inventory InventoryState Mut

abbrev SlotCounts := ContainerId → Nat

/-- Between two calls: containers have the slots they were said to have, and no stack is empty. -/
structure Agrees (counts : SlotCounts) (s : InventoryState) : Prop where
  opened : ∀ c ∈ s.opened, c.id ≠ playerContainerId
  lengths : ∀ id c, s.container? id = some c → c.slots.length = counts id
  player : counts playerContainerId = playerInventorySlots
  counted : s.Stacks ItemStack.Counted

section
variable {counts counts' : SlotCounts} {s t : InventoryState} {id : ContainerId}
  {c c' : ContainerState}

theorem Agrees.congr (h : Agrees counts s) (hp : t.player = s.player) (ho : t.opened = s.opened) :
    Agrees counts t := by
  refine ⟨ho ▸ h.opened, ?_, h.player, ?_⟩
  · intro id c hc
    rw [container?_congr hp ho] at hc
    exact h.lengths id c hc
  · unfold Stacks containers
    rw [hp, ho]
    exact h.counted

/-- Stacks may move, as long as they stay counted. -/
theorem Agrees.sound (h : Agrees counts s) (ht : t.Sound ItemStack.Counted s) : Agrees counts t := by
  have hopened : ∀ c, t.opened = some c → ∃ c₀, s.opened = some c₀ ∧ c.Sound ItemStack.Counted c₀ := by
    intro c hc
    have hrel := ht.opened
    rw [hc] at hrel
    exact opened_of_rel hrel
  have hid : ∀ {c c₀ : ContainerState}, c.Sound ItemStack.Counted c₀ → c.id = c₀.id :=
    fun hc => (congrArg ContainerState.id hc.frame :)
  refine ⟨?_, ?_, h.player, ht.stacks⟩
  · intro c hc
    obtain ⟨c₀, hopen, hsound⟩ := hopened c hc
    rw [hid hsound]
    exact h.opened c₀ hopen
  · intro id c hc
    by_cases hplayer : id = playerContainerId
    · cases hplayer
      cases hc
      exact ht.player.length.trans (h.lengths _ _ container?_player)
    · obtain ⟨hopen, hcid⟩ := (container?_eq_some hplayer).mp hc
      obtain ⟨c₀, hopen₀, hsound⟩ := hopened c hopen
      refine hsound.length.trans (h.lengths id c₀ ?_)
      exact (container?_eq_some hplayer).mpr ⟨hopen₀, (hid hsound).symm.trans hcid⟩

theorem Agrees.synchronized (h : Agrees counts s) (id : ContainerId) :
    Agrees counts (s.synchronizedFrom id) :=
  h.sound h.counted.sound.synchronizedFrom

/-- Every stack in the container is counted. -/
def CountedIn (c : ContainerState) : Prop :=
  (∀ o ∈ c.slots, ∀ stack ∈ o, stack.Counted) ∧ ∀ stack ∈ c.carried, stack.Counted

theorem Agrees.countedIn (h : Agrees counts s) (hc : s.container? id = some c) : CountedIn c := by
  by_cases hplayer : id = playerContainerId
  · cases hplayer
    cases hc
    exact h.counted _ List.mem_cons_self
  · apply h.counted
    apply List.mem_cons_of_mem
    exact Option.mem_toList.mpr ((container?_eq_some hplayer).mp hc).1

/-- The borrowed container is put back with what is now said of it. -/
theorem Agrees.put (h : Agrees counts s) (hc : s.container? id = some c) (hid : c'.id = c.id)
    (hself : counts' id = c'.slots.length) (hother : ∀ d, d ≠ id → counts' d = counts d)
    (hplayer : counts' playerContainerId = playerInventorySlots) (hcounted : CountedIn c') :
    Agrees counts' (putContainer id c' s) := by
  by_cases hzero : id = playerContainerId
  · cases hzero
    have hput : putContainer playerContainerId c' s = { s with player := c' } := if_pos rfl
    rw [hput]
    refine ⟨h.opened, ?_, hplayer, ?_⟩
    · intro d e he
      by_cases hd : d = playerContainerId
      · cases hd
        cases he
        exact hself.symm
      · rw [hother d hd]
        apply h.lengths d e
        obtain ⟨hopen, hed⟩ := (container?_eq_some hd).mp he
        exact (container?_eq_some hd).mpr ⟨hopen, hed⟩
    · intro e he
      rcases List.mem_cons.mp he with he | he
      · cases he
        exact hcounted
      · exact h.counted e (List.mem_cons_of_mem _ he)
  · obtain ⟨hopen, hcid⟩ := (container?_eq_some hzero).mp hc
    have hput : putContainer id c' s = { s with opened := some c' } := if_neg hzero
    rw [hput]
    refine ⟨?_, ?_, hplayer, ?_⟩
    · intro e he
      cases he
      rw [hid, hcid]
      exact hzero
    · intro d e he
      by_cases hd : d = playerContainerId
      · cases hd
        cases he
        rw [hother _ (Ne.symm hzero)]
        exact h.lengths _ _ container?_player
      · obtain ⟨he, hed⟩ := (container?_eq_some hd).mp he
        cases he
        rw [← hed, hid, hcid]
        exact hself.symm
    · intro e he
      rcases List.mem_cons.mp he with he | he
      · cases he
        exact h.counted _ List.mem_cons_self
      · cases Option.mem_toList.mp he
        exact hcounted

theorem Agrees.openedWith (h : Agrees counts s) (hzero : c.id ≠ playerContainerId)
    (hcounted : CountedIn c) :
    Agrees (Function.update counts c.id c.slots.length)
      { s with opened := some c, quickCraft := none } := by
  have hother : ∀ d, d ≠ c.id → Function.update counts c.id c.slots.length d = counts d :=
    fun d hd => Function.update_of_ne hd _ _
  refine ⟨?_, ?_, ?_, ?_⟩
  · intro e he
    cases he
    exact hzero
  · intro d e he
    by_cases hd : d = playerContainerId
    · cases hd
      cases he
      rw [hother _ (Ne.symm hzero)]
      exact h.lengths _ _ container?_player
    · obtain ⟨he, hed⟩ := (container?_eq_some hd).mp he
      cases he
      rw [← hed, Function.update_self]
  · rw [hother _ (Ne.symm hzero)]
    exact h.player
  · intro e he
    rcases List.mem_cons.mp he with he | he
    · cases he
      exact h.counted _ List.mem_cons_self
    · cases Option.mem_toList.mp he
      exact hcounted

theorem Agrees.closed (h : Agrees counts s) :
    Agrees counts { s with opened := none, quickCraft := none } := by
  refine ⟨fun c hc => (nomatch hc), ?_, h.player, ?_⟩
  · intro d e he
    by_cases hd : d = playerContainerId
    · cases hd
      cases he
      exact h.lengths _ _ container?_player
    · cases ((container?_eq_some hd).mp he).1
  · intro e he
    rcases List.mem_cons.mp he with he | he
    · cases he
      exact h.counted _ List.mem_cons_self
    · cases he

end

/-! ### What packets and commands presuppose -/

namespace InventoryPacket

/-- The container the packet is about, if it should exist already. -/
def target : InventoryPacket → Option ContainerId
  | close container => some container
  | setContent container _ _ _ => some container
  | setSlot container _ _ _ => some container
  | setData container _ _ => some container
  | _ => none

/-- What the packet says about numbers of slots. -/
def tell (counts : SlotCounts) : InventoryPacket → SlotCounts
  | openScreen container _ _ => Function.update counts container 0
  | setContent container _ items _ => Function.update counts container items.length
  | _ => counts

/-- The decoder bounds contents and held slots. A server opens no container 0, resends the
player's with its 46 slots, and sets only slots that it has said exist. -/
def WellFormed (counts : SlotCounts) : InventoryPacket → Prop
  | openScreen container _ _ => container ≠ playerContainerId
  | setContent container _ items _ => items.length ≤ maxContainerSlots ∧
      (container = playerContainerId → items.length = playerInventorySlots)
  | setSlot container _ slot _ => 0 ≤ slot.val.toInt ∧ slot.val.toInt.toNat < counts container
  | setHeldSlot slot => slot ≤ 8
  | _ => True

instance (counts : SlotCounts) (p : InventoryPacket) : Decidable (p.WellFormed counts) := by
  cases p <;> unfold WellFormed <;> infer_instance

/-- The container is still there. A close may also find nothing open. -/
def Finds (s : InventoryState) : InventoryPacket → Prop
  | close container => ∀ c ∈ s.opened, c.id = container
  | setContent container _ _ _ => (s.container? container).isSome
  | setSlot container _ _ _ => (s.container? container).isSome
  | setData container _ _ => (s.container? container).isSome
  | _ => True

end InventoryPacket

namespace InventoryCommand

def target : InventoryCommand → Option ContainerId
  | close container => some container
  | click action => some action.container
  | _ => none

/-- A hotbar slot, or a slot of the player inventory; -1 drops the stack. -/
def InRange : InventoryCommand → Prop
  | selectHotbar slot => slot ≤ 8
  | creativeSlot slot stack => (slot.val = -1 ∨ 0 ≤ slot.val.toInt ∧
      slot.val.toInt.toNat < playerInventorySlots) ∧ ∀ s ∈ stack, s.Counted
  | creativeCarried stack => ∀ s ∈ stack, s.Counted
  | _ => True

instance (command : InventoryCommand) : Decidable command.InRange := by
  cases command <;> unfold InRange <;> infer_instance

/-- The container is still there, or the click would drop no gesture. -/
def Finds (s : InventoryState) : InventoryCommand → Prop
  | close container => ∃ c ∈ s.opened, c.id = container
  | click action => (s.container? action.container).isSome ∨
      s.quickCraft = none ∨ ¬ action.DropsGesture
  | _ => True

end InventoryCommand

/-- The container is neither the player's nor the open one. -/
def stale (s : InventoryState) (target : Option ContainerId) : Bool :=
  target.any fun id => (s.container? id).isNone

/-- How a handler ends on an input that presupposes `finds`: with an error that is about
the inventory's state, or with the inventory changed over a stale container, only if it
does not hold. -/
def handled {E α : Type} (counts : SlotCounts) (s : InventoryState) (target : Option ContainerId)
    (finds : Prop) : Post (ChatSessionError E) InventoryState α where
  ok _ t := Agrees counts t ∧ ((stale s target = true ∧ t ≠ s) ↔ ¬ finds)
  err e _ := e.IsState → ¬ finds
  panic := False

section
variable {E α β : Type} {counts : SlotCounts} {s t : InventoryState} {target : Option ContainerId}
  {finds : Prop}

theorem handled_ok (ht : Agrees counts t) (hfinds : finds) (hstale : stale s target = true → t = s)
    (a : α) : (handled counts s target finds : Post (ChatSessionError E) InventoryState α).ok a t :=
  ⟨ht, fun h => absurd (hstale h.1) h.2, fun h => absurd hfinds h⟩

/-- What is about no container is never stale. -/
theorem not_stale_none (hstale : stale s none = true) : t = s :=
  absurd hstale Bool.false_ne_true

theorem not_stale {id : ContainerId} {c : ContainerState} (h : s.container? id = some c) :
    ¬ stale s (some id) = true := by
  change ¬ (s.container? id).isNone = true
  rw [h]
  exact Bool.false_ne_true

theorem handled_present {id : ContainerId} {c : ContainerState} (hc : s.container? id = some c)
    (ht : Agrees counts t) (a : α) :
    (handled counts s (some id) ((s.container? id).isSome = true) :
      Post (ChatSessionError E) InventoryState α).ok a t := by
  refine handled_ok ht ?_ ?_ a
  · rw [hc]
    rfl
  · exact fun hstale => absurd hstale (not_stale hc)

theorem handled_absent {id : ContainerId} (hc : s.container? id = none) (e : ChatSessionError E) :
    (handled counts s (some id) ((s.container? id).isSome = true) :
      Post (ChatSessionError E) InventoryState α).err e t := by
  intro _ hfinds
  rw [hc] at hfinds
  cases hfinds

/-- A conversion comes before anything is written. -/
theorem wp_convert {P : β → Prop} {r : Except (ChatSessionError E) β} (hr : Converts P r)
    {f : β → SessionM E α} (hf : ∀ b, P b → wp (f b) (handled counts s target finds) s) :
    wp (Mut.ofExcept r >>= f) (handled counts s target finds) s := by
  rw [wp_bind, wp_ofExcept]
  cases r with
  | ok b => exact hf b hr
  | error e => exact fun hstate => absurd hstate hr

variable (project : Projection E)

theorem applyInventoryPacket_spec (h : Agrees counts s) {p : InventoryPacket}
    (hp : p.WellFormed counts) :
    wp (applyInventoryPacket project p) (handled (p.tell counts) s p.target (p.Finds s)) s := by
  cases p with
  | openScreen container menu title =>
    have hnew : ContainerState.new container (.menu menu) title 0 = .ok
        { id := container, menu := .menu menu, title, stateId := 0, slots := [], carried := none,
          properties := .empty } := if_neg (Nat.not_lt_zero _)
    simp only [applyInventoryPacket, inventory, hnew, wp_bind, wp_mapErr, wp_ofExcept,
      openContainer, wp_ite, wp_fail, wp_modify]
    rw [if_neg hp]
    have hopened := h.openedWith (c := ⟨container, .menu menu, title, 0, [], none, .empty⟩) hp
      ⟨fun o ho => absurd ho List.not_mem_nil, fun stack hs => absurd hs (Option.not_mem_none stack)⟩
    refine handled_ok hopened trivial ?_ ()
    exact not_stale_none
  | close container =>
    simp only [applyInventoryPacket, inventory, wp_bind, wp_get, wp_ite, wp_pure, wp_mapErr,
      closeContainer, wp_set, wp_fail]
    cases hopen : s.opened with
    | none =>
      refine handled_ok h ?_ ?_ ()
      · intro c hc
        rw [hopen] at hc
        cases hc
      · exact fun _ => rfl
    | some c =>
      simp only [Option.isSome_some, if_true, Option.any_some, decide_eq_true_eq]
      split
      · rename_i hid
        have hzero := h.opened c hopen
        rw [hid] at hzero
        refine handled_ok h.closed ?_ ?_ ()
        · intro c' hc'
          rw [hopen] at hc'
          cases hc'
          exact hid
        · intro hstale
          exact absurd hstale (not_stale ((container?_eq_some hzero).mpr ⟨hopen, hid⟩))
      · rename_i hid
        exact fun _ hfinds => hid (hfinds c hopen)
  | setContent container stateId items carried =>
    obtain ⟨hlength, hplayer⟩ := hp
    apply wp_convert (converts_semanticOptionalStacks project items)
    rintro slots ⟨hslots, hall⟩
    apply wp_convert (converts_semanticOptionalStack project carried)
    intro carried hcarried
    have hfits : ¬ slots.length > maxContainerSlots := by
      rw [hslots]
      exact Nat.not_lt.mpr hlength
    simp only [inventory, replaceContent, wp_mapErr, wp_bind, wp_get, wp_onContainer]
    cases hc : s.container? container with
    | none => exact handled_absent hc _
    | some c =>
      simp only [ContainerState.replaceContent, if_neg hfits, wp_modify, clearQuickCraftIf,
        synchronizePlayerFrom]
      apply handled_present hc
      apply Agrees.synchronized
      have hput : Agrees (Function.update counts container items.length)
          (putContainer container { c with stateId, slots, carried } s) := by
        refine h.put hc rfl ?_ ?_ ?_ ?_
        · rw [Function.update_self, hslots]
        · exact fun d hd => Function.update_of_ne hd _ _
        · by_cases hzero : container = playerContainerId
          · rw [← hzero, Function.update_self, hplayer hzero]
          · rw [Function.update_of_ne (Ne.symm hzero)]
            exact h.player
        · exact ⟨hall, hcarried⟩
      apply hput.congr
      · split <;> rfl
      · split <;> rfl
  | setSlot container stateId slot item =>
    apply wp_convert (converts_semanticOptionalStack project item)
    intro stack hstack
    simp only [inventory, setSlot, wp_mapErr, wp_bind, wp_get, wp_onContainer]
    cases hc : s.container? container with
    | none => exact handled_absent hc _
    | some c =>
      have hindex : c.slotIndex? slot = some slot.val.toInt.toNat := by
        unfold ContainerState.slotIndex?
        rw [if_neg (Int.not_lt.mpr hp.1), h.lengths container c hc, if_pos hp.2]
      simp only [ContainerState.setSlot, wp_bind, wp_get, hindex, wp_set, wp_modify,
        clearQuickCraftIf, synchronizePlayerFrom]
      apply handled_present hc
      apply Agrees.synchronized
      have hput : Agrees counts (putContainer container
          { c with stateId, slots := c.slots.set slot.val.toInt.toNat stack } s) := by
        refine h.put hc rfl ?_ ?_ ?_ ?_
        · change _ = (c.slots.set _ _).length
          rw [List.length_set]
          exact (h.lengths container c hc).symm
        · exact fun _ _ => rfl
        · exact h.player
        · obtain ⟨hslots, hcarried⟩ := h.countedIn hc
          exact ⟨forall_mem_set hslots _ hstack, hcarried⟩
      apply hput.congr
      · split <;> rfl
      · split <;> rfl
  | setData container property value =>
    simp only [applyInventoryPacket, inventory, wp_mapErr, wp_onContainer]
    cases hc : s.container? container with
    | none => exact handled_absent hc _
    | some c =>
      have hcounted := h.countedIn hc
      have hput : Agrees counts (putContainer container
          { c with properties := c.properties.insert property value } s) := by
        refine h.put hc rfl ?_ ?_ ?_ hcounted
        · exact (h.lengths container c hc).symm
        · exact fun _ _ => rfl
        · exact h.player
      exact handled_present (E := E) hc hput ()
  | setHeldSlot slot =>
    simp only [applyInventoryPacket, inventory, setSelectedHotbarSlot, wp_mapErr, wp_ite, wp_fail,
      wp_modify]
    rw [if_neg (UInt8.not_lt.mpr hp)]
    refine handled_ok ?_ ?_ ?_ ()
    · exact h.congr rfl rfl
    · trivial
    · exact not_stale_none

variable (send : Send E)

theorem handled_sendAction {action : InventoryAction} (ht : Agrees counts t) (hfinds : finds)
    (hstale : stale s target = true → t = s) :
    wp (sendAction send action) (handled counts s target finds) t := by
  unfold sendAction
  rw [wp_bind, wp_ofExcept]
  cases send action with
  | ok u => exact handled_ok (E := E) ht hfinds hstale (some action)
  | error e => exact fun hstate => hstate.elim

/-- The stacks of the inventory with another one in the player's slot. -/
theorem Agrees.creativeSlot (h : Agrees counts s) (index : Nat) {stack : Option ItemStack}
    (hstack : ∀ s ∈ stack, s.Counted) :
    Agrees counts { s with player := { s.player with slots := s.player.slots.set index stack } } := by
  have hsound := h.counted.sound
  apply h.sound
  exact ⟨hsound.player.setSlot index hstack, hsound.opened⟩

theorem Agrees.carried (h : Agrees counts s) {stack : Option ItemStack}
    (hstack : ∀ s ∈ stack, s.Counted) :
    Agrees counts
      { s with
        opened := s.opened.map fun c => c.withCarried stack
        player := s.player.withCarried stack } := by
  have hsound := h.counted.sound
  apply h.sound
  refine ⟨hsound.player.setCarried hstack, ?_⟩
  have hopened := hsound.opened
  change Option.Rel _ (s.opened.map _) s.opened
  cases hopen : s.opened with
  | none => exact .none
  | some c =>
    rw [hopen] at hopened
    cases hopened with
    | some hc => exact .some (hc.setCarried hstack)

/-- A click that fails is ignored, but the gesture it drops is gone. -/
theorem handled_click (h : Agrees counts s) (click : ContainerClick) :
    wp (serviceInventoryCommand send (.click click))
      (handled counts s (some click.container) (InventoryCommand.Finds s (.click click))) s := by
  have hspec := applyClick_spec counted_law h.counted.sound click
  simp only [serviceInventoryCommand, wp_bind, wp_attempt]
  unfold wp at hspec ⊢
  cases hrun : applyClick click s with
  | ok outcome t =>
    rw [hrun] at hspec
    obtain ⟨ht, c, _, hc, _⟩ := hspec
    apply handled_sendAction send (h.sound ht)
    · apply Or.inl
      rw [hc]
      rfl
    · exact fun hstale => absurd hstale (not_stale hc)
  | err e t =>
    rw [hrun] at hspec
    have hsame := applyClick_unchanged_iff hrun
    refine ⟨h.sound hspec, ?_⟩
    change (s.container? click.container).isNone = true ∧ t ≠ s ↔ ¬ _
    rw [InventoryCommand.Finds, not_or, ← hsame, ne_eq]
    cases s.container? click.container with
    | none => simp
    | some c => simp
  | panic =>
    rw [hrun] at hspec
    exact hspec

theorem serviceInventoryCommand_spec (h : Agrees counts s) {command : InventoryCommand}
    (hrange : command.InRange) :
    wp (serviceInventoryCommand send command)
      (handled counts s command.target (command.Finds s)) s := by
  cases command with
  | selectHotbar slot =>
    simp only [serviceInventoryCommand, inventory, setSelectedHotbarSlot, wp_bind, wp_mapErr,
      wp_ite, wp_fail, wp_modify]
    rw [if_neg (UInt8.not_lt.mpr hrange)]
    exact handled_sendAction send (h.congr rfl rfl) trivial not_stale_none
  | click click => exact handled_click send h click
  | close container =>
    simp only [serviceInventoryCommand, inventory, closeContainer, wp_bind, wp_mapErr, wp_get,
      wp_ite, wp_set, wp_fail]
    split
    · rename_i hany
      obtain ⟨c, hopen, hid⟩ := Option.any_eq_true _ _ |>.mp hany
      have hid : c.id = container := of_decide_eq_true hid
      have hzero := h.opened c hopen
      rw [hid] at hzero
      apply handled_sendAction send h.closed
      · exact ⟨c, hopen, hid⟩
      · intro hstale
        exact absurd hstale (not_stale ((container?_eq_some hzero).mpr ⟨hopen, hid⟩))
    · rename_i hany
      rintro _ ⟨c, hopen, hid⟩
      apply hany
      rw [Option.mem_def.mp hopen]
      exact decide_eq_true hid
  | creativeSlot slot stack =>
    obtain ⟨hslot, hstack⟩ := hrange
    simp only [serviceInventoryCommand, inventory, setCreativeSlot, wp_bind, wp_mapErr, wp_ite,
      wp_pure, wp_get, onPlayer, wp_zoom, ContainerState.setSlot]
    split
    · exact handled_sendAction send h trivial not_stale_none
    · rename_i hdrop
      obtain ⟨hlow, hhigh⟩ := hslot.resolve_left hdrop
      have hindex : s.player.slotIndex? slot = some slot.val.toInt.toNat := by
        unfold ContainerState.slotIndex?
        rw [if_neg (Int.not_lt.mpr hlow), h.lengths _ _ container?_player, h.player, if_pos hhigh]
      simp only [hindex, wp_set]
      exact handled_sendAction send (h.creativeSlot _ hstack) trivial not_stale_none
  | creativeCarried stack =>
    simp only [serviceInventoryCommand, inventory, setCarried, wp_bind, wp_mapErr, wp_modify,
      wp_pure]
    refine handled_ok (h.carried hrange) trivial ?_ none
    exact not_stale_none
  | button container button =>
    exact handled_sendAction send h trivial not_stale_none

end

end Cubic.Control
