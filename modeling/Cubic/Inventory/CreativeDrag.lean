import Cubic.Inventory.Drag

/-!
# The drag of the creative screen

`cubic-ui/src/lib.rs`, `apply_creative_quick_craft`: the distribution of a quick craft once more,
over the player slots that were visited. No count here exceeds a `u32`: what is added fits under
the maximum of a stack.
-/

namespace Cubic.Inventory

set_option autoImplicit false

open Mut

/-- The buttons that begin a quick craft. -/
inductive PointerButton where
  | primary
  | secondary
  | middle
  deriving DecidableEq

/-- `quick_craft_pointer_button`, the other way. -/
def PointerButton.kind : PointerButton → UInt8
  | .primary => 0
  | .secondary => 1
  | .middle => 2

structure CreativeQuickCraftGesture where
  button : PointerButton
  visited : OrderedSet SlotIndex

abbrev SlotChanges := List (SlotIndex × Option ItemStack)

/-- A visited slot that accepts the source, with what it holds. -/
def creativeSlot (player : ContainerState) (source : ItemStack) (slot : SlotIndex) :
    Option (SlotIndex × Option ItemStack) :=
  if slot.val.toInt < 0 then none
  else match player.slots[slot.val.toInt.toNat]? with
    | none => none
    | some existing =>
      if existing.all fun stack => stack.stackableWith source && stack.count < stack.maxStackSize
      then some (slot, existing)
      else none

def creativeEligible (player : ContainerState) (source : ItemStack) (visited : List SlotIndex) :
    SlotChanges :=
  visited.filterMap (creativeSlot player source)

/-- The loop over the eligible slots: its changes, and what remains. -/
def placeAll (source : ItemStack) (perSlot : Nat) : SlotChanges → Nat → SlotChanges × Nat
  | [], remaining => ([], remaining)
  | (slot, existing) :: rest, remaining =>
    if remaining = 0 then ([], remaining)
    else
      let current := existing.elim 0 fun stack => stack.count
      let maximum := existing.elim source.maxStackSize fun stack => stack.maxStackSize
      let added := min (min perSlot (maximum - current)) remaining
      if added = 0 then placeAll source perSlot rest remaining
      else
        let placed := { existing.getD source with count := current + added }
        let (changes, left) := placeAll source perSlot rest (remaining - added)
        ((slot, some placed) :: changes, left)

/-- The carried stack and the changes after the gesture. -/
def applyCreativeQuickCraft (state : InventoryState) (gesture : CreativeQuickCraftGesture)
    (carried : Option ItemStack) (changes : SlotChanges) : Option ItemStack × SlotChanges :=
  match carried with
  | none => (none, changes)
  | some source =>
    let eligible := creativeEligible state.player source gesture.visited.keys
    if eligible.isEmpty then (carried, changes)
    else if gesture.button = .middle then
      (carried, changes ++ eligible.map fun e =>
        (e.1, some { source with count := source.maxStackSize }))
    else
      let perSlot :=
        if gesture.button = .secondary then 1
        else source.count / (if eligible.length < 2 ^ 32 then eligible.length else 2 ^ 32 - 1)
      if perSlot = 0 then (carried, changes)
      else
        let (placed, remaining) := placeAll source perSlot eligible source.count
        (if remaining = 0 then none else some { source with count := remaining }, changes ++ placed)

/-! ### The gesture it is to agree with -/

def quickCraftButton (kind : UInt8) (stage : Int8) : Int8 := (kind.toInt8 <<< 2) ||| stage

def playerClick (stateId : Int32) (kind : UInt8) (stage : Int8) (slot : SlotIndex) :
    ContainerClick :=
  { container := playerContainerId, stateId, slot, button := quickCraftButton kind stage,
    kind := .quickCraft }

/-- Adds the slots one by one; a refused one changes nothing. -/
def addVisited (stateId : Int32) (kind : UInt8) : List SlotIndex → InventoryM Unit
  | [] => pure ()
  | slot :: rest => do
    let _ ← (attempt (applyClick (playerClick stateId kind 1 slot)) :
      InventoryM (Except InventoryError ClickOutcome))
    addVisited stateId kind rest

/-- Start, an add for each visited slot, finish. -/
def playerQuickCraft (stateId : Int32) (kind : UInt8) (visited : List SlotIndex) :
    InventoryM Unit := do
  let _ ← applyClick (playerClick stateId kind 0 ⟨-999⟩)
  addVisited stateId kind visited
  let _ ← applyClick (playerClick stateId kind 2 ⟨-999⟩)
  pure ()

/-! ### Accepted clicks -/

theorem applyClick_of_stage (click : ContainerClick) {kind : UInt8}
    (hclick : click.kind = .quickCraft) (hkind : quickCraftKind? click.button = some kind)
    (hle : kind ≤ 2) :
    (quickCraftStage click.button = 0 → applyClick click = startQuickCraft click kind) ∧
      (quickCraftStage click.button = 1 → applyClick click = addQuickCraftSlot click kind) ∧
      (quickCraftStage click.button = 2 → applyClick click = endQuickCraft click kind) := by
  have hrange : ∀ {stage : Int8}, stage ≤ 2 → ¬ (kind > 2 ∨ stage > 2) := by
    intro stage hstage h
    exact h.elim (UInt8.not_lt.mpr hle) (Int8.not_lt.mpr hstage)
  simp only [applyClick, if_pos hclick, applyQuickCraft, hkind]
  refine ⟨fun hstage => ?_, fun hstage => ?_, fun hstage => ?_⟩
  · rw [hstage, if_neg (hrange (by decide)), if_pos rfl]
  · rw [hstage, if_neg (hrange (by decide)), if_neg (by decide), if_pos rfl]
  · rw [hstage, if_neg (hrange (by decide)), if_neg (by decide), if_neg (by decide), if_pos rfl]

/-- A button holds its kind and its stage. -/
def Tells (kind : UInt8) (stage : Int8) : Prop :=
  quickCraftKind? (quickCraftButton kind stage) = some kind ∧
    quickCraftStage (quickCraftButton kind stage) = stage

theorem quickCraftButton_tells {kind : UInt8} (hle : kind ≤ 2) :
    Tells kind 0 ∧ Tells kind 1 ∧ Tells kind 2 := by
  unfold Tells
  rcases kind_cases hle with rfl | rfl | rfl <;> decide

section
variable {s : InventoryState} {c : ContainerState} {held : ItemStack} {click : ContainerClick}
  {kind : UInt8} {gesture : QuickCraftGesture}

theorem startQuickCraft_ok (hc : s.container? click.container = some c)
    (hslot : click.slot.val = -999) (hstate : c.stateId = click.stateId)
    (hheld : c.carried = some held) :
    startQuickCraft click kind s =
      .ok ⟨.empty, some held⟩ { s with quickCraft := some (.opened click kind) } := by
  unfold startQuickCraft
  rw [if_neg (not_not.mpr hslot)]
  refine bind_eq_ok.mpr
    ⟨held, s, onContainer_eq_ok.mpr ⟨c, c, hc, ?_, (putContainer_self hc).symm⟩, rfl⟩
  rw [get_bind, if_neg (not_not.mpr hstate), hheld]
  rfl

theorem addQuickCraftSlot_ok {index : Nat} (hc : s.container? click.container = some c)
    (hindex : c.slotIndex? click.slot = some index) (hheld : c.carried = some held)
    (hgesture : s.quickCraft = some gesture) (hmatch : gesture.mismatches click kind = false)
    (hsize : gesture.slots.size < maxContainerSlots) :
    addQuickCraftSlot click kind s = .ok ⟨.empty, c.carried⟩
      (if Eligible c held index then { s with quickCraft := some (gesture.insert click.slot) }
        else s) := by
  have hread : InventoryState.onContainer click.container (slotIndex click.slot) s =
      .ok index s :=
    onContainer_eq_ok.mpr ⟨c, c, hc, slotIndex_eq_ok.mpr ⟨hindex, rfl⟩, (putContainer_self hc).symm⟩
  unfold addQuickCraftSlot
  rw [bind_of_ok hread, get_bind, hgesture]
  dsimp only
  rw [if_neg (Bool.eq_false_iff.mp hmatch)]
  refine bind_eq_ok.mpr ⟨decide (Eligible c held index), s,
    onContainer_eq_ok.mpr ⟨c, c, hc, ?_, (putContainer_self hc).symm⟩, ?_⟩
  · rw [get_bind, hheld]
    exact quickCraftSlotEligible_eq (slotIndex?_lt hindex) held
  · rw [if_neg (Nat.not_le_of_lt hsize), modify_bind]
    simp only [decide_eq_true_iff]
    generalize hnext : (if Eligible c held index then
      { s with quickCraft := some (gesture.insert click.slot) } else s) = next
    have hnow : next.container? click.container = some c := by
      rw [← hnext]
      split <;> exact hc
    have hget : InventoryState.onContainer click.container Mut.get next = .ok c next :=
      onContainer_eq_ok.mpr ⟨c, c, hnow, rfl, (putContainer_self hnow).symm⟩
    rw [bind_of_ok hget]
    rfl

theorem endQuickCraft_ok {c' : ContainerState} (hc : s.container? click.container = some c)
    (hslot : click.slot.val = -999) (hgesture : s.quickCraft = some gesture)
    (hmatch : gesture.mismatches click kind = false) (hrun : finishQuickCraft gesture c = .ok () c') :
    endQuickCraft click kind s = .ok ⟨changedSlots c.slots c'.slots, c'.carried⟩
      ((InventoryState.putContainer click.container c' { s with quickCraft := none }).synchronizedFrom
        click.container) := by
  have hnow : ({ s with quickCraft := none } : InventoryState).container? click.container = some c :=
    (container?_congr rfl rfl).trans hc
  unfold endQuickCraft
  rw [if_neg (not_not.mpr hslot), get_bind, hgesture]
  dsimp only
  rw [set_bind, if_neg (Bool.eq_false_iff.mp hmatch)]
  refine (bind_of_ok (onContainer_eq_ok.mpr ⟨c, c', hnow, ?_, rfl⟩)).trans rfl
  exact clickOutcome_eq_ok.mpr ⟨hrun, rfl⟩

end

/-! ### The gesture on the player container -/

section
variable {c : ContainerState} {held : ItemStack} {stateId : Int32} {kind : UInt8}

/-- What adding the slots made of a gesture. -/
structure Visited (c : ContainerState) (held : ItemStack) (slots : List SlotIndex)
    (gesture gesture' : QuickCraftGesture) : Prop where
  container : gesture'.container = gesture.container
  stateId : gesture'.stateId = gesture.stateId
  kind : gesture'.kind = gesture.kind
  size : gesture'.slots.size ≤ gesture.slots.size + slots.length
  keys : ∀ slot, slot ∈ gesture'.slots.keys ↔
    slot ∈ gesture.slots.keys ∨ slot ∈ slots ∧ Eligible c held slot.place

theorem Visited.refused {gesture : QuickCraftGesture} {slot : SlotIndex}
    (h : ¬ Eligible c held slot.place) : Visited c held [slot] gesture gesture := by
  refine ⟨rfl, rfl, rfl, Nat.le_succ _, fun other => (or_iff_left ?_).symm⟩
  rintro ⟨hmem, heligible⟩
  rw [List.mem_singleton.mp hmem] at heligible
  exact h heligible

theorem Visited.inserted {gesture : QuickCraftGesture} {slot : SlotIndex}
    (h : Eligible c held slot.place) : Visited c held [slot] gesture (gesture.insert slot) := by
  refine ⟨rfl, rfl, rfl, ?_, fun other => ?_⟩
  · change (gesture.slots.insert slot ()).size ≤ _
    rw [OrderedMap.size_insert]
    split
    · exact Nat.le_succ _
    · exact le_rfl
  · change other ∈ (gesture.slots.insert slot ()).keys ↔ _
    rw [OrderedMap.mem_keys_insert, List.mem_singleton]
    constructor
    · rintro (rfl | hmem)
      · exact Or.inr ⟨rfl, h⟩
      · exact Or.inl hmem
    · rintro (hmem | ⟨rfl, -⟩)
      · exact Or.inr hmem
      · exact Or.inl rfl

theorem Visited.cons {slot : SlotIndex} {rest : List SlotIndex} {g g' g'' : QuickCraftGesture}
    (h : Visited c held [slot] g g') (h' : Visited c held rest g' g'') :
    Visited c held (slot :: rest) g g'' where
  container := h'.container.trans h.container
  stateId := h'.stateId.trans h.stateId
  kind := h'.kind.trans h.kind
  size := by
    have hfirst := h.size
    have hrest := h'.size
    rw [List.length_cons]
    simp only [List.length_singleton] at hfirst
    omega
  keys other := by
    rw [h'.keys, h.keys, or_assoc, ← or_and_right, List.mem_singleton, List.mem_cons]

/-- One add, whether it is refused or not. -/
theorem attempt_visits (hle : kind ≤ 2) (hheld : c.carried = some held) {s : InventoryState}
    {gesture : QuickCraftGesture} {slot : SlotIndex} (hplayer : s.player = c)
    (hslot : 0 ≤ slot.val.toInt) (hgesture : s.quickCraft = some gesture)
    (hmatch : gesture.mismatches (playerClick stateId kind 1 slot) kind = false)
    (hsize : gesture.slots.size < maxContainerSlots) :
    ∃ r gesture', (attempt (applyClick (playerClick stateId kind 1 slot)) :
      InventoryM (Except InventoryError ClickOutcome)) s =
        .ok r { s with quickCraft := some gesture' } ∧ Visited c held [slot] gesture gesture' := by
  have hc : s.container? (playerClick stateId kind 1 slot).container = some c :=
    congrArg some hplayer
  have hsame : ({ s with quickCraft := some gesture } : InventoryState) = s := by
    rw [← hgesture]
  obtain ⟨-, ⟨hbutton, hstage⟩, -⟩ := quickCraftButton_tells hle
  have happly := (applyClick_of_stage (playerClick stateId kind 1 slot) rfl hbutton
    hle).2.1 hstage
  rw [happly]
  cases hindex : c.slotIndex? slot with
  | some index =>
    obtain ⟨-, rfl⟩ := slotIndex?_eq_some hindex
    have hrun := addQuickCraftSlot_ok hc hindex hheld hgesture hmatch hsize
    by_cases heligible : Eligible c held slot.place
    · rw [if_pos heligible] at hrun
      refine ⟨.ok ⟨.empty, c.carried⟩, gesture.insert slot, ?_, .inserted heligible⟩
      simp only [attempt, hrun]
      rfl
    · rw [if_neg heligible] at hrun
      refine ⟨.ok ⟨.empty, c.carried⟩, gesture, ?_, .refused heligible⟩
      simp only [attempt, hrun, hsame]
  | none =>
    have hmissing : ¬ Eligible c held slot.place := by
      rintro ⟨-, content, hcontent, -⟩
      have hlt := (List.getElem?_eq_some_iff.mp hcontent).1
      have hfound := (slotIndex_eq_ok.mp (slotIndex_place hslot hlt)).1
      cases hindex.symm.trans hfound
    have hspec := addQuickCraftSlot_spec (s := s) (playerClick stateId kind 1 slot) kind
    cases hrun : addQuickCraftSlot (playerClick stateId kind 1 slot) kind s with
    | ok o s' =>
      obtain ⟨c₁, -, -, index, hc₁, hindex₁, -⟩ := addQuickCraftSlot_eq_ok hrun
      cases hc.symm.trans hc₁
      cases hindex.symm.trans hindex₁
    | err e s' =>
      have hs' : s' = s := err_of_wp hspec hrun
      refine ⟨.error e, gesture, ?_, .refused hmissing⟩
      simp only [attempt, hrun, hsame, hs']
    | panic =>
      unfold Mut.wp at hspec
      rw [hrun] at hspec
      exact hspec.elim

theorem addVisited_visits (hle : kind ≤ 2) (hheld : c.carried = some held) (stateId : Int32)
    (slots : List SlotIndex) :
    ∀ {s : InventoryState} {gesture : QuickCraftGesture}, s.player = c →
      (∀ slot ∈ slots, 0 ≤ slot.val.toInt) → s.quickCraft = some gesture →
      gesture.container = playerContainerId → gesture.stateId = stateId → gesture.kind = kind →
      gesture.slots.size + slots.length ≤ maxContainerSlots →
      ∃ gesture', addVisited stateId kind slots s = .ok () { s with quickCraft := some gesture' } ∧
        Visited c held slots gesture gesture' := by
  induction slots with
  | nil =>
    intro s gesture _ _ hgesture _ _ _ _
    refine ⟨gesture, ?_, rfl, rfl, rfl, le_rfl, by simp⟩
    rw [← hgesture]
    rfl
  | cons slot rest ih =>
    intro s gesture hplayer hnonneg hgesture hcontainer hstate hkind hsize
    obtain ⟨hslot, hrest⟩ := List.forall_mem_cons.mp hnonneg
    rw [List.length_cons] at hsize
    have hmatch : gesture.mismatches (playerClick stateId kind 1 slot) kind = false := by
      simp [QuickCraftGesture.mismatches, playerClick, hcontainer, hstate, hkind]
    obtain ⟨r, gesture', hrun, hvisited⟩ :=
      attempt_visits hle hheld hplayer hslot hgesture hmatch (by omega)
    have hgrowth := hvisited.size
    rw [List.length_singleton] at hgrowth
    obtain ⟨gesture'', hruns, hvisits⟩ := ih (s := { s with quickCraft := some gesture' })
      hplayer hrest rfl (hvisited.container.trans hcontainer) (hvisited.stateId.trans hstate)
      (hvisited.kind.trans hkind) (by omega)
    refine ⟨gesture'', ?_, hvisited.cons hvisits⟩
    rw [addVisited, bind_of_ok hrun]
    exact hruns

/-- The gesture on the player container distributes the cursor over the eligible visited slots. -/
theorem playerQuickCraft_distributes (hle : kind ≤ 2) {s : InventoryState} (hplayer : s.player = c)
    (hheld : c.carried = some held) (hpos : 1 ≤ held.count) {slots : List SlotIndex}
    (hnonneg : ∀ slot ∈ slots, 0 ≤ slot.val.toInt) (hlength : slots.length ≤ maxContainerSlots) :
    ∃ s', playerQuickCraft c.stateId kind slots s = .ok () s' ∧ s'.player =
      distributed kind held
        ((slots.filter fun slot => Eligible c held slot.place).map SlotIndex.place).toFinset c := by
  have hc : s.container? playerContainerId = some c := congrArg some hplayer
  obtain ⟨⟨hopen, hopens⟩, -, hclose, hcloses⟩ := quickCraftButton_tells hle
  have hstart : startQuickCraft (playerClick c.stateId kind 0 ⟨-999⟩) kind s =
      .ok ⟨.empty, some held⟩
        { s with quickCraft := some (.opened (playerClick c.stateId kind 0 ⟨-999⟩) kind) } :=
    startQuickCraft_ok hc rfl rfl hheld
  have happly := (applyClick_of_stage (playerClick c.stateId kind 0 ⟨-999⟩) rfl hopen
    hle).1 hopens
  have hempty : (QuickCraftGesture.opened (playerClick c.stateId kind 0 ⟨-999⟩) kind).slots.size +
      slots.length = slots.length := Nat.zero_add _
  obtain ⟨gesture, hadds, hvisited⟩ := addVisited_visits hle hheld c.stateId slots
    (s := { s with quickCraft := some (.opened (playerClick c.stateId kind 0 ⟨-999⟩) kind) })
    hplayer hnonneg rfl rfl rfl rfl (hempty.le.trans hlength)
  have hkeys : ∀ slot, slot ∈ gesture.slots.keys ↔ slot ∈ slots ∧ Eligible c held slot.place := by
    intro slot
    rw [hvisited.keys]
    exact or_iff_right List.not_mem_nil
  have hkind : gesture.kind = kind := hvisited.kind
  have hsize : gesture.slots.size ≤ slots.length := hvisited.size.trans hempty.le
  have hslots : ∀ slot ∈ gesture.slots.keys, 0 ≤ slot.val.toInt ∧ Eligible c held slot.place := by
    intro slot hslot
    obtain ⟨hmem, heligible⟩ := (hkeys slot).mp hslot
    exact ⟨hnonneg slot hmem, heligible⟩
  have hfinish := finishQuickCraft_eq (hkind.symm ▸ hle) hheld hpos
    (Nat.lt_of_le_of_lt (hsize.trans hlength) (by decide)) hslots
  have hset : (gesture.slots.keys.map SlotIndex.place).toFinset =
      ((slots.filter fun slot => Eligible c held slot.place).map SlotIndex.place).toFinset := by
    ext i
    simp only [List.mem_toFinset, List.mem_map, List.mem_filter, decide_eq_true_eq, hkeys]
  rw [hset, hkind] at hfinish
  have hmatch : gesture.mismatches (playerClick c.stateId kind 2 ⟨-999⟩) kind = false := by
    have hcontainer : gesture.container = playerContainerId := hvisited.container
    have hstate : gesture.stateId = c.stateId := hvisited.stateId
    simp [QuickCraftGesture.mismatches, playerClick, hcontainer, hstate, hkind]
  have hc' : ({ s with quickCraft := some gesture } : InventoryState).container?
      (playerClick c.stateId kind 2 ⟨-999⟩).container = some c := hc
  have hend := endQuickCraft_ok hc' rfl rfl hmatch hfinish
  have happly' := (applyClick_of_stage (playerClick c.stateId kind 2 ⟨-999⟩) rfl hclose
    hle).2.2 hcloses
  have hrun : playerQuickCraft c.stateId kind slots s = .ok ()
      ((InventoryState.putContainer playerContainerId
        (distributed kind held
          ((slots.filter fun slot => Eligible c held slot.place).map SlotIndex.place).toFinset c)
        { s with quickCraft := none }).synchronizedFrom playerContainerId) := by
    rw [playerQuickCraft, happly, happly', bind_of_ok hstart, bind_of_ok hadds, bind_of_ok hend]
    rfl
  exact ⟨_, hrun, rfl⟩

end

/-! ### The slots of the creative screen -/

section
variable {c : ContainerState} {held : ItemStack} {slot : SlotIndex} {visited : List SlotIndex}

theorem creativeSlot_eq_some {e : SlotIndex × Option ItemStack}
    (h : creativeSlot c held slot = some e) :
    e.1 = slot ∧ c.slots[slot.place]? = some e.2 ∧ ∀ stack ∈ e.2,
      stack.stackableWith held = true ∧ stack.count < stack.maxStackSize := by
  unfold creativeSlot at h
  split at h
  · cases h
  · split at h
    · cases h
    · rename_i existing hexisting
      split at h
      · rename_i hall
        cases h
        refine ⟨rfl, hexisting, ?_⟩
        rintro stack ⟨⟩
        simpa using hall
      · cases h

theorem creativeSlot_of_fits (hnonneg : 0 ≤ slot.val.toInt) (h : Fits c held slot.place) :
    ∃ existing, creativeSlot c held slot = some (slot, existing) := by
  obtain ⟨existing, hexisting, hstack⟩ := h
  refine ⟨existing, ?_⟩
  unfold SlotIndex.place at hexisting
  unfold creativeSlot
  rw [if_neg (not_lt.mpr hnonneg), hexisting]
  refine if_pos ?_
  cases existing with
  | none => rfl
  | some stack => simpa using hstack stack rfl

theorem mem_creativeEligible {e : SlotIndex × Option ItemStack}
    (h : e ∈ creativeEligible c held visited) :
    e.1 ∈ visited ∧ c.slots[e.1.place]? = some e.2 ∧ ∀ stack ∈ e.2,
      stack.stackableWith held = true ∧ stack.count < stack.maxStackSize := by
  obtain ⟨slot, hslot, hsome⟩ := List.mem_filterMap.mp h
  obtain ⟨rfl, hcontent⟩ := creativeSlot_eq_some hsome
  exact ⟨hslot, hcontent⟩

/-- The slot of the crafting result aside, a player slot is eligible when its content fits. -/
theorem eligible_iff_fits (hmenu : c.menu = .playerInventory) (hpos : 1 ≤ slot.val.toInt) :
    Eligible c held slot.place ↔ Fits c held slot.place := by
  have haccepts : quickCraftAccepts c.menu slot.place = true := by
    have hplace : slot.place ≠ 0 := by
      unfold SlotIndex.place
      omega
    rw [hmenu]
    exact decide_eq_true hplace
  exact and_iff_right haccepts

/-- The same slots, in the same order, as those the gesture collects. -/
theorem fst_creativeEligible (held : ItemStack) (hmenu : c.menu = .playerInventory)
    (hpos : ∀ slot ∈ visited, 1 ≤ slot.val.toInt) :
    (creativeEligible c held visited).map Prod.fst =
      visited.filter fun slot => Eligible c held slot.place := by
  induction visited with
  | nil => rfl
  | cons slot rest ih =>
    obtain ⟨hslot, hrest⟩ := List.forall_mem_cons.mp hpos
    have hiff : Eligible c held slot.place ↔ Fits c held slot.place := eligible_iff_fits hmenu hslot
    unfold creativeEligible at ih ⊢
    by_cases h : Eligible c held slot.place
    · obtain ⟨existing, hsome⟩ := creativeSlot_of_fits (by omega) (hiff.mp h)
      rw [List.filterMap_cons_some hsome, List.map_cons, ih hrest]
      exact (List.filter_cons_of_pos (p := fun slot : SlotIndex => decide (Eligible c held slot.place))
        (decide_eq_true h)).symm
    · have hnone : creativeSlot c held slot = none := by
        cases hsome : creativeSlot c held slot with
        | none => rfl
        | some e =>
          obtain ⟨-, hcontent, hstack⟩ := creativeSlot_eq_some hsome
          exact absurd (hiff.mpr ⟨e.2, hcontent, hstack⟩) h
      rw [List.filterMap_cons_none hnone, ih hrest]
      exact (List.filter_cons_of_neg (p := fun slot : SlotIndex => decide (Eligible c held slot.place))
        (by simpa using h)).symm

end

/-! ### Its distribution -/

section
variable {held : ItemStack} {wish : Nat → Nat} {perSlot : Nat}

def places (eligible : SlotChanges) : List Nat := eligible.map fun e => e.1.place

/-- What the eligible slots hold in the container, and that it takes more of the source. -/
def Holds (c : ContainerState) (held : ItemStack) (eligible : SlotChanges) : Prop :=
  ∀ e ∈ eligible, c.slots[e.1.place]? = some e.2 ∧ ∀ stack ∈ e.2,
    stack.stackableWith held = true ∧ stack.count < stack.maxStackSize

theorem room_eq (held : ItemStack) (existing : Option ItemStack) :
    (existing.elim held.maxStackSize fun stack => stack.maxStackSize) -
      (existing.elim 0 fun stack => stack.count) = room held existing := by
  cases existing <;> rfl

theorem grown_eq {added : Nat} (h : added ≠ 0) (existing : Option ItemStack) :
    grown held added existing = some { existing.getD held with
      count := (existing.elim 0 fun stack => stack.count) + added } := by
  cases existing with
  | none =>
    rw [Option.elim_none, Nat.zero_add]
    exact if_neg h
  | some stack => rfl

/-- The loop deals the source along the slots, as the loop of `finish_quick_craft` does. -/
theorem placeAll_eq (eligible : SlotChanges) : ∀ {c : ContainerState} (remaining : Nat),
    Holds c held eligible → (places eligible).Nodup →
    (∀ e ∈ eligible, wish e.1.place = min perSlot (room held e.2)) →
    writeChanges (placeAll held perSlot eligible remaining).1 c.slots =
        (c.receive held (dealt wish (places eligible) remaining)).slots ∧
      (placeAll held perSlot eligible remaining).2 =
        remaining - ((places eligible).map wish).sum := by
  induction eligible with
  | nil =>
    intro c remaining _ _ _
    have hreceive : c.receive held (dealt wish (places []) remaining) = c :=
      receive_zero fun i => rfl
    exact ⟨by rw [hreceive]; rfl, rfl⟩
  | cons first rest ih =>
    obtain ⟨slot, existing⟩ := first
    intro c remaining hholds hnodup hwish
    obtain ⟨⟨hcontent, hstack⟩, hholds'⟩ := List.forall_mem_cons.mp hholds
    have hplaces : places ((slot, existing) :: rest) = slot.place :: places rest := rfl
    rw [hplaces] at hnodup
    obtain ⟨hfresh, hnodup'⟩ := List.nodup_cons.mp hnodup
    obtain ⟨hfirst, hwish'⟩ := List.forall_mem_cons.mp hwish
    simp only at hcontent hstack hfirst
    rw [hplaces, List.map_cons, List.sum_cons, placeAll]
    split
    next hzero =>
      rw [hzero, receive_zero fun i => dealt_zero, Nat.zero_sub]
      exact ⟨rfl, rfl⟩
    next hsome =>
      simp only [room_eq, ← hfirst]
      split
      next hadded =>
        -- a full slot, for which nothing is dealt
        have hnone : wish slot.place = 0 := by
          omega
        obtain ⟨hwrite, hleft⟩ := ih remaining hholds' hnodup' hwish'
        have hdealt : dealt wish (slot.place :: places rest) remaining =
            dealt wish (places rest) remaining := by
          rw [dealt_cons, hnone, Nat.zero_min, Nat.sub_zero]
          exact Function.update_eq_self_iff.mpr (dealt_of_not_mem hfresh remaining).symm
        rw [hdealt, hnone, Nat.zero_add]
        exact ⟨hwrite, hleft⟩
      next hadded =>
        have hset : Holds (c.withSlots (c.slots.set slot.place
            (grown held (min (wish slot.place) remaining) existing))) held rest := by
          intro e he
          have hne : slot.place ≠ e.1.place := fun heq =>
            hfresh (heq ▸ List.mem_map_of_mem (f := fun e => e.1.place) he)
          exact ⟨(List.getElem?_set_ne hne).trans (hholds' e he).1, (hholds' e he).2⟩
        obtain ⟨hwrite, hleft⟩ := ih (remaining - wish slot.place) hset hnodup' hwish'
        have hsub : remaining - min (wish slot.place) remaining = remaining - wish slot.place := by
          omega
        rw [hsub]
        refine ⟨?_, ?_⟩
        · rw [receive_set hcontent (dealt_of_not_mem hfresh _), ← dealt_cons] at hwrite
          rw [← hwrite, ← grown_eq hadded]
          rfl
        · rw [hleft, Nat.sub_sub]

theorem grown_room {held : ItemStack} {existing : Option ItemStack}
    (h : ∀ stack ∈ existing, stack.stackableWith held = true ∧ stack.count < stack.maxStackSize) :
    grown held (room held existing) existing = some { held with count := held.maxStackSize } := by
  cases existing with
  | none => exact if_neg (Nat.ne_of_gt held.one_le_maxStackSize)
  | some stack =>
    obtain ⟨hstackable, hless⟩ := h stack rfl
    have hkey := ItemStack.stackableWith_iff.mp hstackable
    have hmax := ItemStack.maxStackSize_eq_of_key hkey
    have hcount : stack.count + (stack.maxStackSize - stack.count) = held.maxStackSize := by
      omega
    cases held
    cases stack
    cases hkey
    simp only [grown, room, hcount]

/-- A full stack in every eligible slot is what a clone gesture leaves there. -/
theorem writeMaximum_eq {c : ContainerState} {eligible : SlotChanges}
    (hholds : Holds c held eligible) (hnodup : (places eligible).Nodup) :
    writeChanges (eligible.map fun e => (e.1, some { held with count := held.maxStackSize }))
        c.slots =
      (c.receive held (received 2 held (places eligible).toFinset c)).slots := by
  apply List.ext_getElem?
  intro i
  rw [getElem?_receive]
  unfold received
  by_cases hi : i ∈ places eligible
  · rw [if_neg (not_not.mpr (List.mem_toFinset.mpr hi)), if_neg (by decide), if_neg (by decide)]
    obtain ⟨e, he, rfl⟩ := List.mem_map.mp hi
    obtain ⟨hcontent, hstack⟩ := hholds e he
    have hdistinct : (eligible.map fun e =>
        (e.1, some { held with count := held.maxStackSize })).Pairwise
          fun a b => a.1.place ≠ b.1.place :=
      List.pairwise_map.mpr (List.pairwise_map.mp hnodup)
    rw [capacity_eq hcontent, hcontent, Option.map_some, grown_room hstack]
    exact getElem?_writeChanges_of_mem (e := (e.1, some { held with count := held.maxStackSize }))
      hdistinct (List.mem_map_of_mem he) c.slots (List.getElem?_eq_some_iff.mp hcontent).1
  · rw [if_pos (List.mem_toFinset.not.mpr hi)]
    have hne : ∀ e ∈ eligible.map fun e =>
        (e.1, some { held with count := held.maxStackSize }), e.1.place ≠ i := by
      intro change hchange heq
      obtain ⟨e, he, rfl⟩ := List.mem_map.mp hchange
      exact hi (heq ▸ List.mem_map_of_mem (f := fun e => e.1.place) he)
    rw [getElem?_writeChanges_of_ne hne, funext (grown_zero held), Option.map_id']

theorem placeAll_zero (eligible : SlotChanges) (remaining : Nat) :
    placeAll held 0 eligible remaining = ([], remaining) := by
  induction eligible with
  | nil => rfl
  | cons first rest ih =>
    rw [placeAll]
    split
    · rfl
    · simp only [Nat.zero_min]
      exact (if_pos trivial).trans ih

end

section
variable {state : InventoryState} {gesture : CreativeQuickCraftGesture} {held : ItemStack}
  {c : ContainerState} {eligible : SlotChanges}

theorem PointerButton.kind_le (button : PointerButton) : button.kind ≤ 2 := by
  cases button <;> decide

/-- What each slot is offered, as the creative screen computes it. -/
theorem portion_kind (button : PointerButton) (hbutton : button ≠ .middle) (n : Nat) :
    (if button = .secondary then 1 else held.count / n) = portion button.kind held n := by
  cases button with
  | primary => rfl
  | secondary => rfl
  | middle => exact absurd rfl hbutton

theorem applyCreativeQuickCraft_distributes (hslots : c.slots = state.player.slots)
    (hcount : 1 ≤ held.count)
    (heligible : creativeEligible state.player held gesture.visited.keys = eligible)
    (hholds : Holds c held eligible) (hsorted : (places eligible).Pairwise (· < ·))
    (hsmall : eligible.length < 2 ^ 32) :
    writeChanges (applyCreativeQuickCraft state gesture (some held) []).2 state.player.slots =
        (distributed gesture.button.kind held (places eligible).toFinset c).slots ∧
      (applyCreativeQuickCraft state gesture (some held) []).1 =
        (distributed gesture.button.kind held (places eligible).toFinset c).carried := by
  have hnodup : (places eligible).Nodup := hsorted.imp fun hlt => hlt.ne
  have hlength : (places eligible).length = eligible.length := List.length_map _
  have hfits : ∀ i ∈ places eligible, Fits c held i := by
    intro i hi
    obtain ⟨e, he, rfl⟩ := List.mem_map.mp hi
    exact ⟨e.2, hholds e he⟩
  simp only [applyCreativeQuickCraft, heligible, if_pos hsmall, List.nil_append, ← hslots]
  split
  · rename_i hempty
    rw [List.isEmpty_iff.mp hempty]
    have hnone := distributed_empty gesture.button.kind c hcount
    exact ⟨(congrArg ContainerState.slots hnone).symm, (congrArg ContainerState.carried hnone).symm⟩
  · split
    · rename_i hmiddle
      rw [hmiddle]
      exact ⟨writeMaximum_eq hholds hnodup, rfl⟩
    · rename_i hbutton
      have hle := gesture.button.kind_le
      have hkind : gesture.button.kind ≠ 2 := by
        intro heq
        cases hb : gesture.button <;> rw [hb] at heq hbutton
        · exact absurd heq (by decide)
        · exact absurd heq (by decide)
        · exact hbutton rfl
      have hloop : writeChanges (placeAll held (portion gesture.button.kind held eligible.length)
            eligible held.count).1 c.slots =
          (c.receive held (dealt (wished gesture.button.kind held c (places eligible).length)
            (places eligible) held.count)).slots ∧
          (placeAll held (portion gesture.button.kind held eligible.length) eligible held.count).2 =
            held.count - demand gesture.button.kind held c (places eligible) := by
        refine placeAll_eq eligible held.count hholds hnodup fun e he => ?_
        rw [wished, capacity_eq (hholds e he).1, hlength]
      have hreceived := funext (dealt_eq_received hle hsorted hfits)
      rw [budget, if_neg hkind] at hreceived
      have hleft : held.count - demand gesture.button.kind held c (places eligible) =
          held.count - ∑ i ∈ (places eligible).toFinset,
            received gesture.button.kind held (places eligible).toFinset c i := by
        rw [sum_received hle hsorted hfits hkind]
        omega
      have hcarried : (distributed gesture.button.kind held (places eligible).toFinset c).carried =
          held.withCount? (held.count - demand gesture.button.kind held c (places eligible)) := by
        rw [hleft]
        exact if_neg hkind
      rw [hreceived] at hloop
      rw [portion_kind gesture.button hbutton, hcarried, ← hloop.2]
      split
      · rename_i hzero
        rw [hzero, placeAll_zero] at hloop ⊢
        exact ⟨hloop.1, (if_neg (Nat.ne_of_gt hcount)).symm⟩
      · exact ⟨hloop.1, rfl⟩

/-- The changes of the creative screen, written into the player slots, and the stack it leaves at
the cursor are what the gesture makes of the player container. -/
theorem applyCreativeQuickCraft_agrees (state : InventoryState)
    (gesture : CreativeQuickCraftGesture) (held : ItemStack)
    (hmenu : state.player.menu = .playerInventory)
    (hcounts : (state.player.withCarried (some held)).WellCounted)
    (hvisited : ∀ slot ∈ gesture.visited.keys, 1 ≤ slot.val.toInt ∧ slot.val.toInt ≤ 45) :
    ∃ after : InventoryState,
      playerQuickCraft state.player.stateId gesture.button.kind gesture.visited.keys
          { state with player := state.player.withCarried (some held) } = .ok () after ∧
        after.player.slots =
          writeChanges (applyCreativeQuickCraft state gesture (some held) []).2 state.player.slots ∧
        after.player.carried = (applyCreativeQuickCraft state gesture (some held) []).1 := by
  generalize hc : state.player.withCarried (some held) = c at hcounts
  have hslots : c.slots = state.player.slots := by
    rw [← hc]
    rfl
  have hmenu' : c.menu = .playerInventory := by
    rw [← hc]
    exact hmenu
  have hcount : 1 ≤ held.count := (hcounts.2 held (hc ▸ rfl)).1
  have hpos : ∀ slot ∈ gesture.visited.keys, 1 ≤ slot.val.toInt := fun slot h => (hvisited slot h).1
  have hsame : creativeEligible state.player held gesture.visited.keys =
      creativeEligible c held gesture.visited.keys := by
    rw [← hc]
    rfl
  have hfst := fst_creativeEligible held hmenu' hpos
  have hplaces : places (creativeEligible c held gesture.visited.keys) =
      (gesture.visited.keys.filter fun slot => Eligible c held slot.place).map SlotIndex.place := by
    rw [← hfst, List.map_map]
    rfl
  have hsorted : (gesture.visited.keys.map SlotIndex.place).Pairwise (· < ·) := by
    have hkeys : gesture.visited.keys.Pairwise (· < ·) :=
      List.pairwise_map.mpr gesture.visited.ascending
    refine List.pairwise_map.mpr (hkeys.imp_of_mem ?_)
    intro a b ha hb hlt
    have hval := Int16.lt_iff_toInt_lt.mp hlt
    have hfirst := hpos a ha
    unfold SlotIndex.place
    omega
  have hlength : gesture.visited.keys.length ≤ maxContainerSlots := by
    have hsub : gesture.visited.keys.map SlotIndex.place ⊆ List.range 46 := by
      intro i hi
      obtain ⟨slot, hslot, rfl⟩ := List.mem_map.mp hi
      obtain ⟨hlow, hhigh⟩ := hvisited slot hslot
      unfold SlotIndex.place
      exact List.mem_range.mpr (by omega)
    have hnodup := hsorted.imp fun hlt => hlt.ne
    have hle := (List.subperm_of_subset hnodup hsub).length_le
    rw [List.length_map, List.length_range] at hle
    exact hle.trans (by decide)
  have hsmall : (creativeEligible c held gesture.visited.keys).length < 2 ^ 32 :=
    Nat.lt_of_le_of_lt ((List.length_filterMap_le _ _).trans hlength) (by decide)
  obtain ⟨after, hrun, hafter⟩ := playerQuickCraft_distributes gesture.button.kind_le
    (s := { state with player := c }) rfl (hc ▸ rfl) hcount
    (fun slot hslot => Int.le_trans (by decide) (hpos slot hslot)) hlength
  obtain ⟨hchanges, hcarried⟩ := applyCreativeQuickCraft_distributes hslots hcount hsame
    (fun e he => (mem_creativeEligible he).2)
    (hplaces ▸ hsorted.sublist (List.filter_sublist.map SlotIndex.place)) hsmall
  rw [hplaces, ← hafter] at hchanges hcarried
  have hstate : c.stateId = state.player.stateId := by
    rw [← hc]
    rfl
  exact ⟨after, hstate ▸ hrun, hchanges.symm, hcarried.symm⟩

/-- Ten items over two empty slots and one that is nearly full. -/
def nearlyFull : InventoryState :=
  { InventoryState.new with
    player := InventoryState.new.player.withSlots
      (List.replicate 11 none ++ [some (stone 63)] ++ List.replicate 34 none) }

def threeSlots : CreativeQuickCraftGesture := ⟨.primary, .ofList [(⟨9⟩, ()), (⟨11⟩, ()), (⟨20⟩, ())]⟩

theorem applyCreativeQuickCraft_agrees_nearlyFull :
    ∃ after : InventoryState,
      playerQuickCraft nearlyFull.player.stateId threeSlots.button.kind threeSlots.visited.keys
          { nearlyFull with player := nearlyFull.player.withCarried (some (stone 10)) } =
        .ok () after ∧
        after.player.slots =
          writeChanges (applyCreativeQuickCraft nearlyFull threeSlots (some (stone 10)) []).2
            nearlyFull.player.slots ∧
        after.player.carried =
          (applyCreativeQuickCraft nearlyFull threeSlots (some (stone 10)) []).1 :=
  applyCreativeQuickCraft_agrees nearlyFull threeSlots (stone 10) rfl (by decide +kernel)
    (by decide +kernel)

end

end Cubic.Inventory
