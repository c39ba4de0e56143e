import Cubic.Inventory.Conservation
import Cubic.Inventory.ClickFrame
import Cubic.Inventory.ClickSteps

/-!
# What a click reports

The outcome of an accepted click lists the slots that differ, and nothing else, so the
container it was made on can be brought up to date from the outcome alone.
-/

namespace Cubic.Inventory

set_option autoImplicit false

variable {before after : List (Option ItemStack)}

/-- The place a slot index names. -/
def SlotIndex.place (slot : SlotIndex) : Nat := slot.val.toInt.toNat

theorem toInt_ofNat {i : Nat} (h : i < 2 ^ 15) : (Int16.ofNat i).toInt = i :=
  Int16.toInt_ofNat_of_lt h

theorem place_ofNat {i : Nat} (h : i < 2 ^ 15) : (⟨Int16.ofNat i⟩ : SlotIndex).place = i := by
  unfold SlotIndex.place
  rw [toInt_ofNat h]
  exact Int.toNat_natCast i

theorem eq_ofNat_place {slot : SlotIndex} (h : 0 ≤ slot.val.toInt) :
    slot = ⟨Int16.ofNat slot.place⟩ := by
  have hlt := slot.val.toInt_lt
  have hplace : (slot.place : Int) = slot.val.toInt := Int.toNat_of_nonneg h
  have hval : slot.val = Int16.ofNat slot.place := by
    apply Int16.toInt_inj.mp
    rw [toInt_ofNat (by omega), hplace]
  cases slot
  exact congrArg SlotIndex.mk hval

theorem place_lt (slot : SlotIndex) : slot.place < 2 ^ 15 := by
  have hlt := slot.val.toInt_lt
  unfold SlotIndex.place
  omega

/-! ### The list of changes -/

def changes (before after : List (Option ItemStack)) : List (SlotIndex × Option ItemStack) :=
  (before.zip after).zipIdx.filterMap fun ((old, new), index) =>
    if old ≠ new ∧ index < 2 ^ 15 then some (⟨Int16.ofNat index⟩, new) else none

theorem mem_changes {slot : SlotIndex} {new : Option ItemStack} :
    (slot, new) ∈ changes before after ↔ 0 ≤ slot.val.toInt ∧
      ∃ old, before[slot.place]? = some old ∧ after[slot.place]? = some new ∧ old ≠ new := by
  unfold changes
  rw [List.mem_filterMap]
  constructor
  · rintro ⟨⟨⟨old, new'⟩, index⟩, hmem, hif⟩
    dsimp only at hif
    split at hif
    · rename_i hchange
      cases hif
      have hzip := List.getElem?_zip_eq_some.mp (List.mem_zipIdx_iff_getElem?.mp hmem)
      rw [place_ofNat hchange.2, toInt_ofNat hchange.2]
      exact ⟨Int.natCast_nonneg index, old, hzip.1, hzip.2, hchange.1⟩
    · cases hif
  · rintro ⟨hnonneg, old, hold, hnew, hne⟩
    refine ⟨((old, new), slot.place), ?_, ?_⟩
    · exact List.mem_zipIdx_iff_getElem?.mpr (List.getElem?_zip_eq_some.mpr ⟨hold, hnew⟩)
    · dsimp only
      rw [if_pos ⟨hne, place_lt slot⟩, ← eq_ofNat_place hnonneg]

theorem ascending_changes : Entries.Ascending (changes before after) := by
  have hindex : (before.zip after).zipIdx.Pairwise fun a b => a.2 < b.2 := by
    rw [← List.pairwise_map (f := Prod.snd), List.zipIdx_map_snd]
    exact List.pairwise_lt_range'
  refine List.pairwise_filterMap.mpr (hindex.imp ?_)
  rintro ⟨⟨old, new⟩, i⟩ ⟨⟨old', new'⟩, j⟩ hij a ha b hb
  dsimp only at hij ha hb
  split at ha
  · split at hb
    · rename_i hi hj
      cases ha
      cases hb
      refine Int16.lt_iff_toInt_lt.mpr ?_
      rw [toInt_ofNat hi.2, toInt_ofNat hj.2]
      exact Int.ofNat_lt.mpr hij
    · cases hb
  · cases ha

theorem changedSlots_entries : (changedSlots before after).entries = changes before after :=
  OrderedMap.entries_ofList ascending_changes

theorem lookup_changedSlots {slot : SlotIndex} {new : Option ItemStack} :
    (changedSlots before after).lookup slot = some new ↔ 0 ≤ slot.val.toInt ∧
      ∃ old, before[slot.place]? = some old ∧ after[slot.place]? = some new ∧ old ≠ new := by
  rw [← OrderedMap.mem_entries_iff, changedSlots_entries, mem_changes]

/-! ### Writing the changes -/

def writeChanges (entries : List (SlotIndex × Option ItemStack))
    (slots : List (Option ItemStack)) : List (Option ItemStack) :=
  entries.foldl (fun slots e => slots.set e.1.place e.2) slots

theorem length_writeChanges (entries : List (SlotIndex × Option ItemStack)) :
    ∀ slots, (writeChanges entries slots).length = slots.length := by
  induction entries with
  | nil => exact fun _ => rfl
  | cons e rest ih =>
    intro slots
    exact (ih (slots.set e.1.place e.2)).trans List.length_set

theorem getElem?_writeChanges_of_ne {entries : List (SlotIndex × Option ItemStack)} {i : Nat}
    (h : ∀ e ∈ entries, e.1.place ≠ i) :
    ∀ slots, (writeChanges entries slots)[i]? = slots[i]? := by
  induction entries with
  | nil => exact fun _ => rfl
  | cons e rest ih =>
    intro slots
    obtain ⟨he, hrest⟩ := List.forall_mem_cons.mp h
    exact (ih hrest (slots.set e.1.place e.2)).trans (List.getElem?_set_ne he)

theorem getElem?_writeChanges_of_mem {entries : List (SlotIndex × Option ItemStack)}
    (hdistinct : entries.Pairwise fun a b => a.1.place ≠ b.1.place)
    {e : SlotIndex × Option ItemStack} (he : e ∈ entries) :
    ∀ slots, e.1.place < slots.length →
      (writeChanges entries slots)[e.1.place]? = some e.2 := by
  induction entries with
  | nil => exact absurd he List.not_mem_nil
  | cons d rest ih =>
    intro slots hlt
    obtain ⟨hd, hrest⟩ := List.pairwise_cons.mp hdistinct
    rcases List.mem_cons.mp he with heq | hmem
    · subst heq
      have hkept := getElem?_writeChanges_of_ne (i := e.1.place)
        (fun x hx => (hd x hx).symm) (slots.set e.1.place e.2)
      exact hkept.trans (List.getElem?_set_self hlt)
    · exact ih hrest hmem (slots.set d.1.place d.2) (by simpa using hlt)

theorem places_distinct :
    (changes before after).Pairwise fun a b => a.1.place ≠ b.1.place := by
  have hnonneg : ∀ e ∈ changes before after, 0 ≤ e.1.val.toInt := by
    rintro ⟨slot, new⟩ he
    exact (mem_changes.mp he).1
  refine ascending_changes.imp_of_mem ?_
  intro a b ha hb hlt heq
  have heq' : a.1 = b.1 := by
    rw [eq_ofNat_place (hnonneg a ha), eq_ofNat_place (hnonneg b hb), heq]
  exact hlt.ne heq'

/-- Over the old slots the changes give the new ones, as far as an index reaches. -/
theorem writeChanges_changes (hlen : after.length = before.length) :
    writeChanges (changes before after) before =
      after.take (2 ^ 15) ++ before.drop (2 ^ 15) := by
  apply List.ext_getElem?
  intro i
  by_cases hi : i < before.length
  · obtain ⟨old, hold⟩ : ∃ o, before[i]? = some o := ⟨_, List.getElem?_eq_getElem hi⟩
    obtain ⟨new, hnew⟩ : ∃ o, after[i]? = some o := ⟨_, List.getElem?_eq_getElem (hlen ▸ hi)⟩
    by_cases hreach : i < 2 ^ 15
    · have hright : (after.take (2 ^ 15) ++ before.drop (2 ^ 15))[i]? = after[i]? := by
        rw [List.getElem?_append_left (by rw [List.length_take]; omega),
          List.getElem?_take_of_lt hreach]
      rw [hright]
      by_cases hne : before[i]? = after[i]?
      · rw [← hne]
        refine getElem?_writeChanges_of_ne ?_ before
        rintro ⟨slot, new⟩ he rfl
        obtain ⟨-, old, hb, ha, hdiff⟩ := mem_changes.mp he
        rw [hb, ha] at hne
        exact hdiff (Option.some.inj hne)
      · have hplace := place_ofNat hreach
        have hmem : (⟨Int16.ofNat i⟩, new) ∈ changes before after := by
          refine mem_changes.mpr ⟨?_, old, ?_, ?_, ?_⟩
          · rw [toInt_ofNat hreach]
            exact Int.natCast_nonneg i
          · rw [hplace, hold]
          · rw [hplace, hnew]
          · rw [hold, hnew] at hne
            exact fun h => hne (congrArg some h)
        have hwritten := getElem?_writeChanges_of_mem places_distinct hmem before
          (by rw [hplace]; exact hi)
        rw [hplace] at hwritten
        rw [hwritten, hnew]
    · have hright : (after.take (2 ^ 15) ++ before.drop (2 ^ 15))[i]? = before[i]? := by
        rw [List.getElem?_append_right (by rw [List.length_take]; omega), List.getElem?_drop]
        congr 1
        rw [List.length_take]
        omega
      rw [hright]
      refine getElem?_writeChanges_of_ne ?_ before
      intro e he hplace
      have := place_lt e.1
      omega
  · rw [List.getElem?_eq_none (by rw [length_writeChanges]; omega)]
    exact (List.getElem?_eq_none (by simp; omega)).symm

/-! ### The outcome of a click -/

/-- The changed slots and the cursor of an outcome, written over a container. -/
def ClickOutcome.writtenTo (outcome : ClickOutcome) (c : ContainerState) : ContainerState :=
  (c.withSlots (writeChanges outcome.changedSlots.entries c.slots)).withCarried outcome.carried

/-- What an outcome says of the clicked container before and after the click. -/
structure ClickOutcome.Reports (outcome : ClickOutcome) (before after : ContainerState) :
    Prop where
  length : after.slots.length = before.slots.length
  slots : ∀ slot new, outcome.changedSlots.lookup slot = some new ↔ 0 ≤ slot.val.toInt ∧
    ∃ old, before.slots[slot.place]? = some old ∧ after.slots[slot.place]? = some new ∧ old ≠ new
  carried : outcome.carried = after.carried
  written : outcome.writtenTo before =
    after.withSlots (after.slots.take (2 ^ 15) ++ before.slots.drop (2 ^ 15))

section Reports
variable {m : ContainerM Unit} {c c' : ContainerState}

theorem eq_of_frame (h : c'.frame = c.frame) :
    (c.withSlots c'.slots).withCarried c'.carried = c' := by
  cases c
  cases c'
  simp only [ContainerState.frame, ContainerState.withSlots, ContainerState.withCarried,
    ContainerState.mk.injEq] at h ⊢
  simp [h]

theorem reports_of_outline (h : c'.outline = c.outline) :
    (⟨changedSlots c.slots c'.slots, c'.carried⟩ : ClickOutcome).Reports c c' := by
  obtain ⟨hframe, hlen⟩ := Prod.ext_iff.mp h
  refine ⟨hlen, fun slot new => lookup_changedSlots, rfl, ?_⟩
  unfold ClickOutcome.writtenTo
  rw [changedSlots_entries, writeChanges_changes hlen]
  conv_rhs => rw [← eq_of_frame hframe]
  rfl

theorem reports_unchanged : (⟨.empty, c.carried⟩ : ClickOutcome).Reports c c := by
  refine ⟨rfl, fun slot new => ?_, rfl, ?_⟩
  · rw [OrderedMap.lookup_empty]
    refine iff_of_false nofun ?_
    rintro ⟨-, old, hold, hnew, hne⟩
    exact hne (Option.some.inj (hold.symm.trans hnew))
  · unfold ClickOutcome.writtenTo
    rw [List.take_append_drop]
    exact c.withCarried_self c.carried rfl

/-- A container no index overshoots is written as a whole. -/
theorem ClickOutcome.Reports.eq {outcome : ClickOutcome} (h : outcome.Reports c c')
    (hlen : c.slots.length ≤ 2 ^ 15) : outcome.writtenTo c = c' := by
  rw [h.written, List.drop_eq_nil_of_le hlen, List.append_nil, List.take_of_length_le (by rw [h.length]; exact hlen)]
  rfl

/-- The run of an operation that changes nothing but stacks is reported as it was. -/
theorem Ran.reports {id : ContainerId} {s s' : InventoryState} {outcome : ClickOutcome}
    {R : ContainerState → ContainerState → Prop} (h : Ran m id s s' outcome c c')
    (hm : Mut.Steady ContainerState.outline R m) :
    s'.container? id = some c' ∧ outcome.Reports c c' := by
  have houtline : c'.outline = c.outline := Mut.ok_of_wp (hm c) h.run
  have hid : c'.id = c.id := congrArg (fun x : ContainerState × Nat => x.1.id) houtline
  exact ⟨h.container hid, h.outcome ▸ reports_of_outline houtline⟩

end Reports

theorem applyClick_reports {click : ContainerClick} {s s' : InventoryState}
    {outcome : ClickOutcome} (h : applyClick click s = .ok outcome s') :
    ∃ c c', s.container? click.container = some c ∧ s'.container? click.container = some c' ∧
      outcome.Reports c c' ∧ (c.slots.length ≤ 2 ^ 15 → outcome.writtenTo c = c') := by
  suffices hreports : ∃ c c', s.container? click.container = some c ∧
      s'.container? click.container = some c' ∧ outcome.Reports c c' by
    obtain ⟨c, c', hc, hc', hr⟩ := hreports
    exact ⟨c, c', hc, hc', hr, hr.eq⟩
  by_cases hkind : click.kind = .quickCraft
  · obtain ⟨kind, -, -, hstage⟩ := applyClick_quickCraft hkind h
    rcases hstage with ⟨-, hstart⟩ | ⟨-, hadd⟩ | ⟨-, hend⟩
    · obtain ⟨c, held, hc, hheld, rfl, rfl⟩ := startQuickCraft_eq_ok hstart
      exact ⟨c, c, hc, hc, hheld ▸ reports_unchanged⟩
    · obtain ⟨c, held, gesture, index, hc, -, -, -, -, -, rfl, rfl⟩ :=
        addQuickCraftSlot_eq_ok hadd
      refine ⟨c, c, hc, ?_, reports_unchanged⟩
      split <;> exact hc
    · obtain ⟨gesture, c, c', -, -, hran⟩ := endQuickCraft_ran hend
      obtain ⟨hc', hr⟩ := hran.reports (steadyOk_finishQuickCraft gesture)
      exact ⟨c, c', hran.before, hc', hr⟩
  · obtain ⟨c, c', -, hran⟩ := applyClick_ran hkind h
    obtain ⟨hc', hr⟩ := hran.reports (guarded_clickAction click)
    exact ⟨c, c', hran.before, hc', hr⟩

/-- A click that lifts the stack off a slot. -/
theorem applyClick_reports_pickup :
    let s : InventoryState := { InventoryState.new with
      player := InventoryState.new.player.withSlots
        (List.replicate 45 none ++ [some (stone 3)]) }
    ∃ outcome s', applyClick ⟨⟨0⟩, 0, ⟨45⟩, 0, .pickup⟩ s = .ok outcome s' ∧
      ∃ c c', s.container? ⟨0⟩ = some c ∧ s'.container? ⟨0⟩ = some c' ∧
        outcome.Reports c c' ∧ (c.slots.length ≤ 2 ^ 15 → outcome.writtenTo c = c') := by
  intro s
  have hrun : (applyClick ⟨⟨0⟩, 0, ⟨45⟩, 0, .pickup⟩ s).value?.isSome := by decide +kernel
  obtain ⟨outcome, s', h⟩ := Outcome.exists_of_value? hrun
  exact ⟨outcome, s', h, applyClick_reports h⟩

end Cubic.Inventory
