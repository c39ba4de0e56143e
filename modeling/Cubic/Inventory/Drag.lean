import Cubic.Inventory.QuickCraft
import Mathlib.Algebra.Group.Action.Defs
import Mathlib.Algebra.Order.BigOperators.Group.List

/-!
# A drag from its first click to its last

The container is read by every click and written by the last one alone, so what each
slot receives is settled by the set of eligible slots.
-/

namespace Cubic.Inventory

set_option autoImplicit false

open Mut

/-- What each slot is offered, with `n` slots to serve. -/
def portion (kind : UInt8) (held : ItemStack) (n : Nat) : Nat :=
  if kind = 0 then held.count / n else if kind = 1 then 1 else held.maxStackSize

/-- What slot `i` receives when the slots of `S` are served: an even share of the cursor,
one item each in ascending order while the cursor lasts, or all that fits. -/
def received (kind : UInt8) (held : ItemStack) (S : Finset Nat) (c : ContainerState) (i : Nat) :
    Nat :=
  if i ∉ S then 0
  else if kind = 0 then min (held.count / S.card) (c.capacity held i)
  else if kind = 1 then
    if ∑ j ∈ S with j < i, min 1 (c.capacity held j) < held.count then min 1 (c.capacity held i)
    else 0
  else c.capacity held i

/-- The container after the cursor was distributed over `S`. -/
def distributed (kind : UInt8) (held : ItemStack) (S : Finset Nat) (c : ContainerState) :
    ContainerState :=
  (c.receive held (received kind held S c)).withCarried
    (if kind = 2 then some held
      else held.withCount? (held.count - ∑ i ∈ S, received kind held S c i))

theorem kind_cases {kind : UInt8} (h : kind ≤ 2) : kind = 0 ∨ kind = 1 ∨ kind = 2 := by
  have hle : kind.toNat ≤ 2 := h
  have hcases : kind.toNat = 0 ∨ kind.toNat = 1 ∨ kind.toNat = 2 := by omega
  rcases hcases with h0 | h1 | h2
  · exact Or.inl (UInt8.toNat_inj.mp h0)
  · exact Or.inr (Or.inl (UInt8.toNat_inj.mp h1))
  · exact Or.inr (Or.inr (UInt8.toNat_inj.mp h2))

section Finish
variable {kind : UInt8} {held : ItemStack} {c : ContainerState} {places : List Nat}

theorem quickCraftPerSlot_eq (hkind : kind ≤ 2) {n : Nat} (hn : n ≠ 0) (hlt : n < 2 ^ 32) :
    quickCraftPerSlot kind held n c = .ok (portion kind held n) c := by
  unfold quickCraftPerSlot portion
  rw [if_pos hlt]
  rcases kind_cases hkind with rfl | rfl | rfl
  · rw [if_pos rfl, if_pos rfl, divU32, if_pos hn]
    rfl
  · rfl
  · rfl

theorem Eligible.fits {i : Nat} (h : Eligible c held i) : Fits c held i := h.2

/-- A stack of the cursor's kind has no more room than the cursor has items at most. -/
theorem capacity_le {i : Nat} (h : Fits c held i) : c.capacity held i ≤ held.maxStackSize := by
  obtain ⟨content, hcontent, hstack⟩ := h
  rw [capacity_eq hcontent]
  cases content with
  | none => exact le_rfl
  | some stack =>
    have hkey := ItemStack.stackableWith_iff.mp (hstack stack rfl).1
    have hmax := ItemStack.maxStackSize_eq_of_key hkey
    change stack.maxStackSize - stack.count ≤ held.maxStackSize
    omega

def wished (kind : UInt8) (held : ItemStack) (c : ContainerState) (n i : Nat) : Nat :=
  min (portion kind held n) (c.capacity held i)

/-- What all of `places` wish together. -/
def demand (kind : UInt8) (held : ItemStack) (c : ContainerState) (places : List Nat) : Nat :=
  (places.map (wished kind held c places.length)).sum

def budget (kind : UInt8) (held : ItemStack) (c : ContainerState) (places : List Nat) : Nat :=
  if kind = 2 then demand kind held c places else held.count

theorem dealt_eq_received (hkind : kind ≤ 2) (hsorted : places.Pairwise (· < ·))
    (hfits : ∀ i ∈ places, Fits c held i) (i : Nat) :
    dealt (wished kind held c places.length) places (budget kind held c places) i =
      received kind held places.toFinset c i := by
  have hnodup : places.Nodup := hsorted.imp fun hlt => hlt.ne
  have hcard : places.toFinset.card = places.length := List.toFinset_card_of_nodup hnodup
  unfold received
  by_cases hi : i ∈ places
  · rw [if_neg (not_not.mpr (List.mem_toFinset.mpr hi)), hcard]
    rcases kind_cases hkind with rfl | rfl | rfl
    · -- An even share for everyone is never more than there is.
      have hsum : demand 0 held c places ≤ held.count := by
        have hle : ∀ x ∈ places.map (wished 0 held c places.length),
            x ≤ held.count / places.length := by
          intro x hx
          obtain ⟨j, -, rfl⟩ := List.mem_map.mp hx
          exact Nat.min_le_left _ _
        have htotal := List.sum_le_card_nsmul _ _ hle
        rw [List.length_map, smul_eq_mul] at htotal
        exact htotal.trans (Nat.mul_div_le _ _)
      exact dealt_of_sum_le hi hsum
    · have hsum : ((places.filter (· < i)).map (wished 1 held c places.length)).sum =
          ∑ j ∈ places.toFinset with j < i, min 1 (c.capacity held j) := by
        rw [← List.sum_toFinset _ (hnodup.filter _), List.toFinset_filter]
        simp only [decide_eq_true_eq]
        rfl
      rw [dealt_ascending hsorted hi, hsum, if_neg (by decide), if_pos rfl]
      change min (min 1 (c.capacity held i)) (held.count - _) = _
      split <;> omega
    · have hwish : wished 2 held c places.length i = c.capacity held i :=
        Nat.min_eq_right (capacity_le (hfits i hi))
      exact (dealt_of_sum_le hi le_rfl).trans hwish
  · rw [if_pos (List.mem_toFinset.not.mpr hi), dealt_of_not_mem hi]

/-- All that is received is what was wished, as far as the cursor reaches. -/
theorem sum_received (hkind : kind ≤ 2) (hsorted : places.Pairwise (· < ·))
    (hfits : ∀ i ∈ places, Fits c held i) (hk : kind ≠ 2) :
    ∑ i ∈ places.toFinset, received kind held places.toFinset c i =
      min held.count (demand kind held c places) := by
  have hnodup : places.Nodup := hsorted.imp fun hlt => hlt.ne
  have hbudget : budget kind held c places = held.count := if_neg hk
  have htotal := sum_dealt (wished kind held c places.length) hnodup (budget kind held c places)
  rw [List.sum_toFinset _ hnodup, ← hbudget]
  rw [funext (dealt_eq_received hkind hsorted hfits)] at htotal
  exact htotal

theorem keepCarried_eq (hc : c.carried = none) (stack : ItemStack) :
    keepCarried stack c = .ok () (c.withCarried (stack.withCount? stack.count)) := by
  unfold keepCarried ItemStack.withCount?
  split
  · rfl
  · rename_i hzero
    rw [if_pos (not_not.mp hzero), c.withCarried_self none hc]
    rfl

theorem withCount?_spent (hpos : 1 ≤ held.count) (n : Nat) :
    (spent kind held n).withCount? (spent kind held n).count =
      if kind = 2 then some held else held.withCount? (held.count - n) := by
  unfold spent
  split
  · exact if_neg (by omega)
  · rfl

theorem distributed_empty (kind : UInt8) (c : ContainerState) (hpos : 1 ≤ held.count) :
    distributed kind held ∅ c = c.withCarried (some held) := by
  have hreceive : c.receive held (received kind held ∅ c) = c :=
    receive_zero fun i => if_pos (Finset.notMem_empty i)
  have hcursor : (if kind = 2 then some held else held.withCount? (held.count - 0)) =
      some held := by
    split
    · rfl
    · exact if_neg (by omega)
  rw [distributed, hreceive, Finset.sum_empty, hcursor]

theorem finishQuickCraft_eq {gesture : QuickCraftGesture} (hkind : gesture.kind ≤ 2)
    (hheld : c.carried = some held) (hpos : 1 ≤ held.count) (hsize : gesture.slots.size < 2 ^ 32)
    (hslots : ∀ slot ∈ gesture.slots.keys, 0 ≤ slot.val.toInt ∧ Eligible c held slot.place) :
    finishQuickCraft gesture c =
      .ok () (distributed gesture.kind held (gesture.slots.keys.map SlotIndex.place).toFinset c) := by
  generalize hplaces : gesture.slots.keys.map SlotIndex.place = places
  have hlength : gesture.slots.size = places.length := by
    rw [← hplaces, List.length_map, OrderedMap.keys, List.length_map]
    rfl
  have hsorted : places.Pairwise (· < ·) := by
    have hkeys : gesture.slots.keys.Pairwise (· < ·) :=
      List.pairwise_map.mpr gesture.slots.ascending
    rw [← hplaces]
    refine List.pairwise_map.mpr (hkeys.imp_of_mem ?_)
    intro a b ha hb hlt
    have hval := Int16.lt_iff_toInt_lt.mp hlt
    have ha0 := (hslots a ha).1
    unfold SlotIndex.place
    omega
  have hnodup : places.Nodup := hsorted.imp fun hlt => hlt.ne
  have hfits : ∀ i ∈ places, Fits c held i := by
    intro i hi
    rw [← hplaces] at hi
    obtain ⟨slot, hslot, rfl⟩ := List.mem_map.mp hi
    exact (hslots slot hslot).2.fits
  have hamount := dealt_eq_received hkind hsorted hfits
  have htake : takeCarried c = .ok (some held) (c.withCarried none) := by
    rw [← hheld]
    rfl
  unfold finishQuickCraft
  rw [bind_of_ok htake]
  dsimp only
  split
  · rename_i hempty
    have hnil : places = [] := by
      rw [← hplaces, OrderedMap.keys, List.isEmpty_iff.mp hempty]
      rfl
    subst hnil
    exact congrArg (Outcome.ok ()) (distributed_empty gesture.kind c hpos).symm
  · rename_i hsome
    have hn : gesture.slots.size ≠ 0 := by
      rw [OrderedMap.size]
      exact fun hz => hsome (List.isEmpty_iff.mpr (List.length_eq_zero_iff.mp hz))
    have hn' : gesture.slots.size = places.length := hlength
    have hfill : fillSlots gesture.kind (portion gesture.kind held gesture.slots.size)
        gesture.slots.keys held (c.withCarried none) =
          .ok (spent gesture.kind held (demand gesture.kind held c places))
            ((c.withCarried none).receive held (received gesture.kind held places.toFinset c)) := by
      rw [fillSlots_eq gesture.kind _ gesture.slots.keys (wished gesture.kind held c places.length)
        (budget gesture.kind held c places), hplaces]
      · rw [funext hamount]
        rfl
      · intro slot hslot
        obtain ⟨hnonneg, heligible⟩ := hslots slot hslot
        exact ⟨hnonneg, heligible.fits, by rw [hn']; rfl⟩
      · rw [hplaces]
        exact hnodup
      · intro hk
        rw [hplaces, budget, if_pos hk]
        exact le_rfl
      · exact fun hk => if_neg hk
    rw [bind_of_ok (quickCraftPerSlot_eq hkind hn hsize), bind_of_ok hfill,
      keepCarried_eq rfl, withCount?_spent hpos]
    refine congrArg (Outcome.ok ()) ?_
    unfold distributed
    split
    · rfl
    · rename_i hk
      rw [sum_received hkind hsorted hfits hk]
      have hleft : held.count - demand gesture.kind held c places =
          held.count - min held.count (demand gesture.kind held c places) := by omega
      rw [hleft]
      rfl

end Finish

/-! ### The clicks of a drag -/

/-- The clicks in order, each of them accepted. -/
def acceptClicks : List ContainerClick → InventoryM Unit
  | [] => pure ()
  | click :: rest => do
    let _ ← applyClick click
    acceptClicks rest

/-- A click that opens a gesture, clicks that add slots to it, and one that ends it. -/
structure Drag where
  start : ContainerClick
  adds : List ContainerClick
  finish : ContainerClick
  start_stage : start.kind = .quickCraft ∧ quickCraftStage start.button = 0
  add_stage : ∀ click ∈ adds, click.kind = .quickCraft ∧ quickCraftStage click.button = 1
  finish_stage : finish.kind = .quickCraft ∧ quickCraftStage finish.button = 2

def Drag.run (d : Drag) : InventoryM Unit := do
  let _ ← applyClick d.start
  acceptClicks d.adds
  let _ ← applyClick d.finish
  pure ()

/-- The eligible slots among those the drag adds. -/
def Drag.eligible (d : Drag) (c : ContainerState) (held : ItemStack) : Finset Nat :=
  ((d.adds.map fun click => click.slot.place).filter fun i => Eligible c held i).toFinset

theorem matches_of_mismatches {gesture : QuickCraftGesture} {click : ContainerClick}
    {kind : UInt8} (h : gesture.mismatches click kind = false) :
    gesture.container = click.container ∧ gesture.kind = kind := by
  simp only [QuickCraftGesture.mismatches, Bool.or_eq_false_iff, decide_eq_false_iff_not,
    not_not] at h
  exact ⟨h.1.1, h.2⟩

theorem applyClick_stage {click : ContainerClick} {s s' : InventoryState} {outcome : ClickOutcome}
    {stage : Int8} (hstage : click.kind = .quickCraft ∧ quickCraftStage click.button = stage)
    (h : applyClick click s = .ok outcome s') :
    ∃ kind, quickCraftKind? click.button = some kind ∧ kind ≤ 2 ∧
      (stage = 0 → startQuickCraft click kind s = .ok outcome s') ∧
      (stage = 1 → addQuickCraftSlot click kind s = .ok outcome s') ∧
      (stage = 2 → endQuickCraft click kind s = .ok outcome s') := by
  obtain ⟨hkind, rfl⟩ := hstage
  obtain ⟨kind, hk, hle, hcases⟩ := applyClick_quickCraft hkind h
  refine ⟨kind, hk, hle, ?_⟩
  rcases hcases with ⟨h0, hrun⟩ | ⟨h1, hrun⟩ | ⟨h2, hrun⟩
  · rw [h0]
    exact ⟨fun _ => hrun, fun h => absurd h (by decide), fun h => absurd h (by decide)⟩
  · rw [h1]
    exact ⟨fun h => absurd h (by decide), fun _ => hrun, fun h => absurd h (by decide)⟩
  · rw [h2]
    exact ⟨fun h => absurd h (by decide), fun h => absurd h (by decide), fun _ => hrun⟩

/-- What accepted clicks added to a gesture. -/
structure Gathered (c : ContainerState) (held : ItemStack) (adds : List ContainerClick)
    (gesture gesture' : QuickCraftGesture) : Prop where
  container : gesture'.container = gesture.container
  kind : gesture'.kind = gesture.kind
  size : gesture.slots.size ≤ maxContainerSlots → gesture'.slots.size ≤ maxContainerSlots
  nonneg : ∀ click ∈ adds, 0 ≤ click.slot.val.toInt
  keys : ∀ slot, slot ∈ gesture'.slots.keys ↔ slot ∈ gesture.slots.keys ∨
    Eligible c held slot.place ∧ ∃ click ∈ adds, click.slot = slot

theorem slotIndex?_eq_some {c : ContainerState} {slot : SlotIndex} {index : Nat}
    (h : c.slotIndex? slot = some index) : 0 ≤ slot.val.toInt ∧ index = slot.place := by
  unfold ContainerState.slotIndex? at h
  split at h
  · cases h
  · split at h
    · cases h
      exact ⟨by omega, rfl⟩
    · cases h

section Gathering
variable {c : ContainerState} {held : ItemStack} {id : ContainerId}

theorem gathered_add {click : ContainerClick} {kind : UInt8} {s s' : InventoryState}
    {outcome : ClickOutcome} {gesture : QuickCraftGesture} (hc : s.container? id = some c)
    (hheld : c.carried = some held) (hgesture : s.quickCraft = some gesture)
    (hid : gesture.container = id) (h : addQuickCraftSlot click kind s = .ok outcome s') :
    ∃ gesture', s' = { s with quickCraft := some gesture' } ∧
      Gathered c held [click] gesture gesture' := by
  obtain ⟨c₁, held₁, gesture₁, index, hc₁, hindex, hgesture₁, hmatch, hheld₁, hsize, rfl, -⟩ :=
    addQuickCraftSlot_eq_ok h
  cases hgesture.symm.trans hgesture₁
  rw [← (matches_of_mismatches hmatch).1, hid, hc] at hc₁
  cases hc₁
  cases hheld.symm.trans hheld₁
  obtain ⟨hnonneg, rfl⟩ := slotIndex?_eq_some hindex
  have hall : ∀ other ∈ [click], 0 ≤ other.slot.val.toInt := by
    intro other hother
    rw [List.mem_singleton.mp hother]
    exact hnonneg
  have hadded : ∀ slot, (∃ other ∈ [click], other.slot = slot) ↔ slot = click.slot := by
    intro slot
    constructor
    · rintro ⟨other, hother, rfl⟩
      rw [List.mem_singleton.mp hother]
    · rintro rfl
      exact ⟨click, List.mem_singleton_self click, rfl⟩
  by_cases heligible : Eligible c held click.slot.place
  · rw [if_pos heligible]
    refine ⟨gesture.insert click.slot, rfl, rfl, rfl, fun _ => ?_, hall, fun slot => ?_⟩
    · change (gesture.slots.insert click.slot ()).size ≤ _
      rw [OrderedMap.size_insert]
      split <;> omega
    · change slot ∈ (gesture.slots.insert click.slot ()).keys ↔ _
      rw [OrderedMap.mem_keys_insert, hadded]
      constructor
      · rintro (rfl | hmem)
        · exact Or.inr ⟨heligible, rfl⟩
        · exact Or.inl hmem
      · rintro (hmem | ⟨-, heq⟩)
        · exact Or.inr hmem
        · exact Or.inl heq
  · rw [if_neg heligible]
    refine ⟨gesture, ?_, rfl, rfl, fun hle => hle, hall, fun slot => ?_⟩
    · cases s
      cases hgesture
      rfl
    · rw [hadded]
      refine (or_iff_left ?_).symm
      rintro ⟨hslot, rfl⟩
      exact heligible hslot

theorem Gathered.trans {first rest : List ContainerClick} {g g' g'' : QuickCraftGesture}
    (h : Gathered c held first g g') (h' : Gathered c held rest g' g'') :
    Gathered c held (first ++ rest) g g'' where
  container := h'.container.trans h.container
  kind := h'.kind.trans h.kind
  size hle := h'.size (h.size hle)
  nonneg click hmem := (List.mem_append.mp hmem).elim (h.nonneg click) (h'.nonneg click)
  keys slot := by
    rw [h'.keys, h.keys, or_assoc, ← and_or_left]
    simp only [List.mem_append, or_and_right, exists_or]

theorem gathered_adds (adds : List ContainerClick) :
    ∀ {s s' : InventoryState} {gesture : QuickCraftGesture}, s.container? id = some c →
      c.carried = some held → s.quickCraft = some gesture → gesture.container = id →
      (∀ click ∈ adds, click.kind = .quickCraft ∧ quickCraftStage click.button = 1) →
      acceptClicks adds s = .ok () s' →
      ∃ gesture', s' = { s with quickCraft := some gesture' } ∧
        Gathered c held adds gesture gesture' := by
  induction adds with
  | nil =>
    intro s s' gesture _ _ hgesture _ _ h
    cases h
    refine ⟨gesture, ?_, rfl, rfl, fun hle => hle, by simp, by simp⟩
    cases s
    cases hgesture
    rfl
  | cons click rest ih =>
    intro s s' gesture hc hheld hgesture hid hstage h
    obtain ⟨hclick, hrest⟩ := List.forall_mem_cons.mp hstage
    obtain ⟨outcome, t, hfirst, hthen⟩ := bind_eq_ok.mp h
    obtain ⟨kind, -, -, -, hadd, -⟩ := applyClick_stage hclick hfirst
    obtain ⟨g', rfl, hg'⟩ := gathered_add hc hheld hgesture hid (hadd rfl)
    have hnow : ({ s with quickCraft := some g' } : InventoryState).container? id = some c := hc
    obtain ⟨g'', hs', hg''⟩ := ih hnow hheld rfl (hg'.container.trans hid) hrest hthen
    exact ⟨g'', hs', hg'.trans hg''⟩

end Gathering

/-- An accepted drag distributes the cursor over the eligible slots it added, whatever
the order and the number of times it added them. -/
theorem drag_distributes (d : Drag) {s s' : InventoryState} {c : ContainerState}
    (hc : s.container? d.start.container = some c) (hcounts : c.WellCounted)
    (h : d.run s = .ok () s') :
    ∃ kind held, quickCraftKind? d.start.button = some kind ∧ kind ≤ 2 ∧ c.carried = some held ∧
      s'.container? d.start.container = some (distributed kind held (d.eligible c held) c) := by
  obtain ⟨o₁, s₁, hstart, h₁⟩ := bind_eq_ok.mp h
  obtain ⟨⟨⟩, s₂, hadds, h₂⟩ := bind_eq_ok.mp h₁
  obtain ⟨o₃, s₃, hfinish, h₃⟩ := bind_eq_ok.mp h₂
  cases h₃
  obtain ⟨kind, hkind, hle, hopen, -, -⟩ := applyClick_stage d.start_stage hstart
  obtain ⟨c₀, held, hc₀, hheld, rfl, -⟩ := startQuickCraft_eq_ok (hopen rfl)
  cases hc.symm.trans hc₀
  have hnow : ({ s with quickCraft := some (.opened d.start kind) } : InventoryState).container?
      d.start.container = some c := hc
  obtain ⟨gesture, rfl, hgathered⟩ := gathered_adds d.adds hnow hheld rfl rfl d.add_stage hadds
  obtain ⟨kind', -, -, -, -, hend⟩ := applyClick_stage d.finish_stage hfinish
  obtain ⟨gesture', c₁, c', hgesture', hmatch, hran⟩ := endQuickCraft_ran (hend rfl)
  cases hgesture'
  have hid : d.finish.container = d.start.container :=
    (matches_of_mismatches hmatch).1.symm.trans hgathered.container
  have hbefore := hran.before
  rw [hid] at hbefore
  have hsame : c₁ = c := Option.some.inj (hbefore.symm.trans ((container?_congr rfl rfl).trans hc))
  subst hsame
  have hgkind : gesture.kind = kind := hgathered.kind
  have hkeys : ∀ slot, slot ∈ gesture.slots.keys ↔
      Eligible c₁ held slot.place ∧ ∃ click ∈ d.adds, click.slot = slot := by
    intro slot
    rw [hgathered.keys]
    exact or_iff_right List.not_mem_nil
  have hslots : ∀ slot ∈ gesture.slots.keys,
      0 ≤ slot.val.toInt ∧ Eligible c₁ held slot.place := by
    intro slot hslot
    obtain ⟨heligible, click, hclick, rfl⟩ := (hkeys slot).mp hslot
    exact ⟨hgathered.nonneg click hclick, heligible⟩
  have hgle : gesture.kind ≤ 2 := by
    rw [hgkind]
    exact hle
  have hfin := finishQuickCraft_eq hgle hheld (hcounts.2 held hheld).1
    (lt_of_le_of_lt (hgathered.size (Nat.zero_le _)) (by decide)) hslots
  have hS : (gesture.slots.keys.map SlotIndex.place).toFinset = d.eligible c₁ held := by
    ext i
    simp only [Drag.eligible, List.mem_toFinset, List.mem_filter, List.mem_map,
      decide_eq_true_eq]
    constructor
    · rintro ⟨slot, hslot, rfl⟩
      obtain ⟨heligible, click, hclick, rfl⟩ := (hkeys slot).mp hslot
      exact ⟨⟨click, hclick, rfl⟩, heligible⟩
    · rintro ⟨⟨click, hclick, rfl⟩, heligible⟩
      exact ⟨click.slot, (hkeys click.slot).mpr ⟨heligible, click, hclick, rfl⟩, rfl⟩
  have hc' : c' = distributed kind held (d.eligible c₁ held) c₁ := by
    have hrun := hran.run
    rw [hfin, hS, hgkind] at hrun
    cases hrun
    rfl
  refine ⟨kind, held, hkind, hle, hheld, ?_⟩
  rw [← hc', ← hid]
  exact hran.container (hc' ▸ rfl)

/-- Ten items over slots 41 and 40, one of them added twice. -/
def evenDrag : Drag where
  start := ⟨⟨0⟩, 0, ⟨-999⟩, 0, .quickCraft⟩
  adds := [⟨⟨0⟩, 0, ⟨41⟩, 1, .quickCraft⟩, ⟨⟨0⟩, 0, ⟨40⟩, 1, .quickCraft⟩,
    ⟨⟨0⟩, 0, ⟨41⟩, 1, .quickCraft⟩]
  finish := ⟨⟨0⟩, 0, ⟨-999⟩, 2, .quickCraft⟩
  start_stage := by decide
  add_stage := by decide
  finish_stage := by decide

theorem drag_distributes_even :
    let c := InventoryState.new.player.withCarried (some (stone 10))
    let s : InventoryState := { InventoryState.new with player := c }
    ∃ s', evenDrag.run s = .ok () s' ∧
      ∃ kind held, quickCraftKind? evenDrag.start.button = some kind ∧ kind ≤ 2 ∧
        c.carried = some held ∧ s'.container? evenDrag.start.container =
          some (distributed kind held (evenDrag.eligible c held) c) := by
  intro c s
  have hrun : (evenDrag.run s).value?.isSome := by decide +kernel
  obtain ⟨⟨⟩, s', h⟩ := Outcome.exists_of_value? hrun
  exact ⟨s', h, drag_distributes evenDrag rfl (by decide +kernel) h⟩

example : distributed 0 (stone 10) {40, 41} (InventoryState.new.player.withCarried (some (stone 10)))
    = (InventoryState.new.player.withSlots
        (List.replicate 40 none ++ [some (stone 5), some (stone 5)] ++ List.replicate 4 none)) := by
  decide +kernel

end Cubic.Inventory
