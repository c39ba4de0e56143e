import Cubic.Inventory.ClickFrame
import Cubic.Inventory.Conservation
import Cubic.Inventory.Operation

/-!
# What a failing click leaves behind

Every operation on a container checks before it writes, with one exception, the end of a
drag. A click that is not part of a drag, and the end of a drag, also drop the gesture
before they are validated.
-/

namespace Cubic.Inventory

set_option autoImplicit false

open Mut

/-- The well-formed end of a drag. -/
def ContainerClick.IsDragEnd (click : ContainerClick) : Prop :=
  ∃ kind, quickCraftKind? click.button = some kind ∧ kind ≤ 2 ∧
    quickCraftStage click.button = 2 ∧ click.slot.val = -999

/-- The click drops the gesture in progress before it is validated. -/
def ContainerClick.DropsGesture (click : ContainerClick) : Prop :=
  click.kind ≠ .quickCraft ∨ click.IsDragEnd

/-- A failing click outside a drag has dropped the gesture and done nothing else. -/
theorem applyClick_err {click : ContainerClick} (hkind : click.kind ≠ .quickCraft)
    {s s' : InventoryState} {e : InventoryError} (h : applyClick click s = .err e s') :
    s' = { s with quickCraft := none } := by
  simp only [applyClick, if_neg hkind, modify_bind] at h
  refine err_of_wp (Q := Post.onErr fun _ t => t = { s with quickCraft := none }) ?_ h
  rw [wp_bind, InventoryState.wp_onContainer]
  split
  · rfl
  · rename_i c hc
    refine wp_mono (guarded_checkedAction click c) (fun _ _ _ => trivial) ?_ fun _ => trivial
    rintro _ _ rfl
    exact putContainer_self hc

/-- The end of a drag, failing: the gesture is gone, and what it was ended on is all
that can differ. -/
theorem endQuickCraft_err {click : ContainerClick} (hslot : click.slot.val = -999) {kind : UInt8}
    {s s' : InventoryState} {e : InventoryError} (h : endQuickCraft click kind s = .err e s') :
    s'.quickCraft = none ∧ (s.quickCraft = none → s' = s) := by
  simp only [endQuickCraft, hslot, ne_eq, not_true_eq_false, if_false, get_bind] at h
  cases hg : s.quickCraft with
  | none =>
    rw [hg] at h
    cases h
    exact ⟨hg, fun _ => rfl⟩
  | some gesture =>
    refine ⟨?_, fun hnone => by cases hnone⟩
    rw [hg] at h
    simp only [set_bind] at h
    refine err_of_wp (Q := Post.onErr fun _ t => t.quickCraft = none) ?_ h
    rw [wp_ite]
    split
    · rfl
    · rw [wp_bind, InventoryState.wp_onContainer]
      split
      · rfl
      · rename_i c _
        unfold wp
        cases clickOutcome (finishQuickCraft gesture) c with
        | ok outcome c' => trivial
        | err e' c' =>
          show (InventoryState.putContainer _ _ _).quickCraft = none
          unfold InventoryState.putContainer
          split <;> rfl
        | panic => trivial

theorem startQuickCraft_err {click : ContainerClick} {kind : UInt8} {s s' : InventoryState}
    {e : InventoryError} (h : startQuickCraft click kind s = .err e s') : s' = s :=
  err_of_wp (startQuickCraft_spec click kind) h

theorem addQuickCraftSlot_err {click : ContainerClick} {kind : UInt8} {s s' : InventoryState}
    {e : InventoryError} (h : addQuickCraftSlot click kind s = .err e s') : s' = s :=
  err_of_wp (addQuickCraftSlot_spec click kind) h

theorem dragEnd_err {click : ContainerClick} (hend : click.IsDragEnd) {s s' : InventoryState}
    {e : InventoryError} (h : applyQuickCraft click s = .err e s') :
    s'.quickCraft = none ∧ (s.quickCraft = none → s' = s) := by
  obtain ⟨kind, hk, hle, hstage, hslot⟩ := hend
  have hrange : ¬ (kind > 2 ∨ (2 : Int8) > 2) :=
    not_or.mpr ⟨UInt8.not_lt.mpr hle, by decide⟩
  simp only [applyQuickCraft, hk, hstage, if_neg hrange] at h
  exact endQuickCraft_err hslot h

/-- Any other quick-craft click changes nothing when it fails. -/
theorem otherDrag_err {click : ContainerClick} (hend : ¬ click.IsDragEnd) {s s' : InventoryState}
    {e : InventoryError} (h : applyQuickCraft click s = .err e s') : s' = s := by
  unfold applyQuickCraft at h
  cases hk : quickCraftKind? click.button with
  | none =>
    rw [hk] at h
    cases h
    rfl
  | some kind =>
    rw [hk] at h
    simp only at h
    split at h
    · cases h
      rfl
    · rename_i hrange
      split at h
      · exact startQuickCraft_err h
      · split at h
        · exact addQuickCraftSlot_err h
        · split at h
          · rename_i hstage
            have hle : kind ≤ 2 := UInt8.not_lt.mp fun hlt => hrange (Or.inl hlt)
            have hslot : click.slot.val ≠ -999 := fun hslot => hend ⟨kind, hk, hle, hstage, hslot⟩
            simp only [endQuickCraft, if_pos hslot] at h
            cases h
            rfl
          · cases h
            rfl

/-- A failing click leaves the inventory as it was exactly when there was no gesture to
drop or the click is not one that drops it. -/
theorem applyClick_unchanged_iff {click : ContainerClick} {s s' : InventoryState}
    {e : InventoryError} (h : applyClick click s = .err e s') :
    s' = s ↔ s.quickCraft = none ∨ ¬ click.DropsGesture := by
  have hdropped : click.DropsGesture → s'.quickCraft = none ∧ (s.quickCraft = none → s' = s) := by
    intro hdrops
    by_cases hkind : click.kind = .quickCraft
    · simp only [applyClick, if_pos hkind] at h
      exact dragEnd_err (hdrops.resolve_left fun hne => hne hkind) h
    · have hs := applyClick_err hkind h
      refine ⟨congrArg InventoryState.quickCraft hs, fun hnone => ?_⟩
      rw [hs, ← hnone]
  have hkept : ¬ click.DropsGesture → s' = s := by
    intro hnot
    have hkind : click.kind = .quickCraft := not_not.mp fun hne => hnot (Or.inl hne)
    simp only [applyClick, if_pos hkind] at h
    exact otherDrag_err (fun hend => hnot (Or.inr hend)) h
  constructor
  · intro heq
    by_cases hdrops : click.DropsGesture
    · exact Or.inl (heq ▸ (hdropped hdrops).1)
    · exact Or.inr hdrops
  · rintro (hnone | hnot)
    · by_cases hdrops : click.DropsGesture
      · exact (hdropped hdrops).2 hnone
      · exact hkept hdrops
    · exact hkept hnot

theorem reachable_click_atomic_iff :
    ∀ s, Reachable s → ∀ click e s', applyClick click s = .err e s' →
      (s' = s ↔ s.quickCraft = none ∨ ¬ click.DropsGesture) :=
  fun _ _ _ _ _ h => applyClick_unchanged_iff h

theorem reachable_click_atomic_iff_new :
    ∃ e s', applyClick ⟨⟨0⟩, 3, ⟨36⟩, 0, .pickup⟩ InventoryState.new = .err e s' ∧
      (s' = InventoryState.new ↔
        InventoryState.new.quickCraft = none ∨ ¬ (⟨⟨0⟩, 3, ⟨36⟩, 0, .pickup⟩ : ContainerClick).DropsGesture) := by
  have h : applyClick ⟨⟨0⟩, 3, ⟨36⟩, 0, .pickup⟩ InventoryState.new =
      .err (.staleStateId 0 3) InventoryState.new := by decide +kernel
  exact ⟨_, _, h, reachable_click_atomic_iff _ .new _ _ _ h⟩

/-- Ten items are dragged over slot 40; then the server resends the container under the
same state id, with ten slots. -/
def shrunkDrag : List InventoryOp :=
  [.setCarried (some (stone 10)),
    .applyClick ⟨⟨0⟩, 0, ⟨-999⟩, 0, .quickCraft⟩,
    .applyClick ⟨⟨0⟩, 0, ⟨40⟩, 1, .quickCraft⟩,
    .replaceContent ⟨0⟩ 0 (List.replicate 10 none) (some (stone 10))]

def shrunkDragState : InventoryState := (runAll shrunkDrag InventoryState.new).getD .new

/-- The end of that drag fails after the cursor was taken, and the items are gone. -/
theorem dragEnd_loses_items :
    Reachable shrunkDragState ∧
      ∃ s', applyClick ⟨⟨0⟩, 0, ⟨-999⟩, 2, .quickCraft⟩ shrunkDragState =
        .err (.invalidSlot 40) s' ∧
      shrunkDragState.player.carried = some (stone 10) ∧ s'.player.carried = none ∧
      s' ≠ shrunkDragState := by
  have hrun : runAll shrunkDrag InventoryState.new = some shrunkDragState := by decide +kernel
  refine ⟨Reachable.new.runAll shrunkDrag hrun,
    { shrunkDragState with
      player := shrunkDragState.player.withCarried none, quickCraft := none }, ?_⟩
  decide +kernel

end Cubic.Inventory
