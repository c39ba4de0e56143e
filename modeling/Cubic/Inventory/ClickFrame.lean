import Cubic.Inventory.Gesture
import Cubic.Lib.Frame

/-!
# What clicks leave alone in a container

No operation changes more than the stacks, whatever their counts. All of them check
before they write, except the end of a drag.
-/

namespace Cubic.Inventory

set_option autoImplicit false

open Mut

/-- What no click changes: everything but the stacks, and the number of slots. -/
def ContainerState.outline (c : ContainerState) : ContainerState × Nat := (c.frame, c.slots.length)

abbrev QuietC {α : Type} (m : ContainerM α) : Prop := Quiet ContainerState.outline m

@[simp] theorem quiet_readSlot (i : Nat) : QuietC (readSlot i) :=
  Quiet.bind (by simp) fun _ => by simp

@[simp] theorem quiet_writeSlot (i : Nat) (o : Option ItemStack) : QuietC (writeSlot i o) := by
  intro c
  simp only [writeSlot, wp_bind, wp_get, wp_ite, wp_set]
  split
  · simp [ContainerState.outline, ContainerState.frame]
  · trivial

@[simp] theorem quiet_takeSlot (i : Nat) : QuietC (takeSlot i) :=
  Quiet.bind (by simp) fun _ => Quiet.bind (by simp) fun _ => by simp

@[simp] theorem quiet_writeCarried (o : Option ItemStack) : QuietC (writeCarried o) :=
  steady_modify fun _ => rfl

@[simp] theorem quiet_takeCarried : QuietC takeCarried :=
  Quiet.bind (by simp) fun _ => Quiet.bind (by simp) fun _ => by simp

@[simp] theorem quiet_keepCarried (s : ItemStack) : QuietC (keepCarried s) :=
  steady_ite _ (by simp) (by simp)

theorem quiet_pickupExchange (button : Int8) (carried target : Option ItemStack) :
    QuietC (pickupExchange button carried target) := by
  match carried, target with
  | none, none => exact steady_pure _
  | none, some stack =>
    refine steady_ite _ (Quiet.bind (by simp) fun _ => by simp) ?_
    refine Quiet.bind (by simp) fun remaining => ?_
    exact Quiet.bind (by simp) fun _ => by simp
  | some carried, none =>
    refine steady_ite _ (by simp) (Quiet.bind (by simp) fun count => ?_)
    exact Quiet.bind (by simp) fun _ => by simp
  | some carried, some stack =>
    refine steady_ite _ ?_ (Quiet.bind (by simp) fun _ => by simp)
    refine Quiet.bind (by simp) fun stackCount => ?_
    refine Quiet.bind (by simp) fun carriedCount => ?_
    exact Quiet.bind (by simp) fun _ => by simp

theorem quiet_pickupOutside (button : Int8) : QuietC (pickupOutside button) := by
  refine Quiet.bind steady_get fun c => steady_ite _ (by simp) ?_
  split <;> simp

theorem quiet_mergeAlong (indices : List Nat) :
    ∀ moving, QuietC (mergeAlong indices moving) := by
  induction indices with
  | nil => exact fun _ => steady_pure _
  | cons index rest ih =>
    intro moving
    refine Quiet.bind (by simp) fun content => ?_
    cases content with
    | none => exact ih moving
    | some stack =>
      refine steady_ite _ ?_ (ih moving)
      refine Quiet.bind (by simp) fun stackCount => ?_
      refine Quiet.bind (by simp) fun _ => ?_
      exact Quiet.bind (by simp) fun movingCount => steady_ite _ (by simp) (ih _)

theorem quiet_findEmpty (indices : List Nat) : QuietC (findEmpty indices) := by
  induction indices with
  | nil => exact steady_pure _
  | cons index rest ih =>
    refine Quiet.bind (by simp) fun content => ?_
    cases content with
    | none => exact steady_pure _
    | some stack => exact ih

theorem quiet_moveStackTo (moving : ItemStack) (route : SlotRoute) :
    QuietC (moveStackTo moving route) := by
  refine Quiet.bind (quiet_mergeAlong _ _) fun r => steady_ite _ (by simp) ?_
  refine Quiet.bind (quiet_findEmpty _) fun found => ?_
  cases found with
  | none => exact steady_pure _
  | some index => exact Quiet.bind (by simp) fun _ => by simp

theorem quiet_moveAlongRoutes (source : Nat) (routes : List SlotRoute) :
    ∀ moving, QuietC (moveAlongRoutes source routes moving) := by
  induction routes with
  | nil => exact fun moving => quiet_writeSlot _ _
  | cons route rest ih =>
    intro moving
    refine Quiet.bind (quiet_moveStackTo _ _) fun moving' => ?_
    exact steady_ite _ (by simp) (ih moving')

theorem quiet_pickAllPass (menu : MenuIdentity) (fullPass : Bool) (indices : List Nat) :
    ∀ carried, QuietC (pickAllPass menu fullPass indices carried) := by
  induction indices with
  | nil => exact fun carried => steady_pure _
  | cons index rest ih =>
    intro carried
    refine steady_ite _ (ih carried) (Quiet.bind (by simp) fun content => ?_)
    cases content with
    | none => exact ih carried
    | some stack =>
      refine steady_ite _ ?_ (ih carried)
      refine Quiet.bind (by simp) fun stackCount => ?_
      refine Quiet.bind (by simp) fun carriedCount => ?_
      refine Quiet.bind (by simp) fun _ => Quiet.bind (by simp) fun _ => ?_
      exact steady_ite _ (by simp) (ih _)

theorem check_slotIndex (slot : SlotIndex) : Guarded id (slotIndex slot) := by
  intro c
  rw [wp_slotIndex]
  split <;> rfl

/-- The operations of clicks outside a drag check before they write. -/
theorem guarded_clickAction (click : ContainerClick) :
    Guarded ContainerState.outline (clickAction click) := by
  unfold clickAction
  cases click.kind with
  | pickup =>
    refine steady_ite _ (guarded_fail _) (steady_ite _ (quiet_pickupOutside _).steady ?_)
    refine guarded_check (check_slotIndex _) fun index => Quiet.steady ?_
    refine Quiet.bind (by simp) fun target => Quiet.bind (by simp) fun carried => ?_
    exact Quiet.bind (quiet_pickupExchange _ _ _) fun _ => by simp
  | quickMove =>
    refine guarded_check (check_slotIndex _) fun source => Quiet.steady ?_
    refine Quiet.bind (by simp) fun content => ?_
    cases content with
    | none => exact steady_pure _
    | some moving => exact Quiet.bind steady_get fun c => quiet_moveAlongRoutes _ _ _
  | swap =>
    refine guarded_check (check_slotIndex _) fun source => guarded_check steady_get fun c => ?_
    refine steady_ite _ (guarded_fail _) (steady_ite _ (guarded_fail _) (Quiet.steady ?_))
    refine Quiet.bind (by simp) fun a => Quiet.bind (by simp) fun b => ?_
    exact Quiet.bind (by simp) fun _ => by simp
  | clone =>
    refine guarded_check (check_slotIndex _) fun source => Quiet.steady ?_
    exact Quiet.bind (by simp) fun content => by simp
  | throw =>
    refine guarded_check (check_slotIndex _) fun source => steady_ite _ (guarded_fail _) ?_
    refine Quiet.steady (steady_ite _ (by simp) (Quiet.bind (by simp) fun o => ?_))
    cases o with
    | none => exact steady_pure _
    | some stack => exact Quiet.bind (by simp) fun count => by simp
  | quickCraft => exact steady_fault
  | pickupAll =>
    refine steady_ite _ (guarded_fail _) (guarded_check steady_get fun c => Quiet.steady ?_)
    cases c.carried with
    | none => exact steady_pure _
    | some carried =>
      refine Quiet.bind (quiet_pickAllPass _ _ _ _) fun r => steady_ite _ (by simp) ?_
      exact Quiet.bind (quiet_pickAllPass _ _ _ _) fun _ => by simp

theorem steady_clickOutcome {m : ContainerM Unit} {R : ContainerState → ContainerState → Prop}
    (hm : Steady ContainerState.outline R m) :
    Steady ContainerState.outline R (clickOutcome m) := by
  intro c
  rw [wp_clickOutcome]
  exact hm c

theorem guarded_checkedAction (click : ContainerClick) :
    Guarded ContainerState.outline (checkedAction click) :=
  guarded_check steady_get fun _ =>
    steady_ite _ (guarded_fail _) (steady_clickOutcome (guarded_clickAction click))

/-! ### The end of a drag -/

theorem quiet_grownStack (carried : ItemStack) (amount : Nat) (destination : Option ItemStack) :
    QuietC (grownStack carried amount destination) := by
  cases destination with
  | none => exact steady_pure _
  | some stack => exact Quiet.bind (by simp) fun _ => by simp

theorem quiet_spend (kind : UInt8) (carried : ItemStack) (amount : Nat) :
    QuietC (spend kind carried amount) :=
  steady_ite _ (Quiet.bind (by simp) fun _ => by simp) (by simp)

theorem quiet_deposit (kind : UInt8) (perSlot index : Nat) (carried : ItemStack)
    (destination : Option ItemStack) (capacity : Nat) :
    QuietC (deposit kind perSlot index carried destination capacity) := by
  refine steady_ite _ (Quiet.bind (by simp) fun _ => by simp) ?_
  refine Quiet.bind (quiet_grownStack _ _ _) fun filled => ?_
  exact Quiet.bind (quiet_spend _ _ _) fun left => Quiet.bind (by simp) fun _ => by simp

theorem quiet_fillSlot (kind : UInt8) (perSlot index : Nat) (carried : ItemStack) :
    QuietC (fillSlot kind perSlot index carried) := by
  refine Quiet.bind (by simp) fun existing => ?_
  cases existing with
  | none => exact quiet_deposit _ _ _ _ _ _
  | some stack =>
    exact steady_ite _ (quiet_deposit _ _ _ _ _ _) (Quiet.bind (by simp) fun _ => by simp)

/-- Nothing is said of the state an error leaves. -/
abbrev SteadyOk {α : Type} (m : ContainerM α) : Prop :=
  Steady ContainerState.outline (fun _ _ => True) m

theorem SteadyOk.bind {α β : Type} {m : ContainerM α} {f : α → ContainerM β} (hm : SteadyOk m)
    (hf : ∀ a, SteadyOk (f a)) : SteadyOk (m >>= f) :=
  steady_bind hm hf (fun _ _ => id) fun _ _ _ _ => id

theorem steadyOk_slotIndex (slot : SlotIndex) : SteadyOk (slotIndex slot) := by
  intro c
  rw [wp_slotIndex]
  split
  · trivial
  · rfl

theorem steadyOk_fillSlots (kind : UInt8) (perSlot : Nat) (slots : List SlotIndex) :
    ∀ carried, SteadyOk (fillSlots kind perSlot slots carried) := by
  induction slots with
  | nil => exact fun _ => steady_pure _
  | cons slot rest ih =>
    intro carried
    refine steady_ite _ (steady_pure _) (SteadyOk.bind (steadyOk_slotIndex slot) fun index => ?_)
    exact SteadyOk.bind (quiet_fillSlot _ _ _ _).steady ih

theorem steadyOk_finishQuickCraft (gesture : QuickCraftGesture) :
    SteadyOk (finishQuickCraft gesture) := by
  refine SteadyOk.bind quiet_takeCarried.steady fun taken => ?_
  cases taken with
  | none => exact (guarded_fail _).weaken fun _ _ _ => trivial
  | some carried =>
    refine steady_ite _ (quiet_writeCarried _).steady (SteadyOk.bind ?_ fun perSlot => ?_)
    · refine steady_ite _ (by simp) (steady_ite _ (by simp) (steady_ite _ (by simp) ?_))
      exact (guarded_fail _).weaken fun _ _ _ => trivial
    · exact SteadyOk.bind (steadyOk_fillSlots _ _ _ _) fun left => (quiet_keepCarried left).steady

end Cubic.Inventory
