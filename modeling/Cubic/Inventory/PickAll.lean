import Cubic.Inventory.QuickCraft
import Mathlib.Algebra.BigOperators.Group.Finset.Basic

/-!
# What a double click collects

The cursor's room is dealt along the slots: first those that are not full, then the
full ones. A pass that fills the cursor leaves nothing for the slots after it.
-/

namespace Cubic.Inventory

set_option autoImplicit false

open Mut

def ContainerState.countAt (c : ContainerState) (i : Nat) : Nat :=
  ((c.slots[i]?.getD none).map ItemStack.count).getD 0

/-- A slot the cursor may collect from. -/
def Collectable (c : ContainerState) (held : ItemStack) (i : Nat) : Prop :=
  canTakeForPickAll c.menu i = true ∧
    ∃ content ∈ c.slots[i]?, ∃ stack ∈ content, stack.stackableWith held = true

instance (c : ContainerState) (held : ItemStack) (i : Nat) : Decidable (Collectable c held i) :=
  inferInstanceAs (Decidable (_ ∧ _))

def FullAt (c : ContainerState) (i : Nat) : Prop :=
  ∃ content ∈ c.slots[i]?, ∃ stack ∈ content, stack.count = stack.maxStackSize

instance (c : ContainerState) (i : Nat) : Decidable (FullAt c i) :=
  inferInstanceAs (Decidable (∃ _ ∈ _, _))

/-- A slot's content after so many items were taken off it. -/
def lessened (amount : Nat) : Option ItemStack → Option ItemStack
  | none => none
  | some stack => if amount = 0 then some stack else stack.withCount? (stack.count - amount)

/-- Every slot with the amount taken off it. -/
def ContainerState.lose (c : ContainerState) (amount : Nat → Nat) : ContainerState :=
  c.withSlots (c.slots.mapIdx fun i content => lessened (amount i) content)

@[simp] theorem lessened_zero (content : Option ItemStack) : lessened 0 content = content := by
  cases content <;> rfl

section Lose
variable {c : ContainerState} {amount : Nat → Nat} {i : Nat}

theorem getElem?_lose : (c.lose amount).slots[i]? = (c.slots[i]?).map (lessened (amount i)) :=
  List.getElem?_mapIdx

theorem getElem?_lose_of_zero (h : amount i = 0) : (c.lose amount).slots[i]? = c.slots[i]? := by
  rw [getElem?_lose, h]
  cases c.slots[i]? with
  | none => rfl
  | some content => exact congrArg some (lessened_zero content)

theorem lose_zero (h : ∀ i, amount i = 0) : c.lose amount = c := by
  unfold ContainerState.lose
  rw [mapIdx_self fun i content => by rw [h i]; exact lessened_zero content]
  rfl

/-- Taking off one slot and then off the others takes off them all. -/
theorem lose_set {content : Option ItemStack} (hi : c.slots[i]? = some content)
    (h : amount i = 0) (n : Nat) :
    (c.withSlots (c.slots.set i (lessened n content))).lose amount =
      c.lose (Function.update amount i n) := by
  have hslots := mapIdx_set (f := fun i content => lessened (amount i) content)
    (g := fun j content => lessened (Function.update amount i n j) content) hi
    (fun content => by rw [h]; exact lessened_zero content)
    fun j hj => by rw [Function.update_of_ne hj]
  rw [Function.update_self] at hslots
  exact congrArg c.withSlots hslots

theorem lose_withCarried (carried : Option ItemStack) :
    (c.withCarried carried).lose amount = (c.lose amount).withCarried carried := rfl

end Lose

/-! ### One pass -/

/-- The slots a pass takes from. -/
def Taken (c : ContainerState) (held : ItemStack) (fullPass : Bool) (i : Nat) : Prop :=
  Collectable c held i ∧ (FullAt c i ↔ fullPass = true)

instance (c : ContainerState) (held : ItemStack) (fullPass : Bool) (i : Nat) :
    Decidable (Taken c held fullPass i) := inferInstanceAs (Decidable (_ ∧ _))

def takenOf (c : ContainerState) (held : ItemStack) (fullPass : Bool) (indices : List Nat) :
    List Nat := indices.filter fun i => Taken c held fullPass i

/-- The cursor after it has taken `n` items more. -/
def ItemStack.more (held : ItemStack) (n : Nat) : ItemStack :=
  { held with count := held.count + n }

def ItemStack.space (held : ItemStack) : Nat := held.maxStackSize - held.count

@[simp] theorem stackableWith_more (stack held : ItemStack) (n : Nat) :
    stack.stackableWith (held.more n) = stack.stackableWith held := rfl

/-- The slots still to be visited are as they were when the pass began. -/
structure PassState (origin c : ContainerState) (held₀ held : ItemStack) (indices : List Nat) :
    Prop where
  slots : ∀ i ∈ indices, ∃ content, c.slots[i]? = some content ∧ origin.slots[i]? = some content
  carried : c.carried = some held
  same : held = { held₀ with count := held.count }
  counted : held.count ≤ held.maxStackSize

section Pass
variable {origin c : ContainerState} {held held₀ : ItemStack} {stack : ItemStack} {i : Nat}

theorem countAt_eq (hi : c.slots[i]? = some (some stack)) : c.countAt i = stack.count := by
  rw [ContainerState.countAt, hi]
  rfl

theorem collectable_iff (hi : c.slots[i]? = some (some stack)) :
    Collectable c held i ↔
      canTakeForPickAll c.menu i = true ∧ stack.stackableWith held = true := by
  unfold Collectable
  rw [hi]
  simp

theorem fullAt_iff (hi : c.slots[i]? = some (some stack)) :
    FullAt c i ↔ stack.count = stack.maxStackSize := by
  unfold FullAt
  rw [hi]
  simp

theorem not_collectable (hi : c.slots[i]? = some none) : ¬ Collectable c held i := by
  unfold Collectable
  rw [hi]
  simp

theorem lessened_eq (hpos : 1 ≤ stack.count) (n : Nat) :
    stack.withCount? (stack.count - n) = lessened n (some stack) := by
  change _ = if n = 0 then some stack else stack.withCount? (stack.count - n)
  by_cases hn : n = 0
  · subst hn
    exact if_neg (by omega)
  · rw [if_neg hn]

/-- What one slot gives to the cursor. -/
def gives (held stack : ItemStack) : Nat := min stack.count held.space

/-- One turn of the loop at a slot it takes from. -/
theorem take_eq {menu : MenuIdentity} {fullPass : Bool} {rest : List Nat}
    (hmenu : canTakeForPickAll menu i = true) (hi : c.slots[i]? = some (some stack))
    (hstack : stack.stackableWith held = true ∧ (stack.count = stack.maxStackSize ↔ fullPass = true))
    (hpos : 1 ≤ stack.count) (hle : held.count ≤ held.maxStackSize) :
    pickAllPass menu fullPass (i :: rest) held c =
      (if (held.more (gives held stack)).count = held.maxStackSize then
          pure (held.more (gives held stack), true)
        else pickAllPass menu fullPass rest (held.more (gives held stack)) :
        ContainerM (ItemStack × Bool))
      ((c.withSlots (c.slots.set i (lessened (gives held stack) (some stack)))).withCarried
        (some (held.more (gives held stack)))) := by
  have hread : readSlot i c = .ok (some stack) c := by
    simp only [readSlot, get_bind, Mut.index, hi]
    rfl
  have hle₁ : gives held stack ≤ stack.count := Nat.min_le_left _ _
  have hle₂ : gives held stack ≤ held.maxStackSize - held.count := Nat.min_le_right _ _
  have hmin : min stack.count (held.maxStackSize - held.count) = gives held stack := rfl
  generalize gives held stack = moved at *
  have hsub : (subU32 stack.count moved : ContainerM Nat) c =
      .ok (stack.count - moved) c := by
    simp only [subU32, if_pos hle₁]
    rfl
  have hadd : (addU32 held.count moved : ContainerM Nat) c = .ok (held.count + moved) c := by
    have hmax := held.maxStackSize_le
    simp only [addU32, if_pos (show held.count + moved < 2 ^ 32 by omega)]
    rfl
  have hcarry : writeCarried (some (held.more moved)) c =
      .ok () (c.withCarried (some (held.more moved))) := rfl
  have hwrite : ∀ o, writeSlot i o (c.withCarried (some (held.more moved))) =
      .ok () ((c.withSlots (c.slots.set i o)).withCarried (some (held.more moved))) := by
    intro o
    have hlt : i < (c.withCarried (some (held.more moved))).slots.length :=
      (List.getElem?_eq_some_iff.mp hi).1
    rw [writeSlot, get_bind, if_pos hlt]
    rfl
  rw [pickAllPass, if_neg (not_not.mpr hmenu), bind_of_ok hread]
  dsimp only
  rw [if_pos hstack, hmin, bind_of_ok hsub, bind_of_ok hadd]
  change (writeCarried (some (held.more moved)) >>= _) c = _
  rw [bind_of_ok hcarry, bind_of_ok (hwrite _), lessened_eq hpos]
  rfl

theorem skip_eq {menu : MenuIdentity} {fullPass : Bool} {rest : List Nat}
    {content : Option ItemStack} (hi : c.slots[i]? = some content)
    (hskip : canTakeForPickAll menu i = true → ∀ stack ∈ content,
      ¬ (stack.stackableWith held = true ∧ (stack.count = stack.maxStackSize ↔ fullPass = true))) :
    pickAllPass menu fullPass (i :: rest) held c = pickAllPass menu fullPass rest held c := by
  have hread : readSlot i c = .ok content c := by
    simp only [readSlot, get_bind, Mut.index, hi]
    rfl
  rw [pickAllPass]
  split
  · rfl
  · rename_i hmenu
    rw [bind_of_ok hread]
    cases content with
    | none => rfl
    | some stack =>
      dsimp only
      rw [if_neg (hskip (not_not.mp hmenu) stack rfl)]

end Pass

theorem pickAllPass_eq {origin : ContainerState} {held₀ : ItemStack}
    (hpos : ∀ o ∈ origin.slots, ∀ stack ∈ o, 1 ≤ stack.count) (fullPass : Bool)
    (indices : List Nat) :
    ∀ {c : ContainerState} {held : ItemStack}, indices.Nodup →
      PassState origin c held₀ held indices →
      ∃ full, pickAllPass origin.menu fullPass indices held c =
        .ok (held.more (min held.space
            ((takenOf origin held₀ fullPass indices).map origin.countAt).sum), full)
          ((c.lose (dealt origin.countAt (takenOf origin held₀ fullPass indices)
            held.space)).withCarried (some (held.more (min held.space
              ((takenOf origin held₀ fullPass indices).map origin.countAt).sum)))) ∧
        (full = true → held.space ≤
          ((takenOf origin held₀ fullPass indices).map origin.countAt).sum) ∧
        (full = false → ((takenOf origin held₀ fullPass indices).map origin.countAt).sum ≤
          held.space) := by
  induction indices with
  | nil =>
    intro c held _ h
    have hlose : c.lose (dealt origin.countAt [] held.space) = c := lose_zero fun i => rfl
    have hmore : held.more (min held.space 0) = held := by
      rw [Nat.min_zero]
      rfl
    refine ⟨false, ?_, fun hfalse => absurd hfalse Bool.false_ne_true, fun _ => Nat.zero_le _⟩
    change Outcome.ok (held, false) c = .ok (held.more (min held.space 0), false)
      ((c.lose (dealt origin.countAt [] held.space)).withCarried
        (some (held.more (min held.space 0))))
    rw [hmore, hlose, c.withCarried_self _ h.carried]
  | cons index rest ih =>
    intro c held hnodup h
    obtain ⟨hfresh, hnodup'⟩ := List.nodup_cons.mp hnodup
    obtain ⟨⟨content, hcontent, horigin⟩, hrest⟩ := List.forall_mem_cons.mp h.slots
    have hstackable : ∀ stack : ItemStack,
        stack.stackableWith held = stack.stackableWith held₀ := by
      intro stack
      rw [h.same]
      rfl
    by_cases htaken : Taken origin held₀ fullPass index
    · cases content with
      | none => exact absurd htaken.1 (not_collectable horigin)
      | some stack =>
        obtain ⟨hmenu, hstack⟩ := (collectable_iff horigin).mp htaken.1
        rw [← hstackable] at hstack
        have hfull := (fullAt_iff horigin).symm.trans htaken.2
        have hone := hpos _ (List.mem_of_getElem? horigin) stack rfl
        have hfilter : takenOf origin held₀ fullPass (index :: rest) =
            index :: takenOf origin held₀ fullPass rest :=
          List.filter_cons_of_pos (by simpa using htaken)
        have hunserved : index ∉ takenOf origin held₀ fullPass rest :=
          fun hmem => hfresh (List.mem_of_mem_filter hmem)
        have hcounted := h.counted
        rw [take_eq hmenu hcontent ⟨hstack, hfull⟩ hone hcounted, hfilter, List.map_cons,
          List.sum_cons, dealt_cons, countAt_eq horigin]
        generalize (takenOf origin held₀ fullPass rest).map origin.countAt = wishes at *
        have hgives : gives held stack = min stack.count held.space := rfl
        have hspace : held.space = held.maxStackSize - held.count := rfl
        split
        · -- The cursor is full, and nothing is left for the slots after this one.
          rename_i hcursor
          change held.count + gives held stack = held.maxStackSize at hcursor
          refine ⟨true, ?_, fun _ => by omega, fun hfalse => absurd hfalse.symm Bool.false_ne_true⟩
          have hall : min held.space (stack.count + wishes.sum) = gives held stack := by omega
          have hnone : held.space - stack.count = 0 := by omega
          rw [hall, hnone, ← hgives, ← lose_set hcontent dealt_zero, lose_zero fun _ => dealt_zero]
          rfl
        · rename_i hcursor
          change held.count + gives held stack ≠ held.maxStackSize at hcursor
          have hleft : (held.more (gives held stack)).space = held.space - stack.count := by
            change held.maxStackSize - (held.count + gives held stack) = _
            omega
          have hnext : PassState origin
              ((c.withSlots (c.slots.set index (lessened (gives held stack) (some stack)))).withCarried
                (some (held.more (gives held stack))))
              held₀ (held.more (gives held stack)) rest := by
            refine ⟨fun j hj => ?_, rfl, ?_, ?_⟩
            · have hne : index ≠ j := fun heq => hfresh (heq ▸ hj)
              obtain ⟨content, hc, ho⟩ := hrest j hj
              exact ⟨content, (List.getElem?_set_ne hne).trans hc, ho⟩
            · exact congrArg (ItemStack.more · (gives held stack)) h.same
            · change held.count + gives held stack ≤ held.maxStackSize
              omega
          obtain ⟨full, hrun, hfilled, hunfilled⟩ := ih hnodup' hnext
          have htotal : (held.more (gives held stack)).more
              (min (held.space - stack.count) wishes.sum) =
                held.more (min held.space (stack.count + wishes.sum)) := by
            simp only [ItemStack.more, ItemStack.mk.injEq, true_and, and_true]
            omega
          rw [hleft] at hrun hfilled hunfilled
          refine ⟨full, ?_, fun hf => ?_, fun hf => ?_⟩
          · rw [hrun, htotal, lose_withCarried, lose_set hcontent (dealt_of_not_mem hunserved _)]
            rfl
          · have hle := hfilled hf
            omega
          · have hle := hunfilled hf
            omega
    · have hnext : PassState origin c held₀ held rest := ⟨hrest, h.carried, h.same, h.counted⟩
      have hfilter : takenOf origin held₀ fullPass (index :: rest) =
          takenOf origin held₀ fullPass rest := List.filter_cons_of_neg (by simpa using htaken)
      rw [skip_eq hcontent, hfilter]
      · exact ih hnodup' hnext
      · rintro hmenu stack rfl ⟨hstack, hfull⟩
        refine htaken ⟨(collectable_iff horigin).mpr ⟨hmenu, ?_⟩, (fullAt_iff horigin).trans hfull⟩
        rw [← hstackable]
        exact hstack

/-! ### Both passes -/

section Passes
variable {c : ContainerState} {held : ItemStack}

def notFull (c : ContainerState) (held : ItemStack) : List Nat :=
  takenOf c held false (List.range c.slots.length)

def full (c : ContainerState) (held : ItemStack) : List Nat :=
  takenOf c held true (List.range c.slots.length)

/-- What each slot gives up to the cursor. -/
def collectedFrom (c : ContainerState) (held : ItemStack) : Nat → Nat :=
  dealt c.countAt (notFull c held ++ full c held) held.space

theorem mem_takenOf {fullPass : Bool} {i : Nat} :
    i ∈ takenOf c held fullPass (List.range c.slots.length) ↔ Taken c held fullPass i := by
  unfold takenOf
  rw [List.mem_filter, decide_eq_true_iff, List.mem_range]
  refine and_iff_right_of_imp fun h => ?_
  obtain ⟨-, content, hcontent, -⟩ := h.1
  exact (List.getElem?_eq_some_iff.mp hcontent).1

theorem not_mem_full {i : Nat} (h : i ∈ notFull c held) : i ∉ full c held := by
  intro hfull
  have hno := (mem_takenOf.mp h).2.not.mpr Bool.false_ne_true
  exact hno ((mem_takenOf.mp hfull).2.mpr rfl)

/-- The full slots are served from what the others leave. -/
theorem collectedFrom_eq (i : Nat) : collectedFrom c held i =
    dealt c.countAt (notFull c held) held.space i +
      dealt c.countAt (full c held) (held.space - ((notFull c held).map c.countAt).sum) i := by
  unfold collectedFrom
  by_cases hi : i ∈ notFull c held
  · rw [dealt_append_of_mem hi, dealt_of_not_mem (not_mem_full hi), Nat.add_zero]
  · rw [dealt_append_of_not_mem hi, dealt_of_not_mem hi, Nat.zero_add]

theorem lose_lose {a b : Nat → Nat} (h : ∀ i, a i = 0 ∨ b i = 0) :
    (c.lose a).lose b = c.lose fun i => a i + b i := by
  have hslots : ((c.lose a).lose b).slots = (c.lose fun i => a i + b i).slots := by
    apply List.ext_getElem?
    intro i
    rw [getElem?_lose, getElem?_lose, getElem?_lose, Option.map_map]
    congr 1
    funext content
    rcases h i with ha | hb
    · rw [ha, Nat.zero_add, Function.comp_apply, lessened_zero]
    · rw [hb, Nat.add_zero, Function.comp_apply, lessened_zero]
  exact congrArg c.withSlots hslots

/-- A slot that gives up all it holds is left empty. -/
theorem getElem?_lose_all {amount : Nat → Nat} {i : Nat} {stack : ItemStack}
    (hi : c.slots[i]? = some (some stack)) (hpos : 1 ≤ stack.count)
    (h : amount i = c.countAt i) : (c.lose amount).slots[i]? = some none := by
  rw [getElem?_lose, hi, h, countAt_eq hi]
  refine congrArg some ?_
  rw [← lessened_eq hpos, Nat.sub_self]
  exact if_pos rfl

theorem stack_of_collectable {i : Nat} (h : Collectable c held i) :
    ∃ stack, c.slots[i]? = some (some stack) := by
  obtain ⟨-, content, hcontent, stack, rfl, -⟩ := h
  exact ⟨stack, hcontent⟩

theorem taken_congr {c' : ContainerState} {held' : ItemStack} {fullPass : Bool} {i : Nat}
    (hmenu : c'.menu = c.menu) (hslot : c'.slots[i]? = c.slots[i]?)
    (hheld : ∀ stack : ItemStack, stack.stackableWith held' = stack.stackableWith held) :
    Taken c' held' fullPass i ↔ Taken c held fullPass i := by
  simp only [Taken, Collectable, FullAt, hmenu, hslot, hheld]

/-- The container and the cursor between the two passes. -/
structure Between (c c₁ : ContainerState) (held held₁ : ItemStack) : Prop where
  menu : c₁.menu = c.menu
  length : c₁.slots.length = c.slots.length
  carried : c₁.carried = some held₁
  kind : ∀ stack : ItemStack, stack.stackableWith held₁ = stack.stackableWith held
  emptied : ∀ i ∈ notFull c held, c₁.slots[i]? = some none
  kept : ∀ i, i ∉ notFull c held → c₁.slots[i]? = c.slots[i]?

/-- The second pass finds the full slots as they were, and no others. -/
theorem Between.takenOf_eq {c₁ : ContainerState} {held₁ : ItemStack}
    (h : Between c c₁ held held₁) :
    takenOf c₁ held₁ true (List.range c.slots.length) = full c held := by
  refine List.filter_congr fun i _ => ?_
  rw [decide_eq_decide]
  by_cases hi : i ∈ notFull c held
  · refine iff_of_false ?_ ?_
    · exact fun htaken => not_collectable (h.emptied i hi) htaken.1
    · exact fun htaken => not_mem_full hi (mem_takenOf.mpr htaken)
  · exact taken_congr h.menu (h.kept i hi) h.kind

theorem Between.countAt_eq {c₁ : ContainerState} {held₁ : ItemStack}
    (h : Between c c₁ held held₁) : ∀ i ∈ full c held, c₁.countAt i = c.countAt i := by
  intro i hi
  have hkept := h.kept i fun hmem => not_mem_full hmem hi
  rw [ContainerState.countAt, ContainerState.countAt, hkept]

theorem Between.pos {c₁ : ContainerState} {held₁ : ItemStack} (h : Between c c₁ held held₁)
    (hpos : ∀ o ∈ c.slots, ∀ stack ∈ o, 1 ≤ stack.count) :
    ∀ o ∈ c₁.slots, ∀ stack ∈ o, 1 ≤ stack.count := by
  intro o ho stack hstack
  obtain ⟨i, hi⟩ := List.mem_iff_getElem?.mp ho
  by_cases hmem : i ∈ notFull c held
  · cases hi.symm.trans (h.emptied i hmem)
    cases hstack
  · exact hpos o (List.mem_of_getElem? ((h.kept i hmem).symm.trans hi)) stack hstack

theorem passState_self (hheld : c.carried = some held) (hle : held.count ≤ held.maxStackSize) :
    PassState c c held held (List.range c.slots.length) := by
  refine ⟨fun i hi => ?_, hheld, rfl, hle⟩
  have hget := List.getElem?_eq_getElem (List.mem_range.mp hi)
  exact ⟨_, hget, hget⟩

theorem Between.secondPass {c₁ : ContainerState} {held₁ : ItemStack}
    (h : Between c c₁ held held₁) (hpos : ∀ o ∈ c.slots, ∀ stack ∈ o, 1 ≤ stack.count)
    (hle : held₁.count ≤ held₁.maxStackSize) :
    ∃ filled, pickAllPass c.menu true (List.range c.slots.length) held₁ c₁ =
      .ok (held₁.more (min held₁.space ((full c held).map c.countAt).sum), filled)
        ((c₁.lose (dealt c.countAt (full c held) held₁.space)).withCarried
          (some (held₁.more (min held₁.space ((full c held).map c.countAt).sum)))) := by
  obtain ⟨filled, hrun, -⟩ := pickAllPass_eq (h.pos hpos) true
    (List.range c₁.slots.length) List.nodup_range (passState_self h.carried hle)
  have hdealt : dealt c₁.countAt (full c held) held₁.space =
      dealt c.countAt (full c held) held₁.space :=
    funext fun i => dealt_congr h.countAt_eq _
  rw [h.length, h.takenOf_eq, List.map_congr_left h.countAt_eq, hdealt, h.menu] at hrun
  exact ⟨filled, hrun⟩

theorem pickupAll_eq (hcounts : c.WellCounted) (hheld : c.carried = some held) :
    pickupAll 0 c = .ok () ((c.lose (collectedFrom c held)).withCarried
      (some (held.more (min held.space
        (((notFull c held).map c.countAt).sum + ((full c held).map c.countAt).sum))))) := by
  have hpos : ∀ o ∈ c.slots, ∀ stack ∈ o, 1 ≤ stack.count :=
    fun o ho stack hstack => (hcounts.1 o ho stack hstack).1
  have hle : held.count ≤ held.maxStackSize := (hcounts.2 held hheld).2
  obtain ⟨filled, hrun, hfilled, hunfilled⟩ :=
    pickAllPass_eq hpos false (List.range c.slots.length) List.nodup_range
      (passState_self hheld hle)
  rw [← notFull] at hrun hfilled hunfilled
  generalize hsum : ((notFull c held).map c.countAt).sum = first at *
  have hamounts : collectedFrom c held = fun i => dealt c.countAt (notFull c held) held.space i +
      dealt c.countAt (full c held) (held.space - first) i := by
    rw [← hsum]
    exact funext collectedFrom_eq
  unfold pickupAll
  rw [if_neg (by decide), get_bind, hheld]
  dsimp only
  rw [bind_of_ok hrun]
  dsimp only
  cases filled with
  | true =>
    have hspace := hfilled rfl
    have hcursor : min held.space (first + ((full c held).map c.countAt).sum) =
        min held.space first := by omega
    have hnone : held.space - first = 0 := by omega
    have hsame : collectedFrom c held = dealt c.countAt (notFull c held) held.space := by
      rw [hamounts, hnone]
      funext i
      rw [dealt_zero, Nat.add_zero]
    rw [hcursor, hsame]
    rfl
  | false =>
    have hspace := hunfilled rfl
    have hfirst : min held.space first = first := Nat.min_eq_right hspace
    rw [hfirst]
    generalize hmid : (c.lose (dealt c.countAt (notFull c held) held.space)).withCarried
      (some (held.more first)) = c₁
    have hbetween : Between c c₁ held (held.more first) := by
      subst hmid
      refine ⟨rfl, List.length_mapIdx, rfl, fun _ => rfl, fun i hi => ?_, fun i hi => ?_⟩
      · obtain ⟨stack, hstack⟩ := stack_of_collectable (mem_takenOf.mp hi).1
        refine getElem?_lose_all hstack (hpos _ (List.mem_of_getElem? hstack) stack rfl) ?_
        exact dealt_of_sum_le hi (hsum ▸ hspace)
      · exact getElem?_lose_of_zero (dealt_of_not_mem hi _)
    have hle₁ : (held.more first).count ≤ (held.more first).maxStackSize := by
      have hroom : held.space = held.maxStackSize - held.count := rfl
      change held.count + first ≤ held.maxStackSize
      omega
    obtain ⟨filled₂, hrun₂⟩ := hbetween.secondPass hpos hle₁
    have hleft : (held.more first).space = held.space - first := by
      change held.maxStackSize - (held.count + first) = held.maxStackSize - held.count - first
      omega
    have htotal : (held.more first).more
        (min (held.space - first) ((full c held).map c.countAt).sum) =
          held.more (min held.space (first + ((full c held).map c.countAt).sum)) := by
      simp only [ItemStack.more, ItemStack.mk.injEq, true_and, and_true]
      omega
    rw [hleft, htotal] at hrun₂
    have hdisjoint : ∀ i, dealt c.countAt (notFull c held) held.space i = 0 ∨
        dealt c.countAt (full c held) (held.space - first) i = 0 := by
      intro i
      by_cases hi : i ∈ notFull c held
      · exact Or.inr (dealt_of_not_mem (not_mem_full hi) _)
      · exact Or.inl (dealt_of_not_mem hi _)
    rw [if_neg Bool.false_ne_true, bind_of_ok hrun₂, hamounts, ← lose_lose hdisjoint, ← hmid]
    rfl

/-- The two passes together take from every collectable slot. -/
theorem sum_collectable :
    ((notFull c held).map c.countAt).sum + ((full c held).map c.countAt).sum =
      ∑ i ∈ Finset.range c.slots.length with Collectable c held i, c.countAt i := by
  have hsum : ∀ fullPass : Bool,
      ((takenOf c held fullPass (List.range c.slots.length)).map c.countAt).sum =
        ∑ i ∈ Finset.range c.slots.length with Taken c held fullPass i, c.countAt i := by
    intro fullPass
    have hrange : (List.range c.slots.length).toFinset = Finset.range c.slots.length := by
      ext i
      rw [List.mem_toFinset, List.mem_range, Finset.mem_range]
    rw [takenOf, ← List.sum_toFinset _ (List.nodup_range.filter _), List.toFinset_filter, hrange]
    simp only [decide_eq_true_eq]
  have hsplit := Finset.sum_filter_add_sum_filter_not
    {i ∈ Finset.range c.slots.length | Collectable c held i} (fun i => FullAt c i) c.countAt
  rw [Finset.filter_filter, Finset.filter_filter] at hsplit
  rw [notFull, full, hsum, hsum, add_comm, ← hsplit]
  simp only [Taken, iff_true, Bool.false_eq_true, iff_false]

end Passes

/-- What a double click does to a container and the stack on its cursor. -/
structure Collected (c : ContainerState) (held : ItemStack) (c' : ContainerState) : Prop where
  carried : c'.carried = some { held with
    count := min held.maxStackSize
      (held.count + ∑ i ∈ Finset.range c.slots.length with Collectable c held i, c.countAt i) }
  untouched : ∀ i, ¬ Collectable c held i → c'.slots[i]? = c.slots[i]?
  fullLast : ∀ (i : Nat) (stack : ItemStack), c.slots[i]? = some (some stack) → stack.count = stack.maxStackSize →
    c'.slots[i]? ≠ c.slots[i]? → ∀ (j : Nat) (other : ItemStack), Collectable c held j →
      c.slots[j]? = some (some other) → other.count ≠ other.maxStackSize →
        c'.slots[j]? = some none

theorem collected_pickupAll {c : ContainerState} {held : ItemStack} (hcounts : c.WellCounted)
    (hheld : c.carried = some held) :
    ∃ c', pickupAll 0 c = .ok () c' ∧ Collected c held c' := by
  refine ⟨_, pickupAll_eq hcounts hheld, ?_, fun i hi => ?_, ?_⟩
  · have hle := (hcounts.2 held hheld).2
    rw [sum_collectable]
    generalize (∑ i ∈ Finset.range c.slots.length with Collectable c held i, c.countAt i) = total
    refine congrArg some ?_
    change ({ held with count := held.count + min held.space total } : ItemStack) = _
    have hspace : held.space = held.maxStackSize - held.count := rfl
    rw [show held.count + min held.space total = min held.maxStackSize (held.count + total) by omega]
  · refine getElem?_lose_of_zero (dealt_of_not_mem ?_ _)
    rw [List.mem_append, not_or]
    exact ⟨fun h => hi (mem_takenOf.mp h).1, fun h => hi (mem_takenOf.mp h).1⟩
  · intro i stack hi hfull hchanged j other hj hother hcount
    have hnotFirst : i ∉ notFull c held := fun h =>
      Bool.false_ne_true ((mem_takenOf.mp h).2.mp ((fullAt_iff hi).mpr hfull))
    have hfirst : j ∈ notFull c held :=
      mem_takenOf.mpr ⟨hj, iff_of_false ((fullAt_iff hother).not.mpr hcount) Bool.false_ne_true⟩
    -- Something was left for the full slots, so the others got all they had.
    have hleft : ((notFull c held).map c.countAt).sum < held.space := by
      by_contra hnot
      refine hchanged (getElem?_lose_of_zero ?_)
      rw [collectedFrom_eq, dealt_of_not_mem hnotFirst, Nat.sub_eq_zero_of_le (Nat.not_lt.mp hnot),
        dealt_zero]
    have hpos := (hcounts.1 _ (List.mem_of_getElem? hother) other rfl).1
    refine getElem?_lose_all hother hpos ?_
    rw [collectedFrom_eq, dealt_of_sum_le hfirst hleft.le, dealt_of_not_mem (not_mem_full hfirst),
      Nat.add_zero]

/-- An accepted double click with a stack on the cursor. -/
theorem applyClick_collects {click : ContainerClick} {s s' : InventoryState}
    {outcome : ClickOutcome} {c : ContainerState} {held : ItemStack}
    (hkind : click.kind = .pickupAll) (hc : s.container? click.container = some c)
    (hcounts : c.WellCounted) (hheld : c.carried = some held)
    (h : applyClick click s = .ok outcome s') :
    ∃ c', s'.container? click.container = some c' ∧ Collected c held c' := by
  have hne : click.kind ≠ .quickCraft := by
    rw [hkind]
    decide
  obtain ⟨c₀, c', -, hran⟩ := applyClick_ran hne h
  cases hc.symm.trans hran.before
  have hrun := hran.run
  have hafter := (hran.reports (guarded_clickAction click)).1
  unfold clickAction at hrun
  rw [hkind] at hrun
  dsimp only at hrun
  by_cases hbutton : click.button = 0
  · obtain ⟨c'', hrun', hcollected⟩ := collected_pickupAll hcounts hheld
    rw [hbutton, hrun'] at hrun
    cases hrun
    exact ⟨c', hafter, hcollected⟩
  · rw [pickupAll, if_pos hbutton] at hrun
    cases hrun

/-- Ten items on the cursor, a full stack before two that are not. -/
theorem applyClick_collects_stones :
    let c := (InventoryState.new.player.withSlots (List.replicate 9 none ++
      [some (stone 64), some (stone 30), some (stone 20)] ++ List.replicate 34 none)).withCarried
        (some (stone 10))
    let s : InventoryState := { InventoryState.new with player := c }
    ∃ outcome s', applyClick ⟨⟨0⟩, 0, ⟨9⟩, 0, .pickupAll⟩ s = .ok outcome s' ∧
      ∃ c', s'.container? ⟨0⟩ = some c' ∧ Collected c (stone 10) c' := by
  intro c s
  have hrun : (applyClick ⟨⟨0⟩, 0, ⟨9⟩, 0, .pickupAll⟩ s).value?.isSome := by decide +kernel
  obtain ⟨outcome, s', h⟩ := Outcome.exists_of_value? hrun
  exact ⟨outcome, s', h, applyClick_collects rfl rfl (by decide +kernel) rfl h⟩

end Cubic.Inventory
