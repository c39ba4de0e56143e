import Cubic.Inventory.State
import Cubic.Lib.Tally

/-!
# Counts under clicks

One pass over the operations of `inventory.rs` shows three things at once: they do
not panic on stacks with sane counts, they keep the counts sane, and those that only
move items keep the number of items of every kind.
-/

namespace Cubic.Inventory

set_option autoImplicit false

/-- A property of counts that the operations can maintain: it holds a `u32` count
of at least one, and survives any count up to the larger of the old count and the
maximum stack size. -/
structure CountLaw (P : ItemStack → Prop) : Prop where
  pos : ∀ {s}, P s → 1 ≤ s.count
  fits : ∀ {s}, P s → s.count < 2 ^ 32
  resize : ∀ {s n}, P s → 1 ≤ n → n ≤ max s.count s.maxStackSize → P { s with count := n }

theorem wellCounted_law : CountLaw ItemStack.WellCounted where
  pos h := h.1
  fits {s} h := by
    have := s.maxStackSize_le
    exact lt_of_le_of_lt (h.2.trans this) (by decide)
  resize {s n} h h1 hn := ⟨h1, by simpa [h.2] using hn⟩

/-- A count of at least one that is a `u32`. -/
def ItemStack.Counted (s : ItemStack) : Prop := 1 ≤ s.count ∧ s.count < 2 ^ 32

instance (s : ItemStack) : Decidable s.Counted := inferInstanceAs (Decidable (_ ∧ _))

theorem counted_law : CountLaw ItemStack.Counted where
  pos h := h.1
  fits h := h.2
  resize {s n} h h1 hn := by
    have := s.maxStackSize_le
    refine ⟨h1, lt_of_le_of_lt hn ?_⟩
    simp only [max_lt_iff]
    exact ⟨h.2, lt_of_le_of_lt this (by decide)⟩

abbrev Key := MinecraftIdentifier × ComponentPatch

/-- What `n` items like `s` add to the number of items of kind `key`. -/
def ItemStack.share (s : ItemStack) (key : Key) (n : Nat) : Nat := if s.key = key then n else 0

def weight (key : Key) : Option ItemStack → Nat
  | none => 0
  | some s => s.share key s.count

/-- The number of items of kind `key` in the slots and on the cursor. -/
def ContainerState.tally (c : ContainerState) (key : Key) : Nat :=
  (c.slots.map (weight key)).sum + weight key c.carried

@[simp] theorem weight_none (key : Key) : weight key none = 0 := rfl

@[simp] theorem weight_some (key : Key) (s : ItemStack) :
    weight key (some s) = s.share key s.count := rfl

@[simp] theorem weight_withCount? (key : Key) (s : ItemStack) (n : Nat) :
    weight key (s.withCount? n) = s.share key n := by
  unfold ItemStack.withCount?
  split
  · rename_i h
    simp [ItemStack.share, h]
  · rfl

@[simp] theorem share_withCount (key : Key) (s : ItemStack) (m n : Nat) :
    ({ s with count := m } : ItemStack).share key n = s.share key n := rfl

@[simp] theorem share_zero (key : Key) (s : ItemStack) : s.share key 0 = 0 := by
  simp [ItemStack.share]

theorem share_congr {s t : ItemStack} (h : s.key = t.key) (key : Key) (n : Nat) :
    s.share key n = t.share key n := by
  simp only [ItemStack.share, h]

/-- Items split over two places are counted at both. -/
theorem share_add (s : ItemStack) (key : Key) {l m n : Nat} (h : l + m = n) :
    s.share key l + s.share key m = s.share key n := by
  unfold ItemStack.share
  split <;> omega

/-- Everything but the stacks. -/
def ContainerState.frame (c : ContainerState) : ContainerState :=
  (c.withSlots []).withCarried none

/-- Every stack in a slot or on the cursor satisfies `P`, and only the stacks may
differ from `origin`. -/
structure ContainerState.Sound (P : ItemStack → Prop) (c origin : ContainerState) : Prop where
  frame : c.frame = origin.frame
  length : c.slots.length = origin.slots.length
  slots : ∀ o ∈ c.slots, ∀ s ∈ o, P s
  carried : ∀ s ∈ c.carried, P s

section Writes
variable {P : ItemStack → Prop} {origin c : ContainerState}

theorem ContainerState.Sound.setSlot (h : c.Sound P origin) (i : Nat) {o : Option ItemStack}
    (ho : ∀ s ∈ o, P s) : (c.withSlots (c.slots.set i o)).Sound P origin :=
  ⟨h.frame, by simpa using h.length, forall_mem_set h.slots i ho, h.carried⟩

theorem ContainerState.Sound.setCarried (h : c.Sound P origin) {o : Option ItemStack}
    (ho : ∀ s ∈ o, P s) : (c.withCarried o).Sound P origin :=
  ⟨h.frame, h.length, h.slots, ho⟩

theorem ContainerState.Sound.slot (h : c.Sound P origin) {i : Nat} {s : ItemStack}
    (hi : c.slots[i]? = some (some s)) : P s :=
  h.slots _ (List.mem_of_getElem? hi) s rfl

theorem tally_setSlot (key : Key) {i : Nat} {old : Option ItemStack} (h : c.slots[i]? = some old)
    (o : Option ItemStack) :
    (c.withSlots (c.slots.set i o)).tally key + weight key old =
      c.tally key + weight key o := by
  have hsum := sum_map_set (weight key) h o
  simp only [ContainerState.tally, ContainerState.withSlots_slots,
    ContainerState.withSlots_carried]
  omega

theorem tally_setCarried (key : Key) (o : Option ItemStack) :
    (c.withCarried o).tally key + weight key c.carried =
      c.tally key + weight key o := by
  simp only [ContainerState.tally, ContainerState.withCarried_slots,
    ContainerState.withCarried_carried]
  omega

end Writes

/-! ### Symbolic execution of the accessors -/

section Accessors
variable {c : ContainerState} {i : Nat} {o : Option ItemStack}

theorem slotIndex?_lt {slot : SlotIndex} (h : c.slotIndex? slot = some i) :
    i < c.slots.length := by
  unfold ContainerState.slotIndex? at h
  split at h
  · cases h
  · split at h
    · cases h
      assumption
    · cases h

theorem wp_slotIndex {Q : Post InventoryError ContainerState Nat} (slot : SlotIndex) :
    Mut.wp (slotIndex slot) Q c ↔ match c.slotIndex? slot with
      | none => Q.err (.invalidSlot slot.val) c
      | some i => Q.ok i c := by
  simp only [slotIndex, Mut.wp_bind, Mut.wp_get]
  cases c.slotIndex? slot <;> exact Iff.rfl

theorem wp_readSlot {Q : Post InventoryError ContainerState (Option ItemStack)}
    (h : c.slots[i]? = some o) : Mut.wp (readSlot i) Q c ↔ Q.ok o c := by
  simp only [readSlot, Mut.wp_bind, Mut.wp_get, Mut.wp_index h]

theorem wp_writeSlot {Q : Post InventoryError ContainerState Unit} (h : i < c.slots.length)
    (o : Option ItemStack) :
    Mut.wp (writeSlot i o) Q c ↔ Q.ok () (c.withSlots (c.slots.set i o)) := by
  simp only [writeSlot, Mut.wp_bind, Mut.wp_get, if_pos h, Mut.wp_set]

theorem wp_takeSlot {Q : Post InventoryError ContainerState (Option ItemStack)}
    (h : c.slots[i]? = some o) :
    Mut.wp (takeSlot i) Q c ↔ Q.ok o (c.withSlots (c.slots.set i none)) := by
  have hi : i < c.slots.length := (List.getElem?_eq_some_iff.mp h).1
  simp only [takeSlot, Mut.wp_bind, wp_readSlot h, wp_writeSlot hi, Mut.wp_pure]

@[simp] theorem wp_writeCarried {Q : Post InventoryError ContainerState Unit}
    (o : Option ItemStack) : Mut.wp (writeCarried o) Q c ↔ Q.ok () (c.withCarried o) :=
  Iff.rfl

@[simp] theorem wp_takeCarried {Q : Post InventoryError ContainerState (Option ItemStack)} :
    Mut.wp takeCarried Q c ↔ Q.ok c.carried (c.withCarried none) := Iff.rfl

end Accessors

variable {P : ItemStack → Prop} {origin : ContainerState}

/-- A call that only moves items about: it never panics, stacks stay sound, and on
success every kind of item is as numerous as before. -/
def moves (P : ItemStack → Prop) (origin : ContainerState) {α : Type} (c : ContainerState) :
    Post InventoryError ContainerState α :=
  ⟨fun _ c' => c'.Sound P origin ∧ ∀ key, c'.tally key = c.tally key, fun _ c' => c'.Sound P origin, False⟩

theorem CountLaw.withCount? (law : CountLaw P) {s : ItemStack} (h : P s) {m : Nat}
    (hm : m ≤ max s.count s.maxStackSize) : ∀ t ∈ s.withCount? m, P t := by
  intro t ht
  unfold ItemStack.withCount? at ht
  split at ht
  · cases ht
  · cases ht
    exact law.resize h (by omega) hm

/-! ### Pickup -/

theorem wp_keepCarried {Q : Post InventoryError ContainerState Unit} {c : ContainerState}
    (hc : c.carried = none) (s : ItemStack) :
    Mut.wp (keepCarried s) Q c ↔ Q.ok () (c.withCarried (s.withCount? s.count)) := by
  unfold keepCarried ItemStack.withCount?
  by_cases h : s.count = 0
  · simp only [h, ne_eq, not_true_eq_false, if_false, if_true, Mut.wp_pure]
    rw [c.withCarried_self none hc]
  · simp only [ne_eq, h, not_false_eq_true, if_true, if_false, wp_writeCarried]

/-- What `pickup` does with the cursor and the slot's content, both in hand. -/
theorem pickupExchange_spec (law : CountLaw P) (button : Int8) {carried target : Option ItemStack}
    (hcarried : ∀ s ∈ carried, P s) (htarget : ∀ s ∈ target, P s) {c : ContainerState}
    (hc : c.carried = none) :
    Mut.wp (pickupExchange button carried target)
      ⟨fun t c' => ∃ o, c' = c.withCarried o ∧ (∀ s ∈ o, P s) ∧ (∀ s ∈ t, P s) ∧
        ∀ key, weight key o + weight key t = weight key carried + weight key target,
        fun _ _ => False, False⟩ c := by
  have hself := (c.withCarried_self none hc).symm
  match carried, target with
  | none, none => exact ⟨none, hself, by simp, by simp, by simp⟩
  | none, some stack =>
    have hs := htarget stack rfl
    have hpos := law.pos hs
    by_cases hb : button = 0
    · simp only [pickupExchange, if_pos hb, Mut.wp_bind, wp_writeCarried, Mut.wp_pure]
      exact ⟨some stack, rfl, htarget, by simp, by simp⟩
    · have htaken : (stack.count + 1) / 2 ≤ stack.count := by omega
      simp only [pickupExchange, if_neg hb, Mut.wp_bind, Mut.wp_subU32, if_pos htaken,
        wp_writeCarried, Mut.wp_pure]
      refine ⟨_, rfl, ?_, law.withCount? hs (by omega), ?_⟩
      · rintro s ⟨⟩
        exact law.resize hs (by omega) (by omega)
      · intro key
        simp only [weight_some, share_withCount, weight_withCount?, weight_none]
        rw [Nat.zero_add]
        exact share_add _ key (by omega)
  | some carried, none =>
    have hh := hcarried carried rfl
    have hpos := law.pos hh
    by_cases hb : button = 0
    · simp only [pickupExchange, if_pos hb, Mut.wp_pure]
      exact ⟨none, hself, by simp, hcarried, by simp⟩
    · simp only [pickupExchange, if_neg hb, Mut.wp_bind, Mut.wp_subU32, if_pos hpos,
        wp_keepCarried hc, Mut.wp_pure]
      refine ⟨_, rfl, law.withCount? (s := carried) hh (by simp), ?_, ?_⟩
      · rintro s ⟨⟩
        exact law.resize hh (by omega) (by omega)
      · intro key
        simp only [weight_some, share_withCount, weight_withCount?, weight_none]
        rw [Nat.add_zero]
        exact share_add _ key (by omega)
  | some carried, some stack =>
    have hh := hcarried carried rfl
    have hs := htarget stack rfl
    have hpos := law.pos hs
    have hfits := law.fits hs
    have hmax := stack.maxStackSize_le
    by_cases hk : carried.stackableWith stack = true
    · have hkey := ItemStack.stackableWith_iff.mp hk
      simp only [pickupExchange, if_pos hk]
      generalize hm : min (if button = 0 then carried.count else min carried.count 1)
        (stack.maxStackSize - stack.count) = moved
      have hmoved : moved ≤ carried.count := by
        have : (if button = 0 then carried.count else min carried.count 1) ≤ carried.count := by
          split <;> omega
        omega
      have hsum : stack.count + moved < 2 ^ 32 := by omega
      simp only [Mut.wp_bind, Mut.wp_addU32, Mut.wp_subU32, if_pos hsum, if_pos hmoved,
        wp_keepCarried hc, Mut.wp_pure]
      refine ⟨_, rfl, law.withCount? (s := carried) hh (by simp), ?_, ?_⟩
      · rintro s ⟨⟩
        exact law.resize hs (by omega) (by omega)
      · intro key
        simp only [weight_some, share_withCount, weight_withCount?, share_congr hkey key]
        have h₁ := share_add stack key (Nat.sub_add_cancel hmoved)
        have h₂ := share_add stack key (l := stack.count) (m := moved) rfl
        omega
    · simp only [pickupExchange, if_neg hk, Mut.wp_bind, wp_writeCarried, Mut.wp_pure]
      exact ⟨some stack, rfl, htarget, hcarried, fun key => Nat.add_comm _ _⟩

theorem pickupOutside_spec (law : CountLaw P) {c : ContainerState} (h : c.Sound P origin)
    (button : Int8) : Mut.wp (pickupOutside button) (Post.keeps fun c' => c'.Sound P origin) c := by
  simp only [pickupOutside, Mut.wp_bind, Mut.wp_get, Mut.wp_ite, wp_writeCarried]
  split
  · exact h.setCarried (by simp)
  · split
    · exact h
    · rename_i carried hc
      exact h.setCarried (law.withCount? (h.carried carried hc) (by omega))

theorem pickup_spec (law : CountLaw P) {c : ContainerState} (h : c.Sound P origin) (slot : SlotIndex)
    (button : Int8) (hslot : slot.val ≠ -999) : Mut.wp (pickup slot button) (moves P origin c) c := by
  unfold pickup
  split
  · exact h
  · simp only [Mut.wp_bind, wp_slotIndex]
    split
    · exact h
    · rename_i i hi
      obtain ⟨target, htarget⟩ : ∃ o, c.slots[i]? = some o :=
        ⟨_, List.getElem?_eq_getElem (slotIndex?_lt hi)⟩
      simp only [wp_takeSlot htarget, Mut.wp_bind, wp_takeCarried]
      have hx := pickupExchange_spec law button h.carried
        (h.slots target (List.mem_of_getElem? htarget))
        (c := (c.withSlots (c.slots.set i none)).withCarried none) rfl
      refine Mut.wp_mono hx ?_ (fun _ _ h => h.elim) id
      rintro t _ ⟨o, rfl, ho, ht, hw⟩
      simp only [ContainerState.withCarried_withCarried]
      rw [wp_writeSlot (by simpa using slotIndex?_lt hi)]
      simp only [ContainerState.withCarried_slots, ContainerState.withSlots_slots, List.set_set,
        ContainerState.withCarried_withSlots, ContainerState.withSlots_withSlots]
      refine ⟨(h.setSlot i ht).setCarried ho, fun key => ?_⟩
      have hs := tally_setSlot key htarget t
      have hc := tally_setCarried (c := c.withSlots (c.slots.set i t)) key o
      have hx := hw key
      rw [ContainerState.withSlots_carried] at hc
      omega

end Cubic.Inventory
