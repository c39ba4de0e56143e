import Cubic.Inventory.Counts

/-!
# Counts under the other clicks

Quick move, swap, clone, throw, pickup-all, and the deposits that end a quick-craft
drag. While a stack is in hand, neither in a slot nor on the cursor, it is counted
beside the container.
-/

namespace Cubic.Inventory

set_option autoImplicit false

variable {P : ItemStack → Prop} {origin : ContainerState}

/-- Part of the stack `held` in hand has gone to the slots, leaving `held'` in hand. -/
structure Transfer (P : ItemStack → Prop) (origin : ContainerState) (c : ContainerState) (held : ItemStack)
    (c' : ContainerState) (held' : ItemStack) : Prop where
  sound : c'.Sound P origin
  carried : c'.carried = c.carried
  shrunk : ∃ k, k ≤ held.count ∧ held' = { held with count := k }

/-- The container and the stack in hand hold as much of everything as before. -/
def Balanced (c : ContainerState) (held : ItemStack) (c' : ContainerState) (held' : ItemStack) :
    Prop :=
  ∀ key, c'.tally key + held'.share key held'.count = c.tally key + held.share key held.count

namespace Transfer
variable {c c' c'' : ContainerState} {held held' held'' : ItemStack}

theorem refl (h : c.Sound P origin) (held : ItemStack) : Transfer P origin c held c held :=
  ⟨h, rfl, held.count, le_rfl, rfl⟩

theorem trans (h : Transfer P origin c held c' held') (h' : Transfer P origin c' held' c'' held'') :
    Transfer P origin c held c'' held'' := by
  obtain ⟨k, hk, rfl⟩ := h.shrunk
  obtain ⟨k', hk', rfl⟩ := h'.shrunk
  exact ⟨h'.sound, h'.carried.trans h.carried, k', le_trans hk' hk, rfl⟩

theorem prop (law : CountLaw P) (h : Transfer P origin c held c' held') (hp : P held)
    (h0 : held'.count ≠ 0) : P held' := by
  obtain ⟨k, hk, rfl⟩ := h.shrunk
  exact law.resize hp (Nat.one_le_iff_ne_zero.mpr h0) (le_trans hk (Nat.le_max_left _ _))

end Transfer

theorem Balanced.refl (c : ContainerState) (held : ItemStack) : Balanced c held c held :=
  fun _ => rfl

theorem Balanced.trans {c c' c'' : ContainerState} {held held' held'' : ItemStack}
    (h : Balanced c held c' held') (h' : Balanced c' held' c'' held'') :
    Balanced c held c'' held'' :=
  fun key => (h' key).trans (h key)

theorem ContainerState.Sound.get {c : ContainerState} (h : c.Sound P origin) {i : Nat} (hi : i < origin.slots.length) :
    ∃ o, c.slots[i]? = some o :=
  ⟨_, List.getElem?_eq_getElem (h.length ▸ hi)⟩

/-- Some of the stack in hand is added to the like stack of a slot. -/
theorem transfer_merge (law : CountLaw P) {c : ContainerState} (h : c.Sound P origin) {i amount : Nat}
    {stack held : ItemStack} (hi : c.slots[i]? = some (some stack)) (hkey : stack.key = held.key)
    (hheld : amount ≤ held.count) (hroom : amount ≤ stack.maxStackSize - stack.count) :
    let c' := c.withSlots
      (c.slots.set i (some { stack with count := stack.count + amount }))
    let held' := { held with count := held.count - amount }
    Transfer P origin c held c' held' ∧ Balanced c held c' held' := by
  intro c' held'
  have hp := h.slot hi
  have hpos := law.pos hp
  have hnew : ∀ t ∈ some { stack with count := stack.count + amount }, P t := by
    rintro t ⟨⟩
    exact law.resize hp (by omega) (by omega)
  refine ⟨⟨h.setSlot i hnew, rfl, _, Nat.sub_le _ _, rfl⟩, fun key => ?_⟩
  have ht := tally_setSlot key hi (some { stack with count := stack.count + amount })
  have hs := share_add held key (Nat.sub_add_cancel hheld)
  have hg := share_add stack key (l := stack.count) (m := amount) rfl
  rw [share_congr hkey key amount] at hg
  simp only [weight_some, share_withCount] at ht
  simp only [c', held', share_withCount]
  omega

/-! ### Quick move -/

theorem SlotRoute.mem_indices {route : SlotRoute} {i : Nat} :
    i ∈ route.indices ↔ route.start ≤ i ∧ i < route.stop := by
  have hrange : i ∈ List.range' route.start (route.stop - route.start) ↔
      route.start ≤ i ∧ i < route.stop := by
    rw [List.mem_range'_1]
    omega
  unfold SlotRoute.indices
  split
  · rw [List.mem_reverse, hrange]
  · exact hrange

/-- The merging loop: where a slot was empty it stays so, and a stack is left in
hand unless the loop returned early. -/
theorem mergeAlong_spec (law : CountLaw P) (indices : List Nat) :
    ∀ {c : ContainerState} {moving : ItemStack}, c.Sound P origin → P moving →
      (∀ i ∈ indices, i < origin.slots.length) →
      Mut.wp (mergeAlong indices moving)
        ⟨fun r c' => Transfer P origin c moving c' r.1 ∧ Balanced c moving c' r.1 ∧
          (r.2 = false → r.1.count ≠ 0) ∧
          (∀ i : Nat, c.slots[i]? = some none → c'.slots[i]? = some none),
          fun _ _ => False, False⟩ c := by
  induction indices with
  | nil =>
    intro c moving h hp _
    have hpos := law.pos hp
    exact ⟨.refl h moving, .refl c moving, fun _ => Nat.ne_of_gt hpos, fun _ hi => hi⟩
  | cons index rest ih =>
    intro c moving h hp hlt
    obtain ⟨hindex, hrest⟩ := List.forall_mem_cons.mp hlt
    obtain ⟨content, hcontent⟩ := h.get hindex
    simp only [mergeAlong, Mut.wp_bind, wp_readSlot hcontent]
    cases content with
    | none => exact ih h hp hrest
    | some stack =>
      by_cases hk : stack.stackableWith moving = true
      · have hkey := ItemStack.stackableWith_iff.mp hk
        simp only [if_pos hk]
        generalize hamount : min moving.count (stack.maxStackSize - stack.count) = amount
        have hmoving : amount ≤ moving.count := by omega
        have hfits := law.fits (h.slot hcontent)
        have hmax := stack.maxStackSize_le
        have hsum : stack.count + amount < 2 ^ 32 := by omega
        have hlen : index < c.slots.length := h.length ▸ hindex
        obtain ⟨ht, hb⟩ := transfer_merge law h hcontent hkey hmoving (by omega)
        have hempty : ∀ i : Nat, c.slots[i]? = some none →
            (c.slots.set index (some { stack with count := stack.count + amount }))[i]? =
              some none := by
          intro i hi
          rw [List.getElem?_set_ne, hi]
          rintro rfl
          rw [hcontent] at hi
          cases hi
        simp only [Mut.wp_bind, Mut.wp_addU32, if_pos hsum, wp_writeSlot hlen, Mut.wp_subU32,
          if_pos hmoving]
        by_cases h0 : moving.count - amount = 0
        · simp only [if_pos h0, Mut.wp_pure]
          exact ⟨ht, hb, by simp, hempty⟩
        · simp only [if_neg h0]
          refine Mut.wp_mono (ih ht.sound (ht.prop law hp h0) hrest) ?_ (fun _ _ => id) id
          rintro r c' ⟨ht', hb', hr, he⟩
          exact ⟨ht.trans ht', hb.trans hb', hr, fun i hi => he i (hempty i hi)⟩
      · simp only [if_neg hk]
        exact ih h hp hrest

theorem findEmpty_spec (indices : List Nat) {c : ContainerState} (h : c.Sound P origin)
    (hlt : ∀ i ∈ indices, i < origin.slots.length) :
    Mut.wp (findEmpty indices)
      ⟨fun r c' => c' = c ∧ ∀ i ∈ r, c.slots[i]? = some none, fun _ _ => False, False⟩ c := by
  induction indices with
  | nil => exact ⟨rfl, by simp⟩
  | cons index rest ih =>
    obtain ⟨hindex, hrest⟩ := List.forall_mem_cons.mp hlt
    obtain ⟨content, hcontent⟩ := h.get hindex
    simp only [findEmpty, Mut.wp_bind, wp_readSlot hcontent]
    cases content with
    | none =>
      refine ⟨rfl, ?_⟩
      rintro i ⟨⟩
      exact hcontent
    | some stack => exact ih hrest

theorem moveStackTo_spec (law : CountLaw P) {c : ContainerState} (h : c.Sound P origin)
    {moving : ItemStack} (hp : P moving) {route : SlotRoute} (hroute : route.stop ≤ origin.slots.length) :
    Mut.wp (moveStackTo moving route)
      ⟨fun moving' c' => Transfer P origin c moving c' moving' ∧ Balanced c moving c' moving' ∧
        (moving'.count ≠ 0 → ∀ i : Nat, c.slots[i]? = some none → c'.slots[i]? = some none),
        fun _ _ => False, False⟩ c := by
  have hlt : ∀ i ∈ route.indices, i < origin.slots.length := fun i hi =>
    lt_of_lt_of_le (SlotRoute.mem_indices.mp hi).2 hroute
  refine Mut.wp_seq (mergeAlong_spec law route.indices h hp hlt) ?_ (fun _ _ => id) id
  rintro ⟨moving', returned⟩ c' ⟨ht, hb, hcount, hempty⟩
  cases returned with
  | true => exact ⟨ht, hb, fun _ => hempty⟩
  | false =>
    refine Mut.wp_seq (findEmpty_spec route.indices ht.sound hlt) ?_ (fun _ _ => id) id
    rintro found _ ⟨rfl, hfound⟩
    cases found with
    | none => exact ⟨ht, hb, fun _ => hempty⟩
    | some index =>
      have hi := hfound index rfl
      have hlen : index < _ := (List.getElem?_eq_some_iff.mp hi).1
      have hp' := ht.prop law hp (hcount rfl)
      simp only [Mut.wp_bind, wp_writeSlot hlen, Mut.wp_pure]
      have hset : ∀ t ∈ some moving', P t := by
        rintro t ⟨⟩
        exact hp'
      refine ⟨ht.trans ⟨ht.sound.setSlot index hset, rfl, 0, Nat.zero_le _, rfl⟩,
        hb.trans fun key => ?_, fun h0 => (h0 rfl).elim⟩
      have hw := tally_setSlot key hi (some moving')
      simpa using hw

/-- The route loop, with the slot the stack was taken from still empty. -/
theorem moveAlongRoutes_spec (law : CountLaw P) {source : Nat} (routes : List SlotRoute) :
    ∀ {c : ContainerState} {moving : ItemStack}, c.Sound P origin → P moving →
      c.slots[source]? = some none → (∀ route ∈ routes, route.stop ≤ origin.slots.length) →
      Mut.wp (moveAlongRoutes source routes moving)
        ⟨fun _ c' => c'.Sound P origin ∧
          ∀ key, c'.tally key = c.tally key + moving.share key moving.count,
          fun _ _ => False, False⟩ c := by
  induction routes with
  | nil =>
    intro c moving h hp hsource _
    have hlen : source < _ := (List.getElem?_eq_some_iff.mp hsource).1
    have hset : ∀ t ∈ some moving, P t := by
      rintro t ⟨⟩
      exact hp
    simp only [moveAlongRoutes, wp_writeSlot hlen]
    refine ⟨h.setSlot source hset, fun key => ?_⟩
    have hw := tally_setSlot key hsource (some moving)
    simpa using hw
  | cons route rest ih =>
    intro c moving h hp hsource hroutes
    obtain ⟨hroute, hrest⟩ := List.forall_mem_cons.mp hroutes
    refine Mut.wp_seq (moveStackTo_spec law h hp hroute) ?_ (fun _ _ => id) id
    rintro moving' c' ⟨ht, hb, hempty⟩
    by_cases h0 : moving'.count = 0
    · simp only [if_pos h0, Mut.wp_pure]
      refine ⟨ht.sound, fun key => ?_⟩
      have hk := hb key
      rwa [h0, share_zero, Nat.add_zero] at hk
    · simp only [if_neg h0]
      refine Mut.wp_mono (ih ht.sound (ht.prop law hp h0) (hempty h0 source hsource) hrest) ?_
        (fun _ _ => id) id
      rintro _ c'' ⟨hs, htally⟩
      exact ⟨hs, fun key => (htally key).trans (hb key)⟩

theorem equipmentDestination_lt {c : ContainerState} {stack : ItemStack} {slot : Nat}
    (h : equipmentDestination c stack = some slot) : slot < c.slots.length := by
  simp only [equipmentDestination] at h
  split at h
  · cases h
  · split at h
    · rename_i hslot
      cases h
      exact (List.getElem?_eq_some_iff.mp hslot).1
    · cases h

theorem furnacePlayerRoutes_stop {c : ContainerState} (moving : ItemStack) (start stop : Nat)
    (hc : 2 ≤ c.slots.length) :
    ∀ route ∈ furnacePlayerRoutes c moving start stop, route.stop ≤ c.slots.length := by
  unfold furnacePlayerRoutes
  refine List.forall_mem_append.mpr ⟨?_, List.forall_mem_singleton.mpr (Nat.min_le_right _ _)⟩
  split
  · exact List.forall_mem_singleton.mpr hc
  · split
    · exact List.forall_mem_singleton.mpr (le_trans (by decide) hc)
    · exact List.forall_mem_nil _

theorem isPlayerInventory_iff {c : ContainerState} :
    c.isPlayerInventory = true ↔ c.id = playerContainerId ∧ c.slots.length = playerInventorySlots := by
  simp [ContainerState.isPlayerInventory]

theorem playerRoutes_stop {c : ContainerState} (hc : c.isPlayerInventory = true) (source : Nat)
    (moving : ItemStack) :
    ∀ route ∈ quickMoveRoutes c source moving, route.stop ≤ c.slots.length := by
  have hlen := (isPlayerInventory_iff.mp hc).2
  have hstop : ∀ k ≤ playerInventorySlots, k ≤ c.slots.length := fun k hk => hk.trans hlen.ge
  simp only [quickMoveRoutes, if_pos hc]
  split
  · exact List.forall_mem_singleton.mpr (hstop 45 (by decide))
  · split
    · refine List.forall_mem_append.mpr ⟨?_, List.forall_mem_singleton.mpr (hstop 45 (by decide))⟩
      intro route h
      obtain ⟨slot, hslot, rfl⟩ := List.mem_map.mp h
      exact equipmentDestination_lt (Option.mem_toList.mp hslot)
    · split
      · exact List.forall_mem_singleton.mpr (hstop 36 (by decide))
      · exact List.forall_mem_nil _

/-- No route leads past the last slot. -/
theorem quickMoveRoutes_stop {c : ContainerState} {source : Nat} (hsource : source < c.slots.length)
    (moving : ItemStack) :
    ∀ route ∈ quickMoveRoutes c source moving, route.stop ≤ c.slots.length := by
  by_cases hplayer : c.isPlayerInventory = true
  · exact playerRoutes_stop hplayer source moving
  · simp only [quickMoveRoutes, if_neg hplayer]
    split
    · -- a furnace: fuel and input go to slots 1 and 0, which exist when slot 3 does
      split
      · exact List.forall_mem_singleton.mpr le_rfl
      · split
        · exact furnacePlayerRoutes_stop moving _ _ (by omega)
        · split
          · exact furnacePlayerRoutes_stop moving _ _ (by omega)
          · exact List.forall_mem_nil _
    · split
      · split
        · exact List.forall_mem_singleton.mpr le_rfl
        · split
          · exact List.forall_mem_singleton.mpr le_rfl
          · split
            · exact List.forall_mem_singleton.mpr (Nat.min_le_right _ _)
            · split
              · exact List.forall_mem_singleton.mpr (Nat.min_le_right _ _)
              · exact List.forall_mem_nil _
      · split
        · exact List.forall_mem_singleton.mpr le_rfl
        · exact List.forall_mem_singleton.mpr (Nat.sub_le _ _)

theorem quickMove_spec (law : CountLaw P) {c : ContainerState} (h : c.Sound P origin)
    (slot : SlotIndex) : Mut.wp (quickMove slot) (moves P origin c) c := by
  simp only [quickMove, Mut.wp_bind, wp_slotIndex]
  split
  · exact h
  · rename_i i hi
    have hlt := slotIndex?_lt hi
    obtain ⟨content, hcontent⟩ := h.get (h.length ▸ hlt)
    simp only [wp_takeSlot hcontent]
    have hnone := h.setSlot i (o := none) (by simp)
    have htally := fun key => tally_setSlot key hcontent none
    cases content with
    | none =>
      refine ⟨hnone, fun key => ?_⟩
      simpa using htally key
    | some moving =>
      have hlen : (c.withSlots (c.slots.set i none)).slots.length = origin.slots.length := hnone.length
      simp only [Mut.wp_bind, Mut.wp_get]
      refine Mut.wp_mono (moveAlongRoutes_spec law _ hnone (h.slot hcontent) ?_ ?_) ?_
        (fun _ _ => False.elim) id
      · simp only [ContainerState.withSlots_slots]
        exact List.getElem?_set_self hlt
      · rw [← hlen]
        exact quickMoveRoutes_stop (by rw [hlen, ← h.length]; exact hlt) moving
      · rintro _ c' ⟨hs, hk⟩
        refine ⟨hs, fun key => ?_⟩
        have hkey := htally key
        simp only [weight_none, weight_some] at hkey
        rw [hk key]
        omega

/-! ### Swap, clone, throw -/

theorem swapDestination_lt {c : ContainerState} {hotbar : Nat}
    (h : ¬ (hotbar > 8 ∨ c.slots.length < 9)) :
    (if c.isPlayerInventory then 36 + hotbar else c.slots.length - 9 + hotbar) <
      c.slots.length := by
  split
  · rename_i hplayer
    have hlen := (isPlayerInventory_iff.mp hplayer).2
    unfold playerInventorySlots at hlen
    omega
  · omega

theorem swapHotbar_spec {c : ContainerState} (h : c.Sound P origin) (slot : SlotIndex)
    (button : Int8) : Mut.wp (swapHotbar slot button) (moves P origin c) c := by
  simp only [swapHotbar, Mut.wp_bind, wp_slotIndex]
  split
  · exact h
  · rename_i source hsource
    simp only [Mut.wp_get, Mut.wp_ite, Mut.wp_fail]
    split
    · exact h
    · split
      · exact h
      · rename_i hhotbar
        have hd := swapDestination_lt hhotbar
        generalize (if c.isPlayerInventory then 36 + button.toInt.toNat
          else c.slots.length - 9 + button.toInt.toNat) = destination at hd ⊢
        have hs := slotIndex?_lt hsource
        obtain ⟨a, ha⟩ := h.get (h.length ▸ hs)
        obtain ⟨b, hb⟩ := h.get (h.length ▸ hd)
        have hd' : destination < (c.withSlots (c.slots.set source b)).slots.length := by
          simpa using hd
        -- when source and destination coincide, the first write leaves `b` where it was
        have hmid : (c.withSlots (c.slots.set source b)).slots[destination]? = some b := by
          by_cases heq : source = destination
          · subst heq
            exact List.getElem?_set_self hs
          · rw [ContainerState.withSlots_slots, List.getElem?_set_ne heq, hb]
        simp only [Mut.wp_bind, wp_readSlot ha, wp_readSlot hb, wp_writeSlot hs, wp_writeSlot hd']
        refine ⟨(h.setSlot source (h.slots b (List.mem_of_getElem? hb))).setSlot destination
          (h.slots a (List.mem_of_getElem? ha)), fun key => ?_⟩
        have h₁ := tally_setSlot key ha b
        have h₂ := tally_setSlot key hmid a
        omega

theorem cloneStack_spec (law : CountLaw P) {c : ContainerState} (h : c.Sound P origin)
    (slot : SlotIndex) : Mut.wp (cloneStack slot) (Post.keeps fun c' => c'.Sound P origin) c := by
  simp only [cloneStack, Mut.wp_bind, wp_slotIndex]
  split
  · exact h
  · rename_i i hi
    obtain ⟨content, hcontent⟩ := h.get (h.length ▸ slotIndex?_lt hi)
    simp only [wp_readSlot hcontent, wp_writeCarried]
    refine h.setCarried ?_
    intro s hs
    obtain ⟨stack, rfl, rfl⟩ := Option.map_eq_some_iff.mp hs
    exact law.resize (h.slot hcontent) stack.one_le_maxStackSize (Nat.le_max_right _ _)

theorem throwStack_spec (law : CountLaw P) {c : ContainerState} (h : c.Sound P origin)
    (slot : SlotIndex) (button : Int8) :
    Mut.wp (throwStack slot button) (Post.keeps fun c' => c'.Sound P origin) c := by
  simp only [throwStack, Mut.wp_bind, wp_slotIndex]
  split
  · exact h
  · rename_i i hi
    have hlt := slotIndex?_lt hi
    obtain ⟨content, hcontent⟩ := h.get (h.length ▸ hlt)
    simp only [Mut.wp_ite, Mut.wp_fail, wp_writeSlot hlt, Mut.wp_bind, wp_readSlot hcontent]
    split
    · exact h
    · split
      · exact h.setSlot i (by simp)
      · cases content with
        | none => exact h
        | some stack =>
          have hp := h.slot hcontent
          have hpos := law.pos hp
          simp only [Mut.wp_bind, Mut.wp_subU32, if_pos hpos, wp_writeSlot hlt]
          exact h.setSlot i (law.withCount? hp (by omega))

/-! ### Pickup all -/

/-- A stack is drawn from a slot to the cursor. -/
theorem drawn_spec (law : CountLaw P) {c : ContainerState} (h : c.Sound P origin) {i amount : Nat}
    {stack carried : ItemStack} (hi : c.slots[i]? = some (some stack))
    (hc : c.carried = some carried) (hkey : stack.key = carried.key)
    (hstack : amount ≤ stack.count) (hroom : amount ≤ carried.maxStackSize - carried.count) :
    let c' := (c.withSlots (c.slots.set i (stack.withCount? (stack.count - amount)))).withCarried
      (some { carried with count := carried.count + amount })
    c'.Sound P origin ∧ ∀ key, c'.tally key = c.tally key := by
  intro c'
  have hp := h.carried carried hc
  have hpos := law.pos hp
  have hnew : ∀ t ∈ some { carried with count := carried.count + amount }, P t := by
    rintro t ⟨⟩
    exact law.resize hp (by omega) (by omega)
  refine ⟨(h.setSlot i (law.withCount? (h.slot hi) (by omega))).setCarried hnew, fun key => ?_⟩
  have ht := tally_setSlot key hi (stack.withCount? (stack.count - amount))
  have hw := tally_setCarried
    (c := c.withSlots (c.slots.set i (stack.withCount? (stack.count - amount)))) key
    (some { carried with count := carried.count + amount })
  have hs := share_add stack key (Nat.sub_add_cancel hstack)
  have hg := share_add carried key (l := carried.count) (m := amount) rfl
  rw [← share_congr hkey key amount] at hg
  simp only [ContainerState.withSlots_carried, hc, weight_some, weight_withCount?,
    share_withCount] at ht hw
  simp only [c']
  omega

theorem pickAllPass_spec (law : CountLaw P) (menu : MenuIdentity) (fullPass : Bool)
    (indices : List Nat) :
    ∀ {c : ContainerState} {carried : ItemStack}, c.Sound P origin → c.carried = some carried →
      (∀ i ∈ indices, i < origin.slots.length) →
      Mut.wp (pickAllPass menu fullPass indices carried)
        ⟨fun r c' => c'.Sound P origin ∧ (∀ key, c'.tally key = c.tally key) ∧ c'.carried = some r.1,
          fun _ _ => False, False⟩ c := by
  induction indices with
  | nil =>
    intro c carried h hc _
    exact ⟨h, fun _ => rfl, hc⟩
  | cons index rest ih =>
    intro c carried h hc hlt
    obtain ⟨hindex, hrest⟩ := List.forall_mem_cons.mp hlt
    obtain ⟨content, hcontent⟩ := h.get hindex
    simp only [pickAllPass, Mut.wp_ite, Mut.wp_bind, wp_readSlot hcontent]
    split
    · exact ih h hc hrest
    · cases content with
      | none => exact ih h hc hrest
      | some stack =>
        simp only [Mut.wp_ite]
        split
        · rename_i htake
          have hkey := ItemStack.stackableWith_iff.mp htake.1
          generalize hamount : min stack.count (carried.maxStackSize - carried.count) = amount
          have hstack : amount ≤ stack.count := by omega
          have hfits := law.fits (h.carried carried hc)
          have hmax := carried.maxStackSize_le
          have hsum : carried.count + amount < 2 ^ 32 := by omega
          have hlen : index < (c.withCarried
              (some { carried with count := carried.count + amount })).slots.length := by
            simpa [h.length] using hindex
          obtain ⟨hs, ht⟩ := drawn_spec law h hcontent hc hkey hstack (by omega)
          simp only [Mut.wp_bind, Mut.wp_subU32, if_pos hstack, Mut.wp_addU32, if_pos hsum,
            wp_writeCarried, wp_writeSlot hlen, ContainerState.withCarried_slots,
            ContainerState.withCarried_withSlots, Mut.wp_ite, Mut.wp_pure]
          split
          · exact ⟨hs, ht, rfl⟩
          · refine Mut.wp_mono (ih hs rfl hrest) ?_ (fun _ _ => id) id
            rintro r c' ⟨hs', ht', hc'⟩
            exact ⟨hs', fun key => (ht' key).trans (ht key), hc'⟩
        · exact ih h hc hrest

theorem pickupAll_spec (law : CountLaw P) {c : ContainerState} (h : c.Sound P origin)
    (button : Int8) : Mut.wp (pickupAll button) (moves P origin c) c := by
  simp only [pickupAll, Mut.wp_ite, Mut.wp_fail, Mut.wp_bind, Mut.wp_get]
  split
  · exact h
  · split
    · exact ⟨h, fun _ => rfl⟩
    · rename_i carried hc
      have hlt : ∀ i ∈ List.range c.slots.length, i < origin.slots.length := fun i hi =>
        h.length ▸ List.mem_range.mp hi
      refine Mut.wp_seq (pickAllPass_spec law c.menu false _ h hc hlt) ?_
        (fun _ _ => False.elim) id
      rintro ⟨carried', full⟩ c' ⟨hs, ht, hc'⟩
      cases full with
      | true => exact ⟨hs, ht⟩
      | false =>
        refine Mut.wp_seq (pickAllPass_spec law c.menu true _ hs hc' hlt) ?_
          (fun _ _ => False.elim) id
        rintro r c'' ⟨hs', ht', _⟩
        exact ⟨hs', fun key => (ht' key).trans (ht key)⟩

/-! ### The deposits of a quick craft -/

/-- A slot that can take `amount` more of what is in hand. -/
def Receives (P : ItemStack → Prop) (held : ItemStack) (amount : Nat) :
    Option ItemStack → Prop
  | none => amount ≤ held.maxStackSize
  | some stack => P stack ∧ stack.key = held.key ∧ amount ≤ stack.maxStackSize - stack.count

theorem grownStack_spec (law : CountLaw P) {held : ItemStack} (hp : P held) {amount : Nat}
    (hpos : 1 ≤ amount) {destination : Option ItemStack}
    (hd : Receives P held amount destination) {c : ContainerState} :
    Mut.wp (grownStack held amount destination)
      ⟨fun filled c' => c' = c ∧ P filled ∧ ∀ key,
        filled.share key filled.count = weight key destination + held.share key amount,
        fun _ _ => False, False⟩ c := by
  cases destination with
  | none =>
    refine ⟨rfl, law.resize hp hpos (le_trans hd (Nat.le_max_right _ _)), fun key => ?_⟩
    simp
  | some stack =>
    obtain ⟨hstack, hkey, hroom⟩ := hd
    have hcount := law.pos hstack
    have hfits := law.fits hstack
    have hmax := stack.maxStackSize_le
    have hsum : stack.count + amount < 2 ^ 32 := by omega
    simp only [grownStack, Mut.wp_bind, Mut.wp_addU32, if_pos hsum, Mut.wp_pure]
    refine ⟨trivial, law.resize hstack (by omega) (by omega), fun key => ?_⟩
    rw [share_withCount, weight_some, ← share_congr hkey key amount]
    exact (share_add _ key rfl).symm

/-- What one turn of the deposit loop does to the container and the stack in hand. -/
structure Deposited (P : ItemStack → Prop) (origin : ContainerState) (kind : UInt8) (c : ContainerState)
    (held : ItemStack) (c' : ContainerState) (held' : ItemStack) : Prop where
  transfer : Transfer P origin c held c' held'
  clone : kind = 2 → held' = held
  balanced : kind ≠ 2 → Balanced c held c' held'

theorem Deposited.refl {kind : UInt8} {c : ContainerState} (h : c.Sound P origin) (held : ItemStack) :
    Deposited P origin kind c held c held :=
  ⟨.refl h held, fun _ => rfl, fun _ => .refl c held⟩

theorem Deposited.trans {kind : UInt8} {c c' c'' : ContainerState}
    {held held' held'' : ItemStack} (h : Deposited P origin kind c held c' held')
    (h' : Deposited P origin kind c' held' c'' held'') : Deposited P origin kind c held c'' held'' :=
  ⟨h.transfer.trans h'.transfer, fun hk => (h'.clone hk).trans (h.clone hk),
    fun hk => (h.balanced hk).trans (h'.balanced hk)⟩

/-- The stack in hand stays usable until it is spent. -/
theorem Deposited.prop (law : CountLaw P) {kind : UInt8} {c c' : ContainerState}
    {held held' : ItemStack} (h : Deposited P origin kind c held c' held') (hp : P held)
    (h0 : ¬ (held'.count = 0 ∧ kind ≠ 2)) : P held' := by
  by_cases hk : kind = 2
  · exact h.clone hk ▸ hp
  · exact h.transfer.prop law hp fun hz => h0 ⟨hz, hk⟩

/-- Writing back what was taken changes nothing that counts. -/
theorem deposited_same {kind : UInt8} {c : ContainerState} (h : c.Sound P origin) {i : Nat}
    {content : Option ItemStack} (hi : c.slots[i]? = some content) (held : ItemStack) :
    Deposited P origin kind c held (c.withSlots (c.slots.set i content)) held := by
  have hs := h.setSlot i (h.slots content (List.mem_of_getElem? hi))
  refine ⟨⟨hs, rfl, held.count, le_rfl, rfl⟩, fun _ => rfl, fun _ key => ?_⟩
  have ht := tally_setSlot key hi content
  omega

theorem deposit_spec (law : CountLaw P) (kind : UInt8) (perSlot : Nat) {c : ContainerState}
    (h : c.Sound P origin) {held : ItemStack} (hp : P held) {i capacity : Nat}
    {destination : Option ItemStack} (hi : c.slots[i]? = some destination)
    (hd : ∀ amount ≤ capacity, Receives P held amount destination) :
    Mut.wp (deposit kind perSlot i held destination capacity)
      ⟨fun held' c' => Deposited P origin kind c held c' held', fun _ _ => False, False⟩
      (c.withSlots (c.slots.set i none)) := by
  have hlen : i < (c.withSlots (c.slots.set i none)).slots.length := by
    simpa using (List.getElem?_eq_some_iff.mp hi).1
  simp only [deposit]
  generalize hamount : (if kind = 2 then min perSlot capacity
    else min (min perSlot capacity) held.count) = amount
  have hcapacity : amount ≤ capacity := by
    subst hamount
    split <;> omega
  have hheld : kind ≠ 2 → amount ≤ held.count := by
    intro hk
    rw [if_neg hk] at hamount
    omega
  split
  · simp only [Mut.wp_bind, wp_writeSlot hlen, Mut.wp_pure, ContainerState.withSlots_slots,
      List.set_set, ContainerState.withSlots_withSlots]
    exact deposited_same h hi held
  · refine Mut.wp_seq (grownStack_spec law hp (by omega) (hd amount hcapacity)) ?_
      (fun _ _ => id) id
    rintro filled _ ⟨rfl, hfilled, hshare⟩
    have hnew : ∀ t ∈ some filled, P t := by
      rintro t ⟨⟩
      exact hfilled
    have hs := h.setSlot i hnew
    simp only [Mut.wp_bind, spend]
    split
    · rename_i hk
      simp only [Mut.wp_bind, Mut.wp_subU32, if_pos (hheld hk), Mut.wp_pure, wp_writeSlot hlen,
        ContainerState.withSlots_slots, List.set_set, ContainerState.withSlots_withSlots]
      refine ⟨⟨hs, rfl, _, Nat.sub_le _ _, rfl⟩, fun h2 => (hk h2).elim, fun _ key => ?_⟩
      have ht := tally_setSlot key hi (some filled)
      have hg := share_add held key (Nat.sub_add_cancel (hheld hk))
      rw [weight_some, hshare key] at ht
      simp only [share_withCount]
      omega
    · rename_i hk
      simp only [Mut.wp_pure, Mut.wp_bind, wp_writeSlot hlen, ContainerState.withSlots_slots,
        List.set_set, ContainerState.withSlots_withSlots]
      exact ⟨⟨hs, rfl, held.count, le_rfl, rfl⟩, fun _ => rfl, fun h2 => (hk h2).elim⟩

theorem fillSlot_spec (law : CountLaw P) (kind : UInt8) (perSlot : Nat) {c : ContainerState}
    (h : c.Sound P origin) {held : ItemStack} (hp : P held) {i : Nat} (hi : i < origin.slots.length) :
    Mut.wp (fillSlot kind perSlot i held)
      ⟨fun held' c' => Deposited P origin kind c held c' held', fun _ _ => False, False⟩ c := by
  obtain ⟨content, hcontent⟩ := h.get hi
  have hlen : i < (c.withSlots (c.slots.set i none)).slots.length := by
    simpa [h.length] using hi
  simp only [fillSlot, Mut.wp_bind, wp_takeSlot hcontent]
  cases content with
  | none => exact deposit_spec law kind perSlot h hp hcontent fun _ hle => hle
  | some stack =>
    simp only [Mut.wp_ite]
    split
    · rename_i hk
      exact deposit_spec law kind perSlot h hp hcontent fun _ hle =>
        ⟨h.slot hcontent, ItemStack.stackableWith_iff.mp hk, hle⟩
    · simp only [Mut.wp_bind, wp_writeSlot hlen, Mut.wp_pure, ContainerState.withSlots_slots,
        List.set_set, ContainerState.withSlots_withSlots]
      exact deposited_same h hcontent held

theorem fillSlots_spec (law : CountLaw P) (kind : UInt8) (perSlot : Nat) (slots : List SlotIndex) :
    ∀ {c : ContainerState} {held : ItemStack}, c.Sound P origin →
      (¬ (held.count = 0 ∧ kind ≠ 2) → P held) →
      Mut.wp (fillSlots kind perSlot slots held)
        ⟨fun held' c' => Deposited P origin kind c held c' held' ∧ (held'.count ≠ 0 → P held'),
          fun _ c' => c'.Sound P origin, False⟩ c := by
  induction slots with
  | nil =>
    intro c held h hp
    exact ⟨.refl h held, fun h0 => hp fun hz => h0 hz.1⟩
  | cons slot rest ih =>
    intro c held h hp
    simp only [fillSlots, Mut.wp_ite, Mut.wp_pure, Mut.wp_bind, wp_slotIndex]
    split
    · rename_i hspent
      exact ⟨.refl h held, fun h0 => (h0 hspent.1).elim⟩
    · rename_i hleft
      split
      · exact h
      · rename_i i hi
        have hlt : i < origin.slots.length := h.length ▸ slotIndex?_lt hi
        refine Mut.wp_mono (fillSlot_spec law kind perSlot h (hp hleft) hlt) ?_
          (fun _ _ => False.elim) id
        intro held' c' hd
        refine Mut.wp_mono (ih hd.transfer.sound (hd.prop law (hp hleft))) ?_ (fun _ _ => id) id
        rintro held'' c'' ⟨hd', hp'⟩
        exact ⟨hd.trans hd', hp'⟩

theorem quickCraftPerSlot_spec (kind : UInt8) (carried : ItemStack) {slotCount : Nat}
    (hpos : slotCount ≠ 0) {c : ContainerState} :
    Mut.wp (quickCraftPerSlot kind carried slotCount)
      ⟨fun _ c' => c' = c, fun _ c' => c' = c, False⟩ c := by
  have hdiv : (if slotCount < 2 ^ 32 then slotCount else 2 ^ 32 - 1) ≠ 0 := by
    split <;> omega
  simp only [quickCraftPerSlot, Mut.wp_ite, Mut.wp_divU32, if_pos hdiv, Mut.wp_pure, Mut.wp_fail]
  split
  · trivial
  · split
    · trivial
    · split <;> trivial

theorem finishQuickCraft_spec (law : CountLaw P) {c : ContainerState} (h : c.Sound P origin)
    (gesture : QuickCraftGesture) :
    Mut.wp (finishQuickCraft gesture)
      ⟨fun _ c' => c'.Sound P origin ∧ (gesture.kind ≠ 2 → ∀ key, c'.tally key = c.tally key),
        fun _ c' => c'.Sound P origin, False⟩ c := by
  have hnone := h.setCarried (o := none) (by simp)
  simp only [finishQuickCraft, Mut.wp_bind, wp_takeCarried]
  split
  · exact hnone
  · rename_i carried hc
    have hp := h.carried carried hc
    simp only [Mut.wp_ite, wp_writeCarried, ContainerState.withCarried_withCarried]
    split
    · rw [c.withCarried_self _ hc]
      exact ⟨h, fun _ _ => rfl⟩
    · rename_i hslots
      have hsize : gesture.slots.size ≠ 0 := by
        simpa [OrderedMap.size, List.isEmpty_iff] using hslots
      refine Mut.wp_seq (quickCraftPerSlot_spec gesture.kind carried hsize) ?_ ?_ id
      · rintro perSlot _ rfl
        refine Mut.wp_seq (fillSlots_spec law gesture.kind perSlot _ hnone fun _ => hp) ?_
          (fun _ _ => id) id
        rintro held c' ⟨hd, hp'⟩
        have hc' : c'.carried = none := hd.transfer.carried
        rw [wp_keepCarried hc']
        refine ⟨hd.transfer.sound.setCarried ?_, fun hk key => ?_⟩
        · intro s hs
          by_cases h0 : held.count = 0
          · simp [ItemStack.withCount?, h0] at hs
          · exact law.withCount? (hp' h0) (Nat.le_max_left _ _) s hs
        · have hb := hd.balanced hk key
          have h₁ := tally_setCarried (c := c') key (held.withCount? held.count)
          have h₂ := tally_setCarried (c := c) key none
          simp only [hc', hc, weight_none, weight_some, weight_withCount?] at h₁ h₂
          omega
      · rintro _ _ rfl
        exact hnone

end Cubic.Inventory
