import Cubic.Inventory.ClickCounts
import Cubic.Inventory.Gesture

/-!
# Clicks on the whole inventory

The container specifications are lifted through `container_mut` and the copy to the
player slots, and a run of clicks follows by induction.
-/

namespace Cubic.Inventory

set_option autoImplicit false

variable {P : ItemStack → Prop}

namespace InventoryState

def containers (s : InventoryState) : List ContainerState := s.player :: s.opened.toList

/-- Every stack of every container satisfies `P`. -/
def Stacks (P : ItemStack → Prop) (s : InventoryState) : Prop :=
  ∀ c ∈ s.containers, (∀ o ∈ c.slots, ∀ stack ∈ o, P stack) ∧ ∀ stack ∈ c.carried, P stack

instance [DecidablePred P] (s : InventoryState) : Decidable (s.Stacks P) :=
  inferInstanceAs (Decidable (∀ c ∈ s.containers,
    (∀ o ∈ c.slots, ∀ stack ∈ o, P stack) ∧ ∀ stack ∈ c.carried, P stack))

def slotCounts (s : InventoryState) : List Nat := s.containers.map fun c => c.slots.length

/-- The containers of `s` are those of `origin`, with sound stacks. -/
structure Sound (P : ItemStack → Prop) (s origin : InventoryState) : Prop where
  player : s.player.Sound P origin.player
  opened : Option.Rel (fun c c₀ : ContainerState => c.Sound P c₀) s.opened origin.opened

end InventoryState

section Lifting
variable {s s₀ : InventoryState} {id : ContainerId} {c c' : ContainerState}

theorem InventoryState.Stacks.sound (h : s.Stacks P) : s.Sound P s := by
  have hc : ∀ c ∈ s.containers, c.Sound P c := fun c hc => ⟨rfl, rfl, (h c hc).1, (h c hc).2⟩
  refine ⟨hc _ List.mem_cons_self, ?_⟩
  cases hopen : s.opened with
  | none => exact .none
  | some c => exact .some (hc c (by simp [InventoryState.containers, hopen]))

theorem opened_of_rel {o₀ : Option ContainerState}
    (h : Option.Rel (fun c c₀ : ContainerState => c.Sound P c₀) (some c) o₀) :
    ∃ c₀, o₀ = some c₀ ∧ c.Sound P c₀ := by
  cases h with
  | some hsound => exact ⟨_, rfl, hsound⟩

theorem InventoryState.Sound.stacks (h : s.Sound P s₀) : s.Stacks P := by
  have hopened := h.opened
  intro c hc
  rcases List.mem_cons.mp hc with rfl | hc
  · exact ⟨h.player.slots, h.player.carried⟩
  · rw [Option.mem_toList.mp hc] at hopened
    obtain ⟨c₀, -, hsound⟩ := opened_of_rel hopened
    exact ⟨hsound.slots, hsound.carried⟩

theorem InventoryState.Sound.slotCounts (h : s.Sound P s₀) : s.slotCounts = s₀.slotCounts := by
  have hopened := h.opened
  unfold InventoryState.slotCounts InventoryState.containers
  generalize s.opened = o at *
  generalize s₀.opened = o₀ at *
  cases hopened with
  | none => simpa using h.player.length
  | some hsound => simpa using ⟨h.player.length, hsound.length⟩

/-- The borrowed container is the player's or the open one. -/
theorem InventoryState.Sound.borrow (h : s.Sound P s₀) (hc : s.container? id = some c) :
    ∃ c₀, c.Sound P c₀ ∧
      ∀ c', c'.Sound P c₀ → (InventoryState.putContainer id c' s).Sound P s₀ := by
  by_cases hid : id = playerContainerId
  · subst hid
    cases hc
    exact ⟨s₀.player, h.player, fun c' hc' => ⟨hc', h.opened⟩⟩
  · have hopened := h.opened
    rw [((container?_eq_some hid).mp hc).1] at hopened
    obtain ⟨c₀, hopen₀, hsound⟩ := opened_of_rel hopened
    refine ⟨c₀, hsound, fun c' hc' => ?_⟩
    simp only [InventoryState.putContainer, if_neg hid]
    exact ⟨h.player, by rw [hopen₀]; exact .some hc'⟩

theorem copyToPlayer_keeps {Q : Option ItemStack → Prop} (tail : List (Option ItemStack)) :
    ∀ (offset : Nat) {slots : List (Option ItemStack)}, (∀ o ∈ slots, Q o) → (∀ o ∈ tail, Q o) →
      (InventoryState.copyToPlayer offset tail slots).length = slots.length ∧
        ∀ o ∈ InventoryState.copyToPlayer offset tail slots, Q o := by
  induction tail with
  | nil => exact fun _ _ hslots _ => ⟨rfl, hslots⟩
  | cons stack rest ih =>
    intro offset slots hslots htail
    obtain ⟨hstack, hrest⟩ := List.forall_mem_cons.mp htail
    have hnext := ih (offset + 1) (forall_mem_set hslots (9 + offset) hstack) hrest
    rwa [List.length_set] at hnext

theorem InventoryState.Sound.synchronizedFrom (h : s.Sound P s₀) :
    (s.synchronizedFrom id).Sound P s₀ := by
  have hopened := h.opened
  unfold InventoryState.synchronizedFrom
  split
  · refine ⟨h.player, ?_⟩
    generalize s.opened = o at *
    generalize s₀.opened = o₀ at *
    cases hopened with
    | none => exact .none
    | some hsound => exact .some (hsound.setCarried h.player.carried)
  · cases hopen : s.opened with
    | none => exact h
    | some c =>
      obtain ⟨hslots, hcarried⟩ := h.stacks c (by simp [InventoryState.containers, hopen])
      have hplayer := h.player.setCarried hcarried
      simp only
      split
      · exact ⟨hplayer, hopen ▸ hopened⟩
      · obtain ⟨hlen, hmem⟩ := copyToPlayer_keeps (c.slots.drop (c.slots.length - 36)) 0
          h.player.slots (fun o ho => hslots o (List.mem_of_mem_drop ho))
        exact ⟨⟨hplayer.frame, hlen.trans hplayer.length, hmem, hplayer.carried⟩, hopen ▸ hopened⟩

/-- A specification of an operation on one container, as one on the inventory. -/
theorem onContainer_spec {α : Type} {m : ContainerM α} {R : ContainerState → ContainerState → Prop}
    (hm : ∀ {c c₀ : ContainerState}, c.Sound P c₀ → Mut.wp m
      ⟨fun _ c' => c'.Sound P c₀ ∧ R c c', fun _ c' => c'.Sound P c₀, False⟩ c)
    (h : s.Sound P s₀) (id : ContainerId) :
    Mut.wp (InventoryState.onContainer id m)
      ⟨fun _ s' => s'.Sound P s₀ ∧
        ∃ c c', s.container? id = some c ∧ s'.container? id = some c' ∧ R c c',
        fun _ s' => s'.Sound P s₀, False⟩ s := by
  rw [InventoryState.wp_onContainer]
  split
  · exact h
  · rename_i c hc
    obtain ⟨c₀, hsound, hput⟩ := h.borrow hc
    refine Mut.wp_mono (hm hsound) ?_ (fun _ c' hc' => hput c' hc') fun h => h
    rintro _ c' ⟨hc', hr⟩
    have hframe : c'.frame = c.frame := hc'.frame.trans hsound.frame.symm
    have hid : c'.frame.id = c.frame.id := congrArg ContainerState.id hframe
    exact ⟨hput c' hc', c, c', hc, container?_putContainer hc hid, hr⟩

end Lifting

/-! ### One click -/

/-- The click is none of those that make or destroy items: a clone, a throw, a drop
outside the window, a clone drag. -/
def ContainerClick.MovesOnly (click : ContainerClick) : Prop :=
  match click.kind with
  | .clone | .throw => False
  | .pickup => click.slot.val ≠ -999
  | .quickCraft => quickCraftKind? click.button ≠ some 2
  | _ => True

instance (click : ContainerClick) : Decidable click.MovesOnly := by
  unfold ContainerClick.MovesOnly
  cases click.kind <;> infer_instance

/-- Items are conserved from `c` to `c'` if the click conserves them. -/
def Conserves (holds : Prop) (c c' : ContainerState) : Prop :=
  holds → ∀ key, c'.tally key = c.tally key

theorem clickAction_spec (law : CountLaw P) {c origin : ContainerState} (h : c.Sound P origin)
    {click : ContainerClick} (hkind : click.kind ≠ .quickCraft) :
    Mut.wp (clickAction click)
      ⟨fun _ c' => c'.Sound P origin ∧ Conserves click.MovesOnly c c',
        fun _ c' => c'.Sound P origin, False⟩ c := by
  have hmoves : ∀ {m : ContainerM Unit}, Mut.wp m (moves P origin c) c → Mut.wp m
      ⟨fun _ c' => c'.Sound P origin ∧ Conserves click.MovesOnly c c',
        fun _ c' => c'.Sound P origin, False⟩ c := fun hm =>
    Mut.wp_mono hm (fun _ _ h => ⟨h.1, fun _ => h.2⟩) (fun _ _ => id) id
  have hkeeps : ∀ {m : ContainerM Unit}, ¬ click.MovesOnly →
      Mut.wp m (Post.keeps fun c' => c'.Sound P origin) c → Mut.wp m
      ⟨fun _ c' => c'.Sound P origin ∧ Conserves click.MovesOnly c c',
        fun _ c' => c'.Sound P origin, False⟩ c := fun hnot hm =>
    Mut.wp_mono hm (fun _ _ h => ⟨h, fun hm => (hnot hm).elim⟩) (fun _ _ => id) id
  unfold clickAction
  cases hk : click.kind with
  | pickup =>
    by_cases hslot : click.slot.val = -999
    · refine hkeeps (by simp [ContainerClick.MovesOnly, hk, hslot]) ?_
      simp only [pickup, Mut.wp_ite, if_pos hslot, Mut.wp_fail]
      split
      · exact h
      · exact pickupOutside_spec law h click.button
    · exact hmoves (pickup_spec law h click.slot click.button hslot)
  | quickMove => exact hmoves (quickMove_spec law h click.slot)
  | swap => exact hmoves (swapHotbar_spec h click.slot click.button)
  | clone =>
    exact hkeeps (by simp [ContainerClick.MovesOnly, hk]) (cloneStack_spec law h click.slot)
  | throw =>
    exact hkeeps (by simp [ContainerClick.MovesOnly, hk])
      (throwStack_spec law h click.slot click.button)
  | quickCraft => exact (hkind hk).elim
  | pickupAll => exact hmoves (pickupAll_spec law h click.button)

/-- What a click does to the inventory. -/
def clicked (P : ItemStack → Prop) (click : ContainerClick) (s origin : InventoryState) :
    Post InventoryError InventoryState ClickOutcome where
  ok _ s' := s'.Sound P origin ∧ ∃ c c', s.container? click.container = some c ∧
    s'.container? click.container = some c' ∧ Conserves click.MovesOnly c c'
  err _ s' := s'.Sound P origin
  panic := False

theorem clicked_of_gesture {s origin : InventoryState} (h : s.Sound P origin)
    {click : ContainerClick} {m : InventoryM ClickOutcome}
    (hm : Mut.wp m (onlyGesture click s) s) : Mut.wp m (clicked P click s origin) s := by
  refine Mut.wp_mono hm ?_ ?_ id
  · rintro _ s' ⟨hp, ho, c, hc⟩
    exact ⟨⟨hp ▸ h.player, ho ▸ h.opened⟩, c, c, hc, (container?_congr hp ho).trans hc,
      fun _ _ => rfl⟩
  · rintro _ _ rfl
    exact h

theorem QuickCraftGesture.kind_eq {gesture : QuickCraftGesture} {click : ContainerClick}
    {kind : UInt8} (h : ¬ gesture.mismatches click kind = true) : gesture.kind = kind := by
  simp only [QuickCraftGesture.mismatches, Bool.or_eq_true, decide_eq_true_eq, not_or,
    not_not] at h
  exact h.2

theorem endQuickCraft_spec (law : CountLaw P) {s origin : InventoryState} (h : s.Sound P origin)
    {click : ContainerClick} (hclick : click.kind = .quickCraft) {kind : UInt8}
    (hkind : quickCraftKind? click.button = some kind) :
    Mut.wp (endQuickCraft click kind) (clicked P click s origin) s := by
  simp only [endQuickCraft, Mut.wp_ite, Mut.wp_fail, Mut.wp_bind, Mut.wp_get]
  split
  · exact h
  · split
    · exact h
    · rename_i gesture _
      simp only [Mut.wp_bind, Mut.wp_set, Mut.wp_ite, Mut.wp_fail]
      split
      · exact ⟨h.player, h.opened⟩
      · rename_i hmatch
        have hs : ({ s with quickCraft := none } : InventoryState).Sound P origin :=
          ⟨h.player, h.opened⟩
        refine Mut.wp_mono (onContainer_spec (R := Conserves click.MovesOnly) ?_ hs
          click.container) ?_ (fun _ _ => id) id
        · intro c c₀ hc
          rw [wp_clickOutcome]
          refine Mut.wp_mono (finishQuickCraft_spec law hc gesture) ?_ (fun _ _ => id) id
          rintro _ c' ⟨hc', htally⟩
          refine ⟨hc', fun hm => htally ?_⟩
          simp only [ContainerClick.MovesOnly, hclick, hkind] at hm
          intro h2
          exact hm (by rw [← QuickCraftGesture.kind_eq hmatch, h2])
        · rintro outcome s' ⟨hs', c, c', hc, hc', hcons⟩
          exact ⟨hs'.synchronizedFrom, c, c', hc, container?_synchronizedFrom.trans hc', hcons⟩

/-- One click, of any kind: it does not panic, stacks stay sound, and unless it makes or
destroys items by intent the clicked container holds what it held. -/
theorem applyClick_spec (law : CountLaw P) {s origin : InventoryState} (h : s.Sound P origin)
    (click : ContainerClick) : Mut.wp (applyClick click) (clicked P click s origin) s := by
  unfold applyClick
  split
  · rename_i hkind
    unfold applyQuickCraft
    split
    · exact h
    · rename_i kind hk
      simp only [Mut.wp_ite, Mut.wp_fail]
      split
      · exact h
      · split
        · exact clicked_of_gesture h (startQuickCraft_spec click kind)
        · split
          · exact clicked_of_gesture h (addQuickCraftSlot_spec click kind)
          · split
            · exact endQuickCraft_spec law h hkind hk
            · exact h
  · rename_i hkind
    have hs : ({ s with quickCraft := none } : InventoryState).Sound P origin :=
      ⟨h.player, h.opened⟩
    simp only [Mut.wp_bind, Mut.wp_modify]
    refine Mut.wp_mono (onContainer_spec (R := Conserves click.MovesOnly) ?_ hs
      click.container) ?_ (fun _ _ => id) id
    · intro c c₀ hc
      simp only [checkedAction, Mut.wp_bind, Mut.wp_get, Mut.wp_ite, Mut.wp_fail]
      split
      · exact hc
      · rw [wp_clickOutcome]
        exact clickAction_spec law hc hkind
    · rintro outcome s' ⟨hs', c, c', hc, hc', hcons⟩
      exact ⟨hs'.synchronizedFrom, c, c', hc, container?_synchronizedFrom.trans hc', hcons⟩

/-! ### Runs of clicks -/

/-- The state after a run of clicks, whether they succeed or fail; none after a panic. -/
def applyClicks : List ContainerClick → InventoryState → Option InventoryState
  | [], s => some s
  | click :: rest, s => ((applyClick click s).state?).bind (applyClicks rest)

theorem applyClicks_sound (law : CountLaw P) (clicks : List ContainerClick) :
    ∀ {s origin : InventoryState}, s.Sound P origin →
      ∃ s', applyClicks clicks s = some s' ∧ s'.Sound P origin := by
  induction clicks with
  | nil => exact fun h => ⟨_, rfl, h⟩
  | cons click rest ih =>
    intro s origin h
    have hwp := applyClick_spec law h click
    unfold Mut.wp at hwp
    unfold applyClicks
    cases hrun : applyClick click s with
    | ok outcome s' =>
      rw [hrun] at hwp
      exact ih hwp.1
    | err e s' =>
      rw [hrun] at hwp
      exact ih hwp
    | panic =>
      rw [hrun] at hwp
      exact hwp.elim

/-- From well-counted stacks every run of clicks ends, without a panic, in well-counted
stacks and slot lists of the same lengths. -/
theorem applyClicks_wellCounted {s : InventoryState} (h : s.Stacks ItemStack.WellCounted)
    (clicks : List ContainerClick) :
    ∃ s', applyClicks clicks s = some s' ∧ s'.Stacks ItemStack.WellCounted ∧
      s'.slotCounts = s.slotCounts := by
  obtain ⟨s', hrun, hs'⟩ := applyClicks_sound wellCounted_law clicks h.sound
  exact ⟨s', hrun, hs'.stacks, hs'.slotCounts⟩

def stone (count : Nat) : ItemStack := ⟨⟨"minecraft:stone", by decide +kernel⟩, count, .default⟩

def chestMenu : ContainerState where
  id := ⟨1⟩
  menu := .menu ⟨"minecraft:generic_9x1", by decide +kernel⟩
  title := "Chest"
  stateId := 7
  slots := (List.replicate 45 none).set 4 (some (stone 64))
  carried := some (stone 10)
  properties := .empty

/-- An open chest, and ten items on the cursor. -/
def chestOpen : InventoryState :=
  { InventoryState.new with
    player := InventoryState.new.player.withCarried (some (stone 10))
    opened := some chestMenu }

theorem applyClicks_wellCounted_chest :
    chestOpen.Stacks ItemStack.WellCounted ∧
      ∃ s', applyClicks [⟨⟨1⟩, 7, ⟨4⟩, 0, .quickMove⟩, ⟨⟨1⟩, 7, ⟨-999⟩, 0, .quickCraft⟩] chestOpen =
        some s' ∧ s'.Stacks ItemStack.WellCounted ∧ s'.slotCounts = chestOpen.slotCounts := by
  have h : chestOpen.Stacks ItemStack.WellCounted := by decide +kernel
  exact ⟨h, applyClicks_wellCounted h _⟩

/-- A successful click that neither makes nor destroys items by intent leaves the clicked
container with as many items of every kind. -/
theorem applyClick_conserves {s s' : InventoryState} (h : s.Stacks ItemStack.Counted)
    {click : ContainerClick} (hmoves : click.MovesOnly) {outcome : ClickOutcome}
    (hok : applyClick click s = .ok outcome s') :
    ∃ c c', s.container? click.container = some c ∧ s'.container? click.container = some c' ∧
      ∀ key, c'.tally key = c.tally key := by
  have hwp := applyClick_spec counted_law h.sound click
  obtain ⟨-, c, c', hc, hc', hcons⟩ := Mut.ok_of_wp hwp hok
  exact ⟨c, c', hc, hc', hcons hmoves⟩

theorem applyClick_conserves_chest :
    ∃ outcome s' c c', applyClick ⟨⟨1⟩, 7, ⟨4⟩, 0, .pickup⟩ chestOpen = .ok outcome s' ∧
      chestOpen.container? ⟨1⟩ = some c ∧ s'.container? ⟨1⟩ = some c' ∧
      ∀ key, c'.tally key = c.tally key := by
  have h : chestOpen.Stacks ItemStack.Counted := by decide +kernel
  have hrun : (applyClick ⟨⟨1⟩, 7, ⟨4⟩, 0, .pickup⟩ chestOpen).value?.isSome = true := by
    decide +kernel
  cases hok : applyClick ⟨⟨1⟩, 7, ⟨4⟩, 0, .pickup⟩ chestOpen with
  | ok outcome s' =>
    obtain ⟨c, c', hc, hc', ht⟩ := applyClick_conserves h (by decide) hok
    exact ⟨outcome, s', c, c', rfl, hc, hc', ht⟩
  | err e s' =>
    rw [hok] at hrun
    cases hrun
  | panic =>
    rw [hok] at hrun
    cases hrun

end Cubic.Inventory
