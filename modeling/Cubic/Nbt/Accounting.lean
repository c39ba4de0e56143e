import Cubic.Nbt.Encode

/-!
# What the limits ask of a tree

`Fits` and the sums `tags` and `cost` say in terms of the tree alone what the validation
pass accepts and what it spends.
-/

namespace Cubic

set_option autoImplicit false

section Limits
variable (limits : NbtLimits) (layout : NbtLayout)

/-! ### Trees within the limits -/

namespace NbtTree

/-- What is asked of a node at a depth, where a compound may have `n` entries. -/
def NodeFits (n depth : Nat) (t : NbtTree) : Prop :=
  depth ≤ limits.maxDepth.toNat ∧
    match t with
    | .byteArray values => values.length ≤ min limits.maxArrayElements.toNat i32Max
    | .intArray values => values.length ≤ min limits.maxArrayElements.toNat i32Max
    | .longArray values => values.length ≤ min limits.maxArrayElements.toNat i32Max
    | .string value => encodedLen value ≤ limits.maxStringEncodedBytes
    | .list id elements => validateList id elements = .ok () ∧
        elements.length ≤ min limits.maxListElements.toNat i32Max
    | .compound entries => entries.length ≤ n ∧
        ∀ e ∈ entries, encodedLen e.1 ≤ limits.maxStringEncodedBytes
    | _ => True

def Fits (n depth : Nat) (t : NbtTree) : Prop := t.All (NodeFits limits n) depth

variable {limits} in
theorem Fits.depth_le {n depth : Nat} {t : NbtTree} (h : t.Fits limits n depth) :
    depth ≤ limits.maxDepth.toNat := by
  cases t with
  | list => exact h.1.1
  | compound => exact h.1.1
  | _ => exact h.1

variable {limits} in
theorem Fits.mono {n n' depth : Nat} {t : NbtTree} (h : t.Fits limits n depth) (hn : n ≤ n') :
    t.Fits limits n' depth := by
  refine all_imp₂ (fun depth t hfits _ => ?_) t h h
  refine ⟨hfits.1, ?_⟩
  cases t with
  | compound => exact ⟨Nat.le_trans hfits.2.1 hn, hfits.2.2⟩
  | _ => exact hfits.2

/-- A compound has at most `n` entries. -/
def NodeEntries (n : Nat) : NbtTree → Prop
  | .compound entries => entries.length ≤ n
  | _ => True

/-- No compound has more than `n` entries. -/
def EntriesAtMost (n : Nat) (t : NbtTree) : Prop := t.All (fun _ => NodeEntries n) 0

/-- The tags of a tree, itself included. -/
def tags (t : NbtTree) : Nat := t.total fun _ => 1

/-- The bytes charged for one name, with the entry it belongs to. -/
def entryCost (e : NbtString × NbtTree) : Nat := layout.compoundEntryBudget + encodedLen e.1 * 2

/-- The bytes charged for one node. -/
def nodeCost : NbtTree → Nat
  | .byteArray values => values.length * 1
  | .intArray values => values.length * 4
  | .longArray values => values.length * 8
  | .string value => encodedLen value * 2
  | .list _ elements => elements.length * layout.tagBytes
  | .compound entries => (entries.map (entryCost layout)).sum
  | _ => 0

def cost (t : NbtTree) : Nat := t.total (nodeCost layout)

end NbtTree

def Budget.Bounded (b : Budget) : Prop :=
  b.totalTags ≤ limits.maxTotalTags.toNat ∧ b.bytes ≤ limits.maxTotalAllocatedBytes.toNat

def Budget.plus (b : Budget) (tags cost : Nat) : Budget := ⟨b.totalTags + tags, b.bytes + cost⟩

/-! ### Passes that check a property and spend a fixed amount -/

/-- From a budget with `floor` tags in it, `m` succeeds when `P` holds and the budget allows
for the given amounts, which it then spends. -/
def Spends (floor : Nat) (m : BudgetM Unit) (P : Prop) (tags cost : Nat) : Prop :=
  ∀ b b' : Budget, floor ≤ b.totalTags → b.Bounded limits →
    (m b = .ok () b' ↔ P ∧ b'.Bounded limits ∧ b' = b.plus tags cost)

variable {limits layout} {floor tags tags' cost cost' depth : Nat} {m n : BudgetM Unit} {P Q : Prop}

theorem Spends.congr (h : Spends limits floor m P tags cost) (hPQ : P ↔ Q) (htags : tags = tags')
    (hcost : cost = cost') : Spends limits floor m Q tags' cost' := by
  subst htags hcost
  intro b b' hfloor hb
  rw [h b b' hfloor hb, hPQ]

theorem Spends.seq (hm : Spends limits floor m P tags cost)
    (hn : Spends limits (floor + tags) n Q tags' cost') :
    Spends limits floor (m >>= fun _ => n) (P ∧ Q) (tags + tags') (cost + cost') := by
  intro b b' hfloor hb
  rw [Mut.bind_eq_ok]
  constructor
  · intro h
    obtain ⟨_, s, hs, h⟩ := h
    obtain ⟨hP, hbound, rfl⟩ := (hm b s hfloor hb).mp hs
    obtain ⟨hQ, hbound', rfl⟩ := (hn _ b' (Nat.add_le_add_right hfloor tags) hbound).mp h
    refine ⟨⟨hP, hQ⟩, hbound', ?_⟩
    simp only [Budget.plus, Nat.add_assoc]
  · intro h
    obtain ⟨⟨hP, hQ⟩, hbound, rfl⟩ := h
    have hmid : (b.plus tags cost).Bounded limits := by
      unfold Budget.Bounded Budget.plus at hbound ⊢
      simp only at hbound ⊢
      omega
    refine ⟨(), b.plus tags cost, (hm b _ hfloor hb).mpr ⟨hP, hmid, rfl⟩, ?_⟩
    refine (hn _ _ (Nat.add_le_add_right hfloor tags) hmid).mpr ⟨hQ, hbound, ?_⟩
    simp only [Budget.plus, Nat.add_assoc]

theorem spends_pure : Spends limits floor (pure ()) True 0 0 := by
  intro b b' _ hb
  rw [Mut.ret_apply]
  constructor
  · intro h
    cases h
    exact ⟨trivial, hb, rfl⟩
  · intro h
    rw [h.2.2]
    rfl

theorem spends_check {r : Except NbtError Unit} :
    Spends limits floor (Mut.ofExcept r) (r = .ok ()) 0 0 := by
  intro b b' _ hb
  rw [Mut.ofExcept_eq_ok]
  constructor
  · intro h
    rw [h.2]
    exact ⟨h.1, hb, rfl⟩
  · intro h
    exact ⟨h.1, h.2.2⟩

theorem spends_addTag : Spends limits floor (addTag limits depth) (depth ≤ limits.maxDepth.toNat) 1 0 := by
  intro b b' _ hb
  rw [addTag_eq_ok]
  constructor
  · intro h
    obtain ⟨hdepth, htags, rfl⟩ := h
    exact ⟨hdepth, ⟨htags, hb.2⟩, rfl⟩
  · intro h
    obtain ⟨hdepth, hbound, rfl⟩ := h
    exact ⟨hdepth, hbound.1, rfl⟩

theorem spends_charge (amount : Nat) : Spends limits floor (chargeBudget limits amount) True 0 amount := by
  intro b b' _ hb
  rw [chargeBudget_eq_ok]
  constructor
  · intro h
    obtain ⟨hbytes, rfl⟩ := h
    exact ⟨trivial, ⟨hb.1, hbytes⟩, rfl⟩
  · intro h
    obtain ⟨_, hbound, rfl⟩ := h
    exact ⟨hbound.2, rfl⟩

/-- Where the size of a collection overflows, it is beyond every budget. -/
theorem spends_collection {kind : NbtCollectionKind} {length size : Nat} {f : Nat → BudgetM Unit}
    (hcost : length * size ≤ cost) (hf : Spends limits floor (f (length * size)) P tags cost) :
    Spends limits floor (Mut.ofExcept (checkedCollectionBytes kind length size) >>= f) P tags cost := by
  intro b b' hfloor hb
  by_cases hsize : length * size ≤ usizeMax
  · have hok : checkedCollectionBytes kind length size = .ok (length * size) :=
      checkedCollectionBytes_eq_ok.mpr ⟨hsize, rfl⟩
    have hread : (Mut.ofExcept (checkedCollectionBytes kind length size) : BudgetM Nat) b =
        .ok (length * size) b := Mut.ofExcept_eq_ok.mpr ⟨hok, rfl⟩
    rw [Mut.bind_of_ok hread]
    exact hf b b' hfloor hb
  · constructor
    · intro h
      obtain ⟨bytes, s, hbytes, _⟩ := Mut.bind_eq_ok.mp h
      exact (hsize (checkedCollectionBytes_eq_ok.mp (Mut.ofExcept_eq_ok.mp hbytes).1).1).elim
    · intro h
      obtain ⟨_, hbound, rfl⟩ := h
      have husize := usize_le limits.maxTotalAllocatedBytes
      have hbytes : b.bytes + cost ≤ limits.maxTotalAllocatedBytes.toNat := hbound.2
      omega

/-- A budget that counted the tags down to a depth has room for the next depth. -/
theorem spends_nextDepth {f : Nat → BudgetM Unit} (hdepth : depth + 1 ≤ floor)
    (hf : Spends limits floor (f (depth + 1)) P tags cost) :
    Spends limits floor (Mut.ofExcept (nextDepth limits depth) >>= f) P tags cost := by
  intro b b' hfloor hb
  have husize := usize_le limits.maxTotalTags
  have htags := hb.1
  have hnext : nextDepth limits depth = .ok (depth + 1) := nextDepth_eq_ok.mpr ⟨by omega, rfl⟩
  have hread : (Mut.ofExcept (nextDepth limits depth) : BudgetM Nat) b = .ok (depth + 1) b :=
    Mut.ofExcept_eq_ok.mpr ⟨hnext, rfl⟩
  rw [Mut.bind_of_ok hread]
  exact hf b b' hfloor hb

theorem spends_length {kind : NbtCollectionKind} {length max : Nat} :
    Spends limits floor (Mut.ofExcept (validateCollectionLength kind length max))
      (length ≤ min max i32Max) 0 0 := by
  refine spends_check.congr ?_ rfl rfl
  unfold validateCollectionLength
  by_cases h : length > min max i32Max
  · simp only [if_pos h, reduceCtorEq, false_iff]
    omega
  · simp only [if_neg h, true_iff]
    omega

theorem spends_string (value : NbtString) :
    Spends limits floor (validateString limits value)
      (encodedLen value ≤ limits.maxStringEncodedBytes) 0 (encodedLen value * 2) := by
  have hmax := limits.maxStringEncodedBytes_le
  have hcheck : Spends limits floor (Mut.ofExcept (validateEncodedLength limits (encodedLen value)))
      (encodedLen value ≤ limits.maxStringEncodedBytes) 0 0 :=
    spends_check.congr validateEncodedLength_eq_ok rfl rfl
  by_cases hlen : encodedLen value ≤ limits.maxStringEncodedBytes
  · have hmul : checkedMul (encodedLen value) 2 = some (encodedLen value * 2) := by
      refine checkedMul_eq_some.mpr ⟨?_, rfl⟩
      unfold usizeMax
      unfold u16Max at hmax
      omega
    unfold validateString
    simp only [hmul]
    exact Spends.congr (hcheck.seq (spends_charge _)) (and_iff_left trivial) rfl (Nat.zero_add _)
  · intro b b' hfloor hb
    constructor
    · intro h
      obtain ⟨_, s, hs, _⟩ := Mut.bind_eq_ok.mp h
      exact (hlen ((hcheck b s hfloor hb).mp hs).1).elim
    · intro h
      exact (hlen h.1).elim

theorem spends_array {kind : NbtCollectionKind} {length size : Nat} :
    Spends limits floor (validateArray limits length kind size)
      (length ≤ min limits.maxArrayElements.toNat i32Max) 0 (length * size) := by
  exact Spends.congr (spends_length.seq (spends_collection (Nat.le_refl _) (spends_charge _)))
    (and_iff_left trivial) rfl (Nat.zero_add _)

/-! ### The validation pass -/

/-- The number of entries that the encoder admits. -/
def NbtLimits.encodableEntries (limits : NbtLimits) : Nat :=
  min limits.maxCompoundEntries.toNat i32Max

/-- At a depth that the tags counted so far cover, the pass accepts the trees that fit. -/
def ValidatesAt (limits : NbtLimits) (layout : NbtLayout) (depth : Nat) (t : NbtTree) : Prop :=
  ∀ floor, depth ≤ floor → Spends limits floor (validateTag limits layout depth t)
    (t.Fits limits limits.encodableEntries depth) t.tags (t.cost layout)

theorem spends_elements {elements : List NbtTree} (hdepth : depth ≤ floor)
    (h : ∀ e ∈ elements, ValidatesAt limits layout depth e) :
    Spends limits floor (validateElements limits layout depth elements)
      (NbtTree.AllElements (NbtTree.NodeFits limits limits.encodableEntries) depth elements)
      (NbtTree.totalElements (fun _ => 1) elements)
      (NbtTree.totalElements (NbtTree.nodeCost layout) elements) := by
  induction elements generalizing floor with
  | nil => exact spends_pure
  | cons e rest ih =>
    obtain ⟨he, hrest⟩ := List.forall_mem_cons.mp h
    rw [validateElements]
    exact (he floor hdepth).seq (ih (Nat.le_add_right_of_le hdepth) hrest)

theorem spends_entries {entries : List (NbtString × NbtTree)} (hdepth : depth ≤ floor)
    (h : ∀ e ∈ entries, ValidatesAt limits layout depth e.2) :
    Spends limits floor (validateEntries limits layout depth entries)
      ((∀ e ∈ entries, encodedLen e.1 ≤ limits.maxStringEncodedBytes) ∧
        NbtTree.AllEntries (NbtTree.NodeFits limits limits.encodableEntries) depth entries)
      (NbtTree.totalEntries (fun _ => 1) entries)
      ((entries.map (NbtTree.entryCost layout)).sum +
        NbtTree.totalEntries (NbtTree.nodeCost layout) entries) := by
  induction entries generalizing floor with
  | nil => exact spends_pure.congr (by simp [NbtTree.AllEntries]) rfl rfl
  | cons e rest ih =>
    obtain ⟨name, value⟩ := e
    obtain ⟨hvalue, hrest⟩ := List.forall_mem_cons.mp h
    rw [validateEntries]
    have hfloor : depth ≤ floor + 0 + 0 + value.tags := by omega
    have htail := ih hfloor hrest
    refine Spends.congr (Spends.seq (spends_charge _) (Spends.seq (spends_string name)
      (Spends.seq (hvalue _ hdepth) htail))) ?_ ?_ ?_
    · simp only [true_and, List.forall_mem_cons, NbtTree.AllEntries, NbtTree.Fits]
      constructor
      · intro h
        rcases h with ⟨hname, hvalue, hnames, hall⟩
        exact ⟨⟨hname, hnames⟩, hvalue, hall⟩
      · intro h
        rcases h with ⟨⟨hname, hnames⟩, hvalue, hall⟩
        exact ⟨hname, hvalue, hnames, hall⟩
    · simp only [NbtTree.totalEntries, NbtTree.tags]
      omega
    · simp only [NbtTree.totalEntries, NbtTree.cost, List.map_cons, List.sum_cons, NbtTree.entryCost]
      omega

theorem spends_compound {entries : List (NbtString × NbtTree)} (hdepth : depth + 1 ≤ floor)
    (h : ∀ e ∈ entries, ValidatesAt limits layout (depth + 1) e.2) :
    Spends limits floor (validateCompound limits layout entries depth)
      ((entries.length ≤ limits.encodableEntries ∧
          ∀ e ∈ entries, encodedLen e.1 ≤ limits.maxStringEncodedBytes) ∧
        NbtTree.AllEntries (NbtTree.NodeFits limits limits.encodableEntries) (depth + 1) entries)
      (NbtTree.totalEntries (fun _ => 1) entries)
      (NbtTree.nodeCost layout (.compound entries) +
        NbtTree.totalEntries (NbtTree.nodeCost layout) entries) := by
  have hentries := spends_entries hdepth h
  exact Spends.congr (spends_length.seq (spends_nextDepth hdepth hentries)) (and_assoc.symm)
    (Nat.zero_add _) (Nat.zero_add _)

/-- What the validation pass accepts, and what it spends. -/
theorem spends_tag (t : NbtTree) : ∀ depth, ValidatesAt limits layout depth t := by
  induction t using NbtTree.induct with
  | list id elements ih =>
    intro depth floor hdepth
    rw [validateTag]
    have hnext := Nat.succ_le_succ hdepth
    refine Spends.congr (Spends.seq spends_addTag (Spends.seq spends_check (Spends.seq spends_length
      (spends_collection (Nat.le_add_right _ _) (Spends.seq (spends_charge _) (spends_nextDepth hnext
        (spends_elements hnext fun e he => ih e he (depth + 1)))))))) ?_ ?_ ?_
    · simp only [true_and, NbtTree.Fits, NbtTree.All, NbtTree.NodeFits, and_assoc]
    · simp only [NbtTree.tags, NbtTree.total]
      omega
    · simp only [NbtTree.cost, NbtTree.total, NbtTree.nodeCost]
      omega
  | compound entries ih =>
    intro depth floor hdepth
    rw [validateTag]
    refine Spends.congr (Spends.seq spends_addTag (spends_compound (Nat.succ_le_succ hdepth) fun e he =>
      ih e he (depth + 1))) ?_ rfl (Nat.zero_add _)
    simp only [NbtTree.Fits, NbtTree.All, NbtTree.NodeFits, and_assoc]
  | byteArray values =>
    intro depth floor _
    rw [validateTag]
    exact Spends.congr (Spends.seq spends_addTag spends_array) Iff.rfl rfl (Nat.zero_add _)
  | intArray values =>
    intro depth floor _
    rw [validateTag]
    exact Spends.congr (Spends.seq spends_addTag spends_array) Iff.rfl rfl (Nat.zero_add _)
  | longArray values =>
    intro depth floor _
    rw [validateTag]
    exact Spends.congr (Spends.seq spends_addTag spends_array) Iff.rfl rfl (Nat.zero_add _)
  | string value =>
    intro depth floor _
    rw [validateTag]
    exact Spends.congr (Spends.seq spends_addTag (spends_string value)) Iff.rfl rfl (Nat.zero_add _)
  | _ =>
    intro depth floor _
    rw [validateTag]
    exact Spends.seq spends_addTag spends_pure

theorem spends_namedRoot (entries : List (NbtString × NbtTree)) (name : NbtString) :
    Spends limits floor (validateRoot limits layout entries (some name))
      (encodedLen name ≤ limits.maxStringEncodedBytes ∧
        (NbtTree.compound entries).Fits limits limits.encodableEntries 0)
      (NbtTree.compound entries).tags
      (encodedLen name * 2 + (NbtTree.compound entries).cost layout) := by
  refine Spends.congr (Spends.seq spends_addTag (Spends.seq (spends_string name)
    (spends_compound (Nat.le_add_left 1 floor) fun e _ => spends_tag e.2 1))) ?_ ?_ (Nat.zero_add _)
  · simp only [NbtTree.Fits, NbtTree.All, NbtTree.NodeFits, and_assoc, and_left_comm]
  · simp only [NbtTree.tags, NbtTree.total, Nat.zero_add]

theorem spends_unnamedRoot (entries : List (NbtString × NbtTree)) :
    Spends limits floor (validateRoot limits layout entries none)
      ((NbtTree.compound entries).Fits limits limits.encodableEntries 0)
      (NbtTree.compound entries).tags ((NbtTree.compound entries).cost layout) := by
  refine Spends.congr (Spends.seq spends_addTag (spends_compound (Nat.le_add_left 1 floor)
    fun e _ => spends_tag e.2 1)) ?_ rfl (Nat.zero_add _)
  simp only [NbtTree.Fits, NbtTree.All, NbtTree.NodeFits, and_assoc]

end Limits
end Cubic
