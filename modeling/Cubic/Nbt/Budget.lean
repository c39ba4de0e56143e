import Cubic.Lib.Mut
import Cubic.Nbt.Tag

/-!
# What a value spends

The decoder and the encoder count tags and charge bytes in the same way, each in a context
of its own; the two counters are the budget.
-/

namespace Cubic

set_option autoImplicit false

structure Budget where
  totalTags : Nat
  bytes : Nat
  deriving DecidableEq

abbrev BudgetM := Mut Budget NbtError

/-- `size_of::<NbtString>()` and `size_of::<NbtTag>()`, which the compiler decides. -/
structure NbtLayout where
  stringBytes : Nat
  tagBytes : Nat

def NbtLayout.compoundEntryBudget (layout : NbtLayout) : Nat :=
  layout.stringBytes + layout.tagBytes + 4 * 8

section Limits
variable (limits : NbtLimits)

def addTag (depth : Nat) : BudgetM Unit := do
  if depth > limits.maxDepth.toNat then
    Mut.fail (.depthLimitExceeded depth limits.maxDepth.toNat)
  else do
    let b ← Mut.get
    match checkedAdd b.totalTags 1 with
    | none => Mut.fail (.totalTagLimitExceeded usizeMax limits.maxTotalTags.toNat)
    | some count =>
      if count > limits.maxTotalTags.toNat then
        Mut.fail (.totalTagLimitExceeded count limits.maxTotalTags.toNat)
      else Mut.set { b with totalTags := count }

def chargeBudget (amount : Nat) : BudgetM Unit := do
  let b ← Mut.get
  match checkedAdd b.bytes amount with
  | none => Mut.fail (.allocationBudgetExceeded usizeMax limits.maxTotalAllocatedBytes.toNat)
  | some attempted =>
    if attempted > limits.maxTotalAllocatedBytes.toNat then
      Mut.fail (.allocationBudgetExceeded attempted limits.maxTotalAllocatedBytes.toNat)
    else Mut.set { b with bytes := attempted }

def nextDepth (depth : Nat) : Except NbtError Nat :=
  match checkedAdd depth 1 with
  | some next => .ok next
  | none => .error (.depthLimitExceeded usizeMax limits.maxDepth.toNat)

def checkedCollectionBytes (kind : NbtCollectionKind) (length elementSize : Nat) : Except NbtError Nat :=
  match checkedMul length elementSize with
  | some bytes => .ok bytes
  | none => .error (.collectionSizeOverflow kind length elementSize)

def validateEncodedLength (encodedLength : Nat) : Except NbtError Unit :=
  if encodedLength > limits.maxStringEncodedBytes then
    .error (.stringTooLong encodedLength limits.maxStringEncodedBytes)
  else .ok ()

variable {limits}

theorem usize_le (n : UInt64) : n.toNat ≤ usizeMax := Nat.le_sub_one_of_lt n.toNat_lt

theorem addTag_eq_ok {depth : Nat} {b b' : Budget} :
    addTag limits depth b = .ok () b' ↔ depth ≤ limits.maxDepth.toNat ∧
      b.totalTags + 1 ≤ limits.maxTotalTags.toNat ∧ b' = ⟨b.totalTags + 1, b.bytes⟩ := by
  have husize := usize_le limits.maxTotalTags
  unfold addTag
  by_cases hdepth : depth > limits.maxDepth.toNat
  · rw [if_pos hdepth]
    constructor
    · intro h
      cases h
    · intro h
      omega
  rw [if_neg hdepth, Mut.get_bind]
  cases hadd : checkedAdd b.totalTags 1 with
  | none =>
    constructor
    · intro h
      cases h
    · intro h
      have hsome := checkedAdd_eq_some.mpr ⟨le_trans h.2.1 husize, rfl⟩
      rw [hadd] at hsome
      cases hsome
  | some count =>
    obtain ⟨_, rfl⟩ := checkedAdd_eq_some.mp hadd
    by_cases hcount : b.totalTags + 1 > limits.maxTotalTags.toNat
    · simp only [if_pos hcount]
      constructor
      · intro h
        cases h
      · intro h
        omega
    · simp only [if_neg hcount]
      constructor
      · intro h
        cases h
        exact ⟨Nat.not_lt.mp hdepth, Nat.not_lt.mp hcount, rfl⟩
      · intro h
        rw [h.2.2]
        rfl

theorem chargeBudget_eq_ok {amount : Nat} {b b' : Budget} :
    chargeBudget limits amount b = .ok () b' ↔
      b.bytes + amount ≤ limits.maxTotalAllocatedBytes.toNat ∧
        b' = ⟨b.totalTags, b.bytes + amount⟩ := by
  have husize := usize_le limits.maxTotalAllocatedBytes
  unfold chargeBudget
  rw [Mut.get_bind]
  cases hadd : checkedAdd b.bytes amount with
  | none =>
    constructor
    · intro h
      cases h
    · intro h
      have hsome := checkedAdd_eq_some.mpr ⟨le_trans h.1 husize, rfl⟩
      rw [hadd] at hsome
      cases hsome
  | some attempted =>
    obtain ⟨_, rfl⟩ := checkedAdd_eq_some.mp hadd
    by_cases hmax : b.bytes + amount > limits.maxTotalAllocatedBytes.toNat
    · simp only [if_pos hmax]
      constructor
      · intro h
        cases h
      · intro h
        omega
    · simp only [if_neg hmax]
      constructor
      · intro h
        cases h
        exact ⟨Nat.not_lt.mp hmax, rfl⟩
      · intro h
        rw [h.2]
        rfl

theorem nextDepth_eq_ok {depth next : Nat} :
    nextDepth limits depth = .ok next ↔ depth + 1 ≤ usizeMax ∧ next = depth + 1 := by
  rw [← checkedAdd_eq_some]
  unfold nextDepth
  cases checkedAdd depth 1 with
  | none => simp
  | some next' => simp

theorem checkedCollectionBytes_eq_ok {kind : NbtCollectionKind} {length elementSize bytes : Nat} :
    checkedCollectionBytes kind length elementSize = .ok bytes ↔
      length * elementSize ≤ usizeMax ∧ bytes = length * elementSize := by
  rw [← checkedMul_eq_some]
  unfold checkedCollectionBytes
  cases checkedMul length elementSize with
  | none => simp
  | some bytes' => simp

theorem validateEncodedLength_eq_ok {encodedLength : Nat} :
    validateEncodedLength limits encodedLength = .ok () ↔
      encodedLength ≤ limits.maxStringEncodedBytes := by
  unfold validateEncodedLength
  split
  · rename_i h
    simp only [reduceCtorEq, false_iff]
    omega
  · rename_i h
    simp only [true_iff]
    omega

end Limits
end Cubic
