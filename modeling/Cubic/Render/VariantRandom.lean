import Cubic.Lib.Congruential
import Cubic.Lib.Mut
import Cubic.World.BlockReads

/-!
# Weighted variants of a model (`mesher.rs`)

A loop that has no bound in the source takes its fuel as an argument; running out of it is the only
error here.
-/

namespace Cubic.Render

set_option autoImplicit false

open Mut World

structure ModelVariantRandom where
  seed : UInt64
  deriving DecidableEq

abbrev Draw := Mut ModelVariantRandom Unit

def modelPositionSeed (x y z : Int32) : Int64 :=
  let mixed := (x * 3129871).toInt64 ^^^ z.toInt64 * 116129781 ^^^ y.toInt64
  (mixed * mixed * 42317861 + mixed * 11) >>> 16

namespace ModelVariantRandom

def multiplier : UInt64 := 25214903917
def increment : UInt64 := 11
def mask : UInt64 := ((1 : UInt64) <<< 48) - 1

def atPosition (x y z : Int32) : ModelVariantRandom :=
  ⟨((modelPositionSeed x y z).toUInt64 ^^^ multiplier) &&& mask⟩

/-- What one draw makes of the state. -/
def advance (random : ModelVariantRandom) : ModelVariantRandom :=
  ⟨(random.seed * multiplier + increment) &&& mask⟩

def next (bits : UInt32) : Draw UInt32 := do
  modify advance
  let random ← get
  pure (random.seed >>> (48 - bits).toUInt64).toUInt32

def rejectionLoop (signedBound : Int32) : Nat → Draw UInt32
  | 0 => fail ()
  | fuel + 1 => do
    let drawn ← next 31
    let bits := drawn.toInt32
    let value := bits % signedBound
    if 0 ≤ bits - value + (signedBound - 1) then pure value.toUInt32
    else rejectionLoop signedBound fuel

/-- `u32::is_power_of_two` -/
def isPowerOfTwo (n : UInt32) : Bool := 2 ^ n.toNat.log2 = n.toNat

def nextInt (fuel : Nat) (bound : UInt32) : Draw (Option UInt32) :=
  match i32TryFromU32 bound with
  | none => pure none
  | some signedBound =>
    if signedBound ≤ 0 then pure none
    else if isPowerOfTwo bound then do
      let drawn ← next 31
      pure (some ((bound.toUInt64 * drawn.toUInt64) >>> 31).toUInt32)
    else do
      let value ← rejectionLoop signedBound fuel
      pure (some value)

end ModelVariantRandom

section
variable {Model : Type}

structure WeightedApplications (Model : Type) where
  entries : List (UInt32 × Model)
  totalWeight : UInt32

/-- Plain subtraction, a panic below zero. -/
def subtractU32 (a b : UInt32) : Draw UInt32 := if b ≤ a then pure (a - b) else fault

/-- The loop over the entries. -/
def walkEntries : List (UInt32 × Model) → UInt32 → Draw (Option Model)
  | [], _ => pure none
  | (weight, model) :: rest, choice =>
    if choice < weight then pure (some model)
    else do
      let choice ← subtractU32 choice weight
      walkEntries rest choice

def selectModel (fuel : Nat) (part : WeightedApplications Model) : Draw (Option Model) :=
  if part.totalWeight = 0 then pure none
  else do
    match ← ModelVariantRandom.nextInt fuel part.totalWeight with
    | none => pure none
    | some choice =>
      match ← walkEntries part.entries choice with
      | some model => pure (some model)
      | none => pure (part.entries.getLast?.map Prod.snd)

def weightOf (entries : List (UInt32 × Model)) : Nat := (entries.map fun e => e.1.toNat).sum

end

namespace ModelVariantRandom
variable {random : ModelVariantRandom}

/-! ### One draw -/

theorem toNat_and_mask (n : UInt64) : (n &&& mask).toNat = n.toNat % 2 ^ 48 := by
  have hmask : mask.toNat = 2 ^ 48 - 1 := rfl
  rw [UInt64.toNat_and, hmask, Nat.and_two_pow_sub_one_eq_mod]

theorem toNat_advance (random : ModelVariantRandom) :
    random.advance.seed.toNat = Congruential.step 25214903917 11 48 random.seed.toNat := by
  have hmultiplier : multiplier.toNat = 25214903917 := rfl
  have hincrement : increment.toNat = 11 := rfl
  have hword : (2 : Nat) ^ 48 ∣ 2 ^ 64 := Nat.pow_dvd_pow 2 (by decide)
  rw [advance, toNat_and_mask, UInt64.toNat_add, UInt64.toNat_mul, Nat.mod_mod_of_dvd _ hword]
  rw [Nat.add_mod, Nat.mod_mod_of_dvd _ hword, ← Nat.add_mod, hmultiplier, hincrement,
    Nat.mul_comm]
  rfl

theorem toNat_iterate_advance (n : Nat) (random : ModelVariantRandom) :
    (advance^[n] random).seed.toNat =
      (Congruential.step 25214903917 11 48)^[n] random.seed.toNat := by
  induction n generalizing random with
  | zero => rfl
  | succ n ih => rw [Function.iterate_succ_apply, ih, toNat_advance, Function.iterate_succ_apply]

/-- Every state after a draw has 48 bits. -/
theorem advance_lt (random : ModelVariantRandom) : random.advance.seed.toNat < 2 ^ 48 := by
  rw [toNat_advance]
  exact Congruential.step_lt 48 _

theorem atPosition_lt (x y z : Int32) : (atPosition x y z).seed.toNat < 2 ^ 48 := by
  rw [atPosition, toNat_and_mask]
  exact Nat.mod_lt _ (by decide)

/-- What a draw of 31 bits returns. -/
def drawn (random : ModelVariantRandom) : UInt32 := (random.advance.seed >>> 17).toUInt32

theorem next_apply (random : ModelVariantRandom) :
    next 31 random = .ok random.drawn random.advance := rfl

theorem toNat_drawn (random : ModelVariantRandom) :
    random.drawn.toNat = random.advance.seed.toNat / 2 ^ 17 := by
  have hlt := random.advance_lt
  have hshift : (random.advance.seed >>> 17).toNat = random.advance.seed.toNat / 2 ^ 17 := by
    rw [UInt64.toNat_shiftRight, Nat.shiftRight_eq_div_pow]
    rfl
  rw [drawn, UInt64.toNat_toUInt32, hshift]
  exact Nat.mod_eq_of_lt (by omega)

theorem drawn_lt (random : ModelVariantRandom) : random.drawn.toNat < 2 ^ 31 := by
  have hlt := random.advance_lt
  rw [toNat_drawn]
  omega

/-! ### The loop -/

section
variable {bits signedBound : Int32}

theorem toInt_rem (signedBound : Int32) (hbits : 0 ≤ bits.toInt) :
    (bits % signedBound).toInt = bits.toInt % signedBound.toInt := by
  rw [Int32.toInt_mod, Int.tmod_eq_emod_of_nonneg hbits]

theorem toNat_toUInt32 {value : Int32} (h : 0 ≤ value.toInt) :
    (value.toUInt32.toNat : Int) = value.toInt := by
  rw [Int32.toNat_toUInt32_of_le (Int32.le_iff_toInt_le.mpr h), Int32.toNatClampNeg]
  exact Int.toNat_of_nonneg h

/-- A draw below half of the range is not rejected. -/
theorem not_rejected (hbits : 0 ≤ bits.toInt) (hlow : bits.toInt < 2 ^ 30)
    (hbound : 0 < signedBound.toInt) : 0 ≤ bits - bits % signedBound + (signedBound - 1) := by
  have hrem := Int.emod_nonneg bits.toInt hbound.ne'
  have hless := Int.emod_lt_of_pos bits.toInt hbound
  have hlt := signedBound.toInt_lt
  have hle : bits.toInt % signedBound.toInt ≤ bits.toInt ∧
      bits.toInt - bits.toInt % signedBound.toInt + (signedBound.toInt - 1) < 2 ^ 31 := by
    rcases lt_or_ge bits.toInt signedBound.toInt with hsmall | hlarge
    · rw [Int.emod_eq_of_lt hbits hsmall]
      omega
    · omega
  have hquotient : (bits - bits % signedBound).toInt =
      bits.toInt - bits.toInt % signedBound.toInt := by
    rw [toInt_sub_of_le] <;> rw [toInt_rem signedBound hbits] <;> omega
  have hone : (1 : Int32).toInt = 1 := rfl
  have hlast : (signedBound - 1).toInt = signedBound.toInt - 1 := by
    rw [toInt_sub_of_le] <;> rw [hone] <;> omega
  have hsum : (bits - bits % signedBound + (signedBound - 1)).toInt =
      bits.toInt - bits.toInt % signedBound.toInt + (signedBound.toInt - 1) := by
    rw [Int32.toInt_add, hquotient, hlast]
    apply Int.bmod_eq_of_le <;> omega
  rw [Int32.le_iff_toInt_le, hsum]
  change (0 : Int) ≤ _
  omega

end

theorem rejectionLoop_ends {signedBound : Int32} (hbound : 0 < signedBound.toInt) (n : Nat)
    (random : ModelVariantRandom) (hlow : (advance^[n + 1] random).seed.toNat < 2 ^ 47) :
    ∃ (value : UInt32) (random' : ModelVariantRandom), (value.toNat : Int) < signedBound.toInt ∧
      ∀ fuel, n < fuel → rejectionLoop signedBound fuel random = .ok value random' := by
  have hdrawn : random.drawn.toInt32.toInt = random.drawn.toNat := toInt_toInt32 random.drawn_lt
  have hbits : 0 ≤ random.drawn.toInt32.toInt := by
    omega
  by_cases haccept : 0 ≤ random.drawn.toInt32 - random.drawn.toInt32 % signedBound +
      (signedBound - 1)
  · refine ⟨(random.drawn.toInt32 % signedBound).toUInt32, random.advance, ?_, ?_⟩
    · have hrem := toInt_rem signedBound hbits
      have hnonneg := Int.emod_nonneg random.drawn.toInt32.toInt hbound.ne'
      rw [toNat_toUInt32 (hrem ▸ hnonneg), hrem]
      exact Int.emod_lt_of_pos _ hbound
    · intro fuel hfuel
      obtain ⟨fuel, rfl⟩ := Nat.exists_eq_succ_of_ne_zero (Nat.ne_of_gt (Nat.zero_lt_of_lt hfuel))
      rw [Nat.succ_eq_add_one, rejectionLoop, bind_of_ok (next_apply random), if_pos haccept]
      rfl
  · cases n with
    | zero =>
      -- the draw itself is low
      rw [Function.iterate_succ_apply, Function.iterate_zero_apply] at hlow
      have hdrawn_low : random.drawn.toNat < 2 ^ 30 := by
        rw [toNat_drawn]
        omega
      exact absurd (not_rejected hbits (by omega) hbound) haccept
    | succ n =>
      rw [Function.iterate_succ_apply] at hlow
      obtain ⟨value, random', hvalue, hloop⟩ := rejectionLoop_ends hbound n random.advance hlow
      refine ⟨value, random', hvalue, fun fuel hfuel => ?_⟩
      obtain ⟨fuel, rfl⟩ := Nat.exists_eq_succ_of_ne_zero (Nat.ne_of_gt (Nat.zero_lt_of_lt hfuel))
      rw [Nat.succ_eq_add_one, rejectionLoop, bind_of_ok (next_apply random), if_neg haccept]
      exact hloop fuel (Nat.lt_of_succ_lt_succ hfuel)

/-- The generator comes to a draw that is not rejected. -/
theorem exists_low (random : ModelVariantRandom) :
    ∃ n ≤ 2 ^ 47, (advance^[n + 1] random).seed.toNat < 2 ^ 47 := by
  obtain ⟨n, hn, hlow⟩ := Congruential.exists_iterate_step_lt (a := 25214903917) (c := 11)
    (by decide) (by decide) 47 random.seed.toNat
  exact ⟨n, hn, (toNat_iterate_advance (n + 1) random).trans_lt hlow⟩

theorem scaled_lt {bound drawn : UInt32} (hbound : 0 < bound.toNat) (hdrawn : drawn.toNat < 2 ^ 31) :
    ((bound.toUInt64 * drawn.toUInt64) >>> 31).toUInt32 < bound := by
  have hlt := bound.toNat_lt
  have hproduct : bound.toNat * drawn.toNat < bound.toNat * 2 ^ 31 :=
    Nat.mul_lt_mul_of_pos_left hdrawn hbound
  have hquotient : bound.toNat * drawn.toNat / 2 ^ 31 < bound.toNat :=
    Nat.div_lt_of_lt_mul (Nat.mul_comm bound.toNat (2 ^ 31) ▸ hproduct)
  have hword : bound.toNat * drawn.toNat % 2 ^ 64 = bound.toNat * drawn.toNat :=
    Nat.mod_eq_of_lt (by omega)
  have hshift : (31 : UInt64).toNat % 64 = 31 := rfl
  rw [UInt32.lt_iff_toNat_lt, UInt64.toNat_toUInt32, UInt64.toNat_shiftRight, UInt64.toNat_mul,
    UInt32.toNat_toUInt64, UInt32.toNat_toUInt64, hword, hshift, Nat.shiftRight_eq_div_pow]
  exact Nat.lt_of_le_of_lt (Nat.mod_le _ _) hquotient

theorem nextInt_ends (random : ModelVariantRandom) (bound : UInt32) (hpos : 1 ≤ bound.toNat)
    (hle : bound.toNat ≤ i32Max) :
    ∃ (value : UInt32) (random' : ModelVariantRandom), value < bound ∧
      ∀ fuel, 2 ^ 47 < fuel → nextInt fuel bound random = .ok (some value) random' := by
  have hsigned : bound.toInt32.toInt = bound.toNat :=
    toInt_toInt32 (Nat.lt_succ_of_le hle)
  have hbound : 0 < bound.toInt32.toInt := by
    omega
  have hnot : ¬ bound.toInt32 ≤ 0 := by
    rw [Int32.le_iff_toInt_le]
    exact not_le.mpr hbound
  have htry : i32TryFromU32 bound = some bound.toInt32 := if_pos hle
  by_cases hpower : isPowerOfTwo bound
  · refine ⟨((bound.toUInt64 * random.drawn.toUInt64) >>> 31).toUInt32, random.advance,
      scaled_lt hpos random.drawn_lt, ?_⟩
    · intro fuel _
      simp only [nextInt, htry, if_neg hnot, if_pos hpower]
      rw [bind_of_ok (next_apply random)]
      rfl
  · obtain ⟨n, hn, hlow⟩ := exists_low random
    obtain ⟨value, random', hvalue, hloop⟩ := rejectionLoop_ends hbound n random hlow
    refine ⟨value, random', UInt32.lt_iff_toNat_lt.mpr (by omega), fun fuel hfuel => ?_⟩
    simp only [nextInt, htry, if_neg hnot, if_neg hpower]
    rw [bind_of_ok (hloop fuel (Nat.lt_of_le_of_lt hn hfuel))]
    rfl

end ModelVariantRandom

/-! ### The entries -/

section
variable {Model : Type}

/-- The entry of this weight stands where the weights before it add up to at most the choice, and
with its own to more. -/
structure Covers (entries : List (UInt32 × Model)) (choice : UInt32) (model : Model) : Prop where
  entry : ∃ before weight after, entries = before ++ (weight, model) :: after ∧
    weightOf before ≤ choice.toNat ∧ choice.toNat < weightOf before + weight.toNat

theorem Covers.head {rest : List (UInt32 × Model)} {weight choice : UInt32} {model : Model}
    (h : choice < weight) : Covers ((weight, model) :: rest) choice model :=
  ⟨[], weight, rest, rfl, Nat.zero_le _, (Nat.zero_add _).symm ▸ h⟩

theorem Covers.tail {rest : List (UInt32 × Model)} {weight choice : UInt32} {first model : Model}
    (hle : weight ≤ choice) (h : Covers rest (choice - weight) model) :
    Covers ((weight, first) :: rest) choice model := by
  obtain ⟨before, own, after, rfl, hlow, hhigh⟩ := h
  have hle' : weight.toNat ≤ choice.toNat := hle
  rw [UInt32.toNat_sub_of_le _ _ hle] at hlow hhigh
  have hsum : weightOf ((weight, first) :: before) = weight.toNat + weightOf before := rfl
  exact ⟨(weight, first) :: before, own, after, rfl, by omega, by omega⟩

/-- The walk stops at an entry as long as the choice is below the sum of the weights. -/
theorem walkEntries_covers (entries : List (UInt32 × Model)) (choice : UInt32)
    (random : ModelVariantRandom) (h : choice.toNat < weightOf entries) :
    ∃ model, Covers entries choice model ∧
      walkEntries entries choice random = .ok (some model) random := by
  induction entries generalizing choice with
  | nil => exact absurd h (Nat.not_lt_zero _)
  | cons first rest ih =>
    obtain ⟨weight, model⟩ := first
    unfold walkEntries
    split
    next hless => exact ⟨model, .head hless, rfl⟩
    next hless =>
      have hle : weight ≤ choice := UInt32.not_lt.mp hless
      have hle' : weight.toNat ≤ choice.toNat := hle
      have hsum : weightOf ((weight, model) :: rest) = weight.toNat + weightOf rest := rfl
      have hrest : (choice - weight).toNat < weightOf rest := by
        rw [UInt32.toNat_sub_of_le _ _ hle]
        omega
      obtain ⟨found, hcovers, hwalk⟩ := ih (choice - weight) hrest
      refine ⟨found, hcovers.tail hle, ?_⟩
      rw [subtractU32, if_pos hle]
      exact hwalk

theorem selectModel_apply {part : WeightedApplications Model} {choice : UInt32} {model : Model}
    {random random' : ModelVariantRandom} {fuel : Nat} (hpos : part.totalWeight ≠ 0)
    (hdraw : ModelVariantRandom.nextInt fuel part.totalWeight random = .ok (some choice) random')
    (hwalk : walkEntries part.entries choice random' = .ok (some model) random') :
    selectModel fuel part random = .ok (some model) random' := by
  rw [selectModel, if_neg hpos, bind_of_ok hdraw]
  simp only []
  rw [bind_of_ok hwalk]
  rfl

/-- The loop of `next_int` ends for every bound with a value below it, and `select_model` returns
the entry that covers the drawn value, without an underflow and not by falling through. -/
theorem selectModel_covers (random : ModelVariantRandom) :
    (∀ bound : UInt32, 1 ≤ bound.toNat → bound.toNat ≤ i32Max →
      ∃ (value : UInt32) (random' : ModelVariantRandom), value < bound ∧
        ∀ fuel, 2 ^ 47 < fuel →
          ModelVariantRandom.nextInt fuel bound random = .ok (some value) random') ∧
    ∀ part : WeightedApplications Model, part.totalWeight.toNat = weightOf part.entries →
      1 ≤ part.totalWeight.toNat → part.totalWeight.toNat ≤ i32Max →
        ∃ (choice : UInt32) (model : Model) (random' : ModelVariantRandom),
          Covers part.entries choice model ∧
            walkEntries part.entries choice random' = .ok (some model) random' ∧
              ∀ fuel, 2 ^ 47 < fuel →
                ModelVariantRandom.nextInt fuel part.totalWeight random =
                    .ok (some choice) random' ∧
                  selectModel fuel part random = .ok (some model) random' := by
  refine ⟨random.nextInt_ends, fun part hsum hpos hle => ?_⟩
  obtain ⟨choice, random', hless, hdraw⟩ := random.nextInt_ends part.totalWeight hpos hle
  have hchoice : choice.toNat < weightOf part.entries := hsum ▸ UInt32.lt_iff_toNat_lt.mp hless
  obtain ⟨model, hcovers, hwalk⟩ := walkEntries_covers part.entries choice random' hchoice
  have hnonzero : part.totalWeight ≠ 0 := fun h => by
    rw [h] at hpos
    exact absurd hpos (by decide)
  refine ⟨choice, model, random', hcovers, hwalk, fun fuel hfuel => ⟨hdraw fuel hfuel, ?_⟩⟩
  exact selectModel_apply hnonzero (hdraw fuel hfuel) hwalk

/-- Weights one, three and six, as in the tests of the source. -/
def threeWeights : WeightedApplications Nat := ⟨[(1, 0), (3, 90), (6, 180)], 10⟩

theorem selectModel_covers_threeWeights :
    ∃ (choice : UInt32) (model : Nat) (random' : ModelVariantRandom),
      Covers threeWeights.entries choice model ∧
        ∀ fuel, 2 ^ 47 < fuel →
          selectModel fuel threeWeights (.atPosition 1 0 0) = .ok (some model) random' := by
  obtain ⟨choice, model, random', hcovers, -, hselect⟩ :=
    (selectModel_covers (.atPosition 1 0 0)).2 threeWeights rfl (by decide) (by decide)
  exact ⟨choice, model, random', hcovers, fun fuel hfuel => (hselect fuel hfuel).2⟩

end

end Cubic.Render
