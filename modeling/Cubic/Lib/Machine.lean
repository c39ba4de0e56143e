import Mathlib.Algebra.BigOperators.Group.List.Basic
import Mathlib.Algebra.Order.Ring.Int
import Mathlib.Algebra.Order.BigOperators.Group.List
import Mathlib.Control.Monad.Basic
import Mathlib.Data.List.Lex
import Mathlib.Data.Option.Basic
import Mathlib.Data.Prod.Lex
import Mathlib.Data.String.Basic
import Mathlib.Tactic.Common
import Mathlib.Tactic.Linarith
import Mathlib.Tactic.Ring

/-!
# Machine integers as ordered keys, and `usize` arithmetic

The 64-bit targets are modelled: `usize` is a natural number up to `usizeMax`.
-/

namespace Cubic

set_option autoImplicit false

def usizeMax : Nat := 2 ^ 64 - 1

def i32Max : Nat := 2 ^ 31 - 1

def u16Max : Nat := 2 ^ 16 - 1

/-- `usize::checked_add` -/
def checkedAdd (a b : Nat) : Option Nat := if a + b ≤ usizeMax then some (a + b) else none

/-- `usize::checked_mul` -/
def checkedMul (a b : Nat) : Option Nat := if a * b ≤ usizeMax then some (a * b) else none

/-- `i32::checked_add` -/
def checkedAddI32 (a b : Int32) : Option Int32 :=
  if -2 ^ 31 ≤ a.toInt + b.toInt ∧ a.toInt + b.toInt < 2 ^ 31 then some (a + b) else none

/-- `i32::checked_sub` -/
def checkedSubI32 (a b : Int32) : Option Int32 :=
  if -2 ^ 31 ≤ a.toInt - b.toInt ∧ a.toInt - b.toInt < 2 ^ 31 then some (a - b) else none

/-- `i32::checked_mul` -/
def checkedMulI32 (a b : Int32) : Option Int32 :=
  if -2 ^ 31 ≤ a.toInt * b.toInt ∧ a.toInt * b.toInt < 2 ^ 31 then some (a * b) else none

/-- `u64::checked_add` -/
def checkedAddU64 (a b : UInt64) : Option UInt64 :=
  if a.toNat + b.toNat < 2 ^ 64 then some (a + b) else none

/-- `usize::saturating_add`, and `u64::saturating_add` of a counter held as a natural
number. -/
def saturatingAdd (a b : Nat) : Nat := min (a + b) usizeMax

/-- `i32::saturating_mul` -/
def saturatingMulI32 (a b : Int32) : Int32 :=
  .ofInt (max (-2 ^ 31) (min (a.toInt * b.toInt) (2 ^ 31 - 1)))

def u64Max : UInt64 := 0xffffffffffffffff

/-- `u64::saturating_add` of one. -/
def saturatingSucc (a : UInt64) : UInt64 := if a = u64Max then a else a + 1

/-- `i32::div_euclid` by a number other than zero and minus one. -/
def divEuclid (a b : Int32) : Int32 := .ofInt (a.toInt / b.toInt)

/-- `i32::rem_euclid` by a number other than zero and minus one. -/
def remEuclid (a b : Int32) : Int32 := .ofInt (a.toInt % b.toInt)

/-- `u8::try_from` -/
def u8TryFrom (a : Int32) : Option UInt8 :=
  if 0 ≤ a.toInt ∧ a.toInt < 2 ^ 8 then some (.ofNat a.toInt.toNat) else none

/-- `i16::try_from` -/
def i16TryFrom (a : Int32) : Option Int16 :=
  if -2 ^ 15 ≤ a.toInt ∧ a.toInt < 2 ^ 15 then some (.ofInt a.toInt) else none

/-- `usize::try_from` -/
def usizeTryFrom (a : Int32) : Option Nat := if 0 ≤ a.toInt then some a.toInt.toNat else none

theorem lt_saturatingSucc {a : UInt64} (h : a ≠ u64Max) : a < saturatingSucc a := by
  have hne : a.toNat ≠ 0xffffffffffffffff := fun heq => h (UInt64.toNat_inj.mp heq)
  have hlt := a.toNat_lt
  unfold saturatingSucc
  rw [if_neg h, UInt64.lt_iff_toNat_lt, UInt64.toNat_add, UInt64.toNat_one]
  omega

theorem checkedAddI32_eq_some {a b c : Int32} :
    checkedAddI32 a b = some c ↔ c.toInt = a.toInt + b.toInt := by
  have hle := c.le_toInt
  have hlt := c.toInt_lt
  unfold checkedAddI32
  split
  · rename_i h
    have hadd : (a + b).toInt = a.toInt + b.toInt := by
      rw [Int32.toInt_add]
      apply Int.bmod_eq_of_le <;> omega
    rw [Option.some.injEq, ← Int32.toInt_inj, hadd]
    exact eq_comm
  · rename_i h
    constructor
    · exact fun hnone => nomatch hnone
    · intro hc
      omega

theorem checkedSubI32_eq_some {a b c : Int32} :
    checkedSubI32 a b = some c ↔ c.toInt = a.toInt - b.toInt := by
  have hle := c.le_toInt
  have hlt := c.toInt_lt
  unfold checkedSubI32
  split
  · rename_i h
    have hsub : (a - b).toInt = a.toInt - b.toInt := by
      rw [Int32.toInt_sub]
      apply Int.bmod_eq_of_le <;> omega
    rw [Option.some.injEq, ← Int32.toInt_inj, hsub]
    exact eq_comm
  · rename_i h
    refine iff_of_false (fun hnone => Option.some_ne_none c hnone.symm) ?_
    intro hc
    omega

theorem checkedMulI32_eq_some {a b c : Int32} :
    checkedMulI32 a b = some c ↔ c.toInt = a.toInt * b.toInt := by
  have hle := c.le_toInt
  have hlt := c.toInt_lt
  unfold checkedMulI32
  split
  · rename_i h
    have hmul : (a * b).toInt = a.toInt * b.toInt := by
      rw [Int32.toInt_mul]
      apply Int.bmod_eq_of_le <;> omega
    rw [Option.some.injEq, ← Int32.toInt_inj, hmul]
    exact eq_comm
  · rename_i h
    refine iff_of_false (fun hnone => Option.some_ne_none c hnone.symm) ?_
    intro hc
    omega

theorem toInt_divEuclid_sixteen (a : Int32) : (divEuclid a 16).toInt = a.toInt / 16 := by
  have hsixteen : (16 : Int32).toInt = 16 := rfl
  have hle := a.le_toInt
  have hlt := a.toInt_lt
  unfold divEuclid
  rw [hsixteen]
  apply Int32.toInt_ofInt_of_le <;> omega

theorem toInt_remEuclid_sixteen (a : Int32) : (remEuclid a 16).toInt = a.toInt % 16 := by
  have hsixteen : (16 : Int32).toInt = 16 := rfl
  unfold remEuclid
  rw [hsixteen]
  apply Int32.toInt_ofInt_of_le <;> omega

theorem toInt_sub_of_le {a b : Int32} (hle : -2 ^ 31 ≤ a.toInt - b.toInt)
    (hlt : a.toInt - b.toInt < 2 ^ 31) : (a - b).toInt = a.toInt - b.toInt := by
  rw [Int32.toInt_sub]
  apply Int.bmod_eq_of_le <;> omega

theorem toInt_toInt32 {a : UInt32} (h : a.toNat < 2 ^ 31) : a.toInt32.toInt = a.toNat := by
  refine BitVec.toInt_eq_toNat_of_lt ?_
  change 2 * a.toNat < 2 ^ 32
  omega

theorem checkedAdd_eq_some {a b c : Nat} :
    checkedAdd a b = some c ↔ a + b ≤ usizeMax ∧ c = a + b := by
  unfold checkedAdd
  split
  · rename_i h
    simp [h, eq_comm]
  · rename_i h
    simp [h]

theorem checkedMul_eq_some {a b c : Nat} :
    checkedMul a b = some c ↔ a * b ≤ usizeMax ∧ c = a * b := by
  unfold checkedMul
  split
  · rename_i h
    simp [h, eq_comm]
  · rename_i h
    simp [h]

instance linearOrderInt16 : LinearOrder Int16 where
  le_refl := Int16.le_refl
  le_trans _ _ _ := Int16.le_trans
  le_antisymm _ _ := Int16.le_antisymm
  le_total := Int16.le_total
  lt_iff_le_not_ge a b := by
    simp only [Int16.lt_iff_toInt_lt, Int16.le_iff_toInt_le]
    omega
  toDecidableLE := inferInstance
  toDecidableEq := inferInstance

instance linearOrderInt32 : LinearOrder Int32 where
  le_refl := Int32.le_refl
  le_trans _ _ _ := Int32.le_trans
  le_antisymm _ _ := Int32.le_antisymm
  le_total := Int32.le_total
  lt_iff_le_not_ge a b := by
    simp only [Int32.lt_iff_toInt_lt, Int32.le_iff_toInt_le]
    omega
  toDecidableLE := inferInstance
  toDecidableEq := inferInstance

instance linearOrderUInt16 : LinearOrder UInt16 where
  le_refl := UInt16.le_refl
  le_trans _ _ _ := UInt16.le_trans
  le_antisymm _ _ := UInt16.le_antisymm
  le_total := UInt16.le_total
  lt_iff_le_not_ge a b := by
    simp only [UInt16.lt_iff_toNat_lt, UInt16.le_iff_toNat_le]
    omega
  toDecidableLE := inferInstance
  toDecidableEq := inferInstance

instance linearOrderUInt32 : LinearOrder UInt32 where
  le_refl := UInt32.le_refl
  le_trans _ _ _ := UInt32.le_trans
  le_antisymm _ _ := UInt32.le_antisymm
  le_total := UInt32.le_total
  lt_iff_le_not_ge a b := by
    simp only [UInt32.lt_iff_toNat_lt, UInt32.le_iff_toNat_le]
    omega
  toDecidableLE := inferInstance
  toDecidableEq := inferInstance

end Cubic
