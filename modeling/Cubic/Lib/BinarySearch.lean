import Mathlib.Data.List.Nodup
import Mathlib.Order.Compare
import Mathlib.Order.Lattice

/-!
# Lookups by a key

A lookup indexes a list if it finds exactly the entries with the key. A binary search does
on a list that ascends strictly, and a linear one on a list of distinct keys.
-/

namespace Cubic

set_option autoImplicit false

/-- The lookup finds an entry exactly when it is in the list and carries the key. -/
def Indexes {κ α : Type} (lookup : κ → Option α) (key : α → κ) (entries : List α) : Prop :=
  ∀ k e, lookup k = some e ↔ e ∈ entries ∧ key e = k

namespace BinarySearch
variable {α κ : Type}

/-- What is sought lies in the `size` entries from `base` on; they are halved until one is left.
The fuel is at least `size`. -/
def narrow (cmp : α → Ordering) (xs : List α) : Nat → Nat → Nat → Nat
  | 0, base, _ => base
  | fuel + 1, base, size =>
    if size ≤ 1 then base
    else if xs[base + size / 2]?.map cmp = some .gt then narrow cmp xs fuel base (size - size / 2)
    else narrow cmp xs fuel (base + size / 2) (size - size / 2)

/-- The index at which the comparison says equal. -/
def binarySearchBy (cmp : α → Ordering) (xs : List α) : Option Nat :=
  let base := narrow cmp xs xs.length 0 xs.length
  if xs[base]?.map cmp = some .eq then some base else none

/-- The entry with a key, by binary search. -/
def search [LinearOrder κ] (key : α → κ) (entries : List α) (k : κ) : Option α :=
  (binarySearchBy (fun e => compare (key e) k) entries).bind fun i => entries[i]?

variable {cmp : α → Ordering} {xs : List α}

/-- Up to `i` the entries are not greater, after `i` they are. -/
def SplitsAt (cmp : α → Ordering) (xs : List α) (i : Nat) : Prop :=
  ∀ j x, xs[j]? = some x → (cmp x = .gt ↔ i < j)

theorem narrow_eq {i : Nat} (hsplits : SplitsAt cmp xs i) : ∀ {fuel base size : Nat},
    base ≤ i → i < base + size → base + size ≤ xs.length → size ≤ fuel →
      narrow cmp xs fuel base size = i := by
  intro fuel
  induction fuel with
  | zero => omega
  | succ fuel ih =>
    intro base size hbase hi hlength hfuel
    rw [narrow]
    split
    · omega
    · rename_i hsize
      have hmid : base + size / 2 < xs.length := by omega
      have hget := List.getElem?_eq_getElem hmid
      have hgreater : xs[base + size / 2]?.map cmp = some .gt ↔ i < base + size / 2 := by
        rw [hget, Option.map_some, Option.some_inj]
        exact hsplits _ _ hget
      split
      · rename_i hgt
        have hlt := hgreater.mp hgt
        exact ih hbase (by omega) (by omega) (by omega)
      · rename_i hngt
        have hle := mt hgreater.mpr hngt
        exact ih (by omega) (by omega) (by omega) (by omega)

theorem binarySearchBy_of_splits {i : Nat} {x : α} (hsplits : SplitsAt cmp xs i)
    (hget : xs[i]? = some x) (heq : cmp x = .eq) : binarySearchBy cmp xs = some i := by
  obtain ⟨hi, _⟩ := List.getElem?_eq_some_iff.mp hget
  have hbase : narrow cmp xs xs.length 0 xs.length = i :=
    narrow_eq hsplits (Nat.zero_le i) (by omega) (by omega) (Nat.le_refl _)
  unfold binarySearchBy
  dsimp only
  rw [hbase, hget]
  exact if_pos (congrArg some heq)

theorem of_binarySearchBy {i : Nat} (h : binarySearchBy cmp xs = some i) :
    ∃ x, xs[i]? = some x ∧ cmp x = .eq := by
  unfold binarySearchBy at h
  dsimp only at h
  split at h
  · rename_i heq
    cases h
    exact Option.map_eq_some_iff.mp heq
  · cases h

section
variable [LinearOrder κ] {key : α → κ} {entries : List α}

theorem nodup_of_ascending (h : (entries.map key).Pairwise (· < ·)) : entries.Nodup :=
  List.Nodup.of_map key (h.imp fun hlt => ne_of_lt hlt)

theorem splitsAt_of_ascending (h : (entries.map key).Pairwise (· < ·)) {i : Nat} {e : α}
    (hget : entries[i]? = some e) : SplitsAt (fun x => compare (key x) (key e)) entries i := by
  obtain ⟨hi, rfl⟩ := List.getElem?_eq_some_iff.mp hget
  intro j x hx
  obtain ⟨hj, rfl⟩ := List.getElem?_eq_some_iff.mp hx
  have hpairs := List.pairwise_iff_getElem.mp (List.pairwise_map.mp h)
  rw [compare_gt_iff_gt]
  constructor
  · intro hgt
    rcases Nat.lt_trichotomy i j with hlt | rfl | hlt
    · exact hlt
    · exact absurd hgt (lt_irrefl _)
    · exact absurd hgt (lt_asymm (hpairs j i hj hi hlt))
  · exact fun hlt => hpairs i j hi hj hlt

theorem indexes_search (h : (entries.map key).Pairwise (· < ·)) :
    Indexes (search key entries) key entries := by
  intro k e
  unfold search
  constructor
  · intro hsearch
    obtain ⟨i, hi, hget⟩ := Option.bind_eq_some_iff.mp hsearch
    obtain ⟨x, hx, heq⟩ := of_binarySearchBy hi
    cases hx.symm.trans hget
    exact ⟨List.mem_of_getElem? hget, compare_eq_iff_eq.mp heq⟩
  · rintro ⟨hmem, rfl⟩
    obtain ⟨i, hget⟩ := List.mem_iff_getElem?.mp hmem
    have heq : compare (key e) (key e) = .eq := compare_eq_iff_eq.mpr rfl
    rw [binarySearchBy_of_splits (splitsAt_of_ascending h hget) hget heq]
    exact hget

end

end BinarySearch

namespace Indexes
variable {α β κ : Type} {lookup : κ → Option α} {key : α → κ} {entries : List α}

theorem find? [DecidableEq κ] (h : (entries.map key).Nodup) :
    Indexes (fun k => entries.find? fun e => key e = k) key entries := by
  intro k e
  constructor
  · intro hfind
    have hkey := List.find?_some hfind
    exact ⟨List.mem_of_find?_eq_some hfind, of_decide_eq_true hkey⟩
  · rintro ⟨hmem, rfl⟩
    cases hfind : entries.find? fun x => key x = key e with
    | none =>
      have hall := List.find?_eq_none.mp hfind e hmem
      exact absurd (decide_eq_true rfl) hall
    | some x =>
      have hx := List.mem_of_find?_eq_some hfind
      have hkey := List.find?_some hfind
      exact hfind.trans (congrArg some <| List.inj_on_of_nodup_map h hx hmem (of_decide_eq_true hkey))

/-- Only distinct keys can be indexed. -/
theorem nodup_keys (h : Indexes lookup key entries) (hentries : entries.Nodup) :
    (entries.map key).Nodup := by
  refine hentries.map_on ?_
  intro x hx y hy hkey
  exact Option.some.inj (((h _ x).mpr ⟨hx, hkey⟩).symm.trans ((h _ y).mpr ⟨hy, rfl⟩))

/-- The first table that finds something. -/
theorem findSome? {tables : List β} {lookupIn : β → κ → Option α} {entriesOf : β → List α}
    (h : ∀ t ∈ tables, Indexes (lookupIn t) key (entriesOf t))
    (hdisjoint : ∀ t ∈ tables, ∀ t' ∈ tables, ∀ e ∈ entriesOf t, ∀ e' ∈ entriesOf t',
      key e = key e' → t = t') :
    Indexes (fun k => tables.findSome? fun t => (lookupIn t k).map fun e => (t, e))
      (fun p => key p.2) (tables.flatMap fun t => (entriesOf t).map fun e => (t, e)) := by
  rintro k ⟨t, e⟩
  have hmem : (t, e) ∈ (tables.flatMap fun t => (entriesOf t).map fun e => (t, e)) ↔
      t ∈ tables ∧ e ∈ entriesOf t := by
    rw [List.mem_flatMap]
    constructor
    · rintro ⟨t', ht', hpair⟩
      obtain ⟨e', he', heq⟩ := List.mem_map.mp hpair
      cases heq
      exact ⟨ht', he'⟩
    · rintro ⟨ht, he⟩
      exact ⟨t, ht, List.mem_map_of_mem he⟩
  rw [hmem]
  constructor
  · intro hfind
    obtain ⟨t', ht', hsome⟩ := List.exists_of_findSome?_eq_some hfind
    obtain ⟨e', he', heq⟩ := Option.map_eq_some_iff.mp hsome
    cases heq
    obtain ⟨he, hkey⟩ := (h t ht' k e).mp he'
    exact ⟨⟨ht', he⟩, hkey⟩
  · rintro ⟨⟨ht, he⟩, hkey⟩
    have hlookup := (h t ht k e).mpr ⟨he, hkey⟩
    cases hfind : tables.findSome? fun t => (lookupIn t k).map fun e => (t, e) with
    | none =>
      have hnone := List.findSome?_eq_none_iff.mp hfind t ht
      rw [hlookup] at hnone
      cases hnone
    | some p =>
      obtain ⟨t', ht', hsome⟩ := List.exists_of_findSome?_eq_some hfind
      obtain ⟨e', he', rfl⟩ := Option.map_eq_some_iff.mp hsome
      obtain ⟨hmem', hkey'⟩ := (h t' ht' k e').mp he'
      obtain rfl := hdisjoint t' ht' t ht e' hmem' e he (hkey'.trans hkey.symm)
      cases he'.symm.trans hlookup
      exact hfind

end Indexes

end Cubic
