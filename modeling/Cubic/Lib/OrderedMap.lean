import Cubic.Lib.Machine

/-!
# Maps kept in ascending key order

A list of entries in strictly ascending key order has one representation for each
finite map, so equality of maps is equality of lists and iteration is by key.
-/

namespace Cubic

set_option autoImplicit false

variable {κ ν : Type}

namespace Entries

/-- Keys strictly ascend, hence each occurs once. -/
def Ascending [LT κ] (xs : List (κ × ν)) : Prop := xs.Pairwise fun a b => a.1 < b.1

instance [LT κ] [DecidableRel (α := κ) (· < ·)] (xs : List (κ × ν)) : Decidable (Ascending xs) :=
  inferInstanceAs (Decidable (xs.Pairwise fun a b => a.1 < b.1))

variable [LinearOrder κ]

/-- Put an entry in its place; an entry with the same key is replaced. -/
def insert (k : κ) (v : ν) : List (κ × ν) → List (κ × ν)
  | [] => [(k, v)]
  | e :: rest =>
    if k < e.1 then (k, v) :: e :: rest
    else if k = e.1 then (k, v) :: rest
    else e :: insert k v rest

def lookup (k : κ) : List (κ × ν) → Option ν
  | [] => none
  | e :: rest => if e.1 = k then some e.2 else lookup k rest

theorem insert_nil (k : κ) (v : ν) : insert k v [] = [(k, v)] := rfl

theorem insert_cons (k : κ) (v : ν) (e : κ × ν) (rest : List (κ × ν)) :
    insert k v (e :: rest) =
      if k < e.1 then (k, v) :: e :: rest
      else if k = e.1 then (k, v) :: rest
      else e :: insert k v rest := rfl

theorem lookup_nil (k : κ) : lookup k ([] : List (κ × ν)) = none := rfl

theorem lookup_cons (k : κ) (e : κ × ν) (rest : List (κ × ν)) :
    lookup k (e :: rest) = if e.1 = k then some e.2 else lookup k rest := rfl

theorem mem_insert {k : κ} {v : ν} {xs : List (κ × ν)} {e : κ × ν} (h : e ∈ insert k v xs) :
    e = (k, v) ∨ e ∈ xs := by
  induction xs with
  | nil => simpa [insert_nil] using h
  | cons a rest ih =>
    rw [insert_cons] at h
    split at h
    · exact List.mem_cons.mp h
    · split at h
      · rcases List.mem_cons.mp h with h | h
        · exact Or.inl h
        · exact Or.inr (List.mem_cons_of_mem a h)
      · rcases List.mem_cons.mp h with h | h
        · exact Or.inr (h ▸ List.mem_cons_self)
        · exact (ih h).imp_right (List.mem_cons_of_mem a)

theorem insert_ascending (k : κ) (v : ν) {xs : List (κ × ν)} (h : Ascending xs) :
    Ascending (insert k v xs) := by
  induction xs with
  | nil => exact List.pairwise_singleton _ _
  | cons a rest ih =>
    obtain ⟨ha, hrest⟩ := List.pairwise_cons.mp h
    rw [insert_cons]
    split
    · rename_i hk
      refine List.pairwise_cons.mpr ⟨?_, h⟩
      intro b hb
      rcases List.mem_cons.mp hb with rfl | hb
      · exact hk
      · exact hk.trans (ha b hb)
    · split
      · rename_i hk
        exact List.pairwise_cons.mpr ⟨fun b hb => hk ▸ ha b hb, hrest⟩
      · rename_i hlt hne
        refine List.pairwise_cons.mpr ⟨?_, ih hrest⟩
        intro b hb
        rcases mem_insert hb with rfl | hb
        · exact lt_of_le_of_ne (not_lt.mp hlt) (Ne.symm hne)
        · exact ha b hb

/-- Entries that arrive in ascending order are appended. -/
theorem insert_last {k : κ} (v : ν) {xs : List (κ × ν)} (h : ∀ e ∈ xs, e.1 < k) :
    insert k v xs = xs ++ [(k, v)] := by
  induction xs with
  | nil => rfl
  | cons a rest ih =>
    have ha := h a List.mem_cons_self
    rw [insert_cons, if_neg (not_lt.mpr ha.le), if_neg ha.ne',
      ih fun e he => h e (List.mem_cons_of_mem a he), List.cons_append]

theorem length_insert_le (k : κ) (v : ν) (xs : List (κ × ν)) :
    (insert k v xs).length ≤ xs.length + 1 := by
  induction xs with
  | nil => simp [insert_nil]
  | cons a rest ih =>
    rw [insert_cons]
    split
    · simp
    · split
      · simp
      · simpa using ih

/-- Whatever is summed over entries grows by at most the new entry's share. -/
theorem sum_insert_le (f : κ × ν → Nat) (k : κ) (v : ν) (xs : List (κ × ν)) :
    ((insert k v xs).map f).sum ≤ (xs.map f).sum + f (k, v) := by
  induction xs with
  | nil => simp [insert_nil]
  | cons a rest ih =>
    rw [insert_cons]
    split
    · simp only [List.map_cons, List.sum_cons]
      omega
    · split
      · simp only [List.map_cons, List.sum_cons]
        omega
      · simp only [List.map_cons, List.sum_cons]
        omega

theorem lookup_insert_self (k : κ) (v : ν) (xs : List (κ × ν)) :
    lookup k (insert k v xs) = some v := by
  induction xs with
  | nil => simp [insert_nil, lookup_cons]
  | cons a rest ih =>
    rw [insert_cons]
    split
    · simp [lookup_cons]
    · split
      · simp [lookup_cons]
      · rename_i hlt hne
        rw [lookup_cons, if_neg (Ne.symm hne), ih]

theorem lookup_insert_of_ne {k k' : κ} (h : k' ≠ k) (v : ν) (xs : List (κ × ν)) :
    lookup k' (insert k v xs) = lookup k' xs := by
  induction xs with
  | nil => simp [insert_nil, lookup_cons, lookup_nil, h.symm]
  | cons a rest ih =>
    rw [insert_cons]
    split
    · rw [lookup_cons, if_neg h.symm]
    · split
      · rename_i heq
        rw [lookup_cons, lookup_cons, if_neg h.symm, if_neg (heq ▸ h.symm)]
      · rw [lookup_cons, lookup_cons, ih]

/-- Drop the entry of a key. -/
def remove (k : κ) (xs : List (κ × ν)) : List (κ × ν) := xs.filter fun e => e.1 ≠ k

theorem remove_ascending (k : κ) {xs : List (κ × ν)} (h : Ascending xs) :
    Ascending (remove k xs) :=
  h.sublist List.filter_sublist

theorem lookup_remove (k k' : κ) (xs : List (κ × ν)) :
    lookup k' (remove k xs) = if k' = k then none else lookup k' xs := by
  induction xs with
  | nil => simp [remove, lookup_nil]
  | cons a rest ih =>
    unfold remove at ih ⊢
    by_cases ha : a.1 = k
    · rw [List.filter_cons_of_neg (by simpa using ha), ih, lookup_cons]
      by_cases hk : k' = k
      · rw [if_pos hk, if_pos hk]
      · rw [if_neg hk, if_neg hk, if_neg (ha ▸ Ne.symm hk)]
    · rw [List.filter_cons_of_pos (by simpa using ha), lookup_cons, lookup_cons, ih]
      by_cases hk : k' = k
      · rw [if_pos hk, if_neg (hk ▸ ha), if_pos hk]
      · rw [if_neg hk, if_neg hk]

theorem mem_keys_iff {k : κ} {xs : List (κ × ν)} :
    k ∈ xs.map Prod.fst ↔ (lookup k xs).isSome := by
  induction xs with
  | nil => simp [lookup_nil]
  | cons a rest ih =>
    rw [List.map_cons, List.mem_cons, ih, lookup_cons]
    by_cases ha : a.1 = k
    · rw [if_pos ha]
      exact iff_of_true (.inl ha.symm) rfl
    · rw [if_neg ha]
      exact or_iff_right (Ne.symm ha)

theorem lookup_map {δ : Type} (f : δ → ν) (k : κ) (xs : List (κ × δ)) :
    lookup k (xs.map fun e => (e.1, f e.2)) = (lookup k xs).map f := by
  induction xs with
  | nil => rfl
  | cons e rest ih =>
    rw [List.map_cons, lookup_cons, lookup_cons, ih]
    split <;> rfl

theorem length_insert (k : κ) (v : ν) {xs : List (κ × ν)} (h : Ascending xs) :
    (insert k v xs).length = if (lookup k xs).isSome then xs.length else xs.length + 1 := by
  induction xs with
  | nil => rfl
  | cons a rest ih =>
    obtain ⟨ha, hrest⟩ := List.pairwise_cons.mp h
    rw [insert_cons, lookup_cons]
    by_cases hlt : k < a.1
    · have hfresh : (lookup k rest).isSome = false := by
        rw [← Bool.not_eq_true, ← mem_keys_iff]
        intro hmem
        obtain ⟨e, he, heq⟩ := List.mem_map.mp hmem
        exact absurd (heq ▸ hlt.trans (ha e he)) (lt_irrefl _)
      rw [if_pos hlt, if_neg hlt.ne', hfresh]
      rfl
    · rw [if_neg hlt]
      by_cases heq : k = a.1
      · rw [if_pos heq, if_pos heq.symm]
        rfl
      · rw [if_neg heq, if_neg (Ne.symm heq), List.length_cons, ih hrest, List.length_cons]
        split <;> rfl

theorem mem_of_lookup {k : κ} {v : ν} {xs : List (κ × ν)} (h : lookup k xs = some v) :
    (k, v) ∈ xs := by
  induction xs with
  | nil => cases h
  | cons a rest ih =>
    rw [lookup_cons] at h
    split at h
    · rename_i ha
      cases h
      exact ha ▸ List.mem_cons_self
    · exact List.mem_cons_of_mem a (ih h)

theorem lookup_of_mem {k : κ} {v : ν} {xs : List (κ × ν)} (hxs : Ascending xs)
    (h : (k, v) ∈ xs) : lookup k xs = some v := by
  induction xs with
  | nil => exact absurd h List.not_mem_nil
  | cons a rest ih =>
    obtain ⟨ha, hrest⟩ := List.pairwise_cons.mp hxs
    rw [lookup_cons]
    rcases List.mem_cons.mp h with heq | hmem
    · rw [← heq, if_pos rfl]
    · rw [if_neg (ha (k, v) hmem).ne, ih hrest hmem]

end Entries

/-- A finite map in its canonical representation. -/
structure OrderedMap (κ ν : Type) [LinearOrder κ] where
  entries : List (κ × ν)
  ascending : Entries.Ascending entries
  deriving DecidableEq

namespace OrderedMap
variable [LinearOrder κ]

@[ext] theorem ext {m n : OrderedMap κ ν} (h : m.entries = n.entries) : m = n := by
  cases m
  cases n
  cases h
  rfl

def empty : OrderedMap κ ν := ⟨[], List.Pairwise.nil⟩

def insert (m : OrderedMap κ ν) (k : κ) (v : ν) : OrderedMap κ ν :=
  ⟨Entries.insert k v m.entries, Entries.insert_ascending k v m.ascending⟩

def lookup (m : OrderedMap κ ν) (k : κ) : Option ν := Entries.lookup k m.entries

def remove (m : OrderedMap κ ν) (k : κ) : OrderedMap κ ν :=
  ⟨Entries.remove k m.entries, Entries.remove_ascending k m.ascending⟩

def keys (m : OrderedMap κ ν) : List κ := m.entries.map Prod.fst

def size (m : OrderedMap κ ν) : Nat := m.entries.length

@[simp] theorem lookup_empty (k : κ) : (empty : OrderedMap κ ν).lookup k = none := rfl

theorem lookup_insert (m : OrderedMap κ ν) (k k' : κ) (v : ν) :
    (m.insert k v).lookup k' = if k' = k then some v else m.lookup k' := by
  split
  · rename_i h
    exact h ▸ Entries.lookup_insert_self k v m.entries
  · rename_i h
    exact Entries.lookup_insert_of_ne h v m.entries

theorem lookup_remove (m : OrderedMap κ ν) (k k' : κ) :
    (m.remove k).lookup k' = if k' = k then none else m.lookup k' :=
  Entries.lookup_remove k k' m.entries

theorem size_insert (m : OrderedMap κ ν) (k : κ) (v : ν) :
    (m.insert k v).size = if (m.lookup k).isSome then m.size else m.size + 1 :=
  Entries.length_insert k v m.ascending

theorem mem_entries_iff {m : OrderedMap κ ν} {k : κ} {v : ν} :
    (k, v) ∈ m.entries ↔ m.lookup k = some v :=
  ⟨Entries.lookup_of_mem m.ascending, Entries.mem_of_lookup⟩

theorem mem_keys_iff {m : OrderedMap κ ν} {k : κ} : k ∈ m.keys ↔ (m.lookup k).isSome :=
  Entries.mem_keys_iff

theorem mem_keys_insert {m : OrderedMap κ ν} {k k' : κ} {v : ν} :
    k' ∈ (m.insert k v).keys ↔ k' = k ∨ k' ∈ m.keys := by
  rw [mem_keys_iff, mem_keys_iff, lookup_insert]
  split
  · rename_i h
    exact iff_of_true rfl (.inl h)
  · rename_i h
    exact (or_iff_right h).symm

theorem keys_nodup (m : OrderedMap κ ν) : m.keys.Nodup :=
  List.pairwise_map.mpr (m.ascending.imp fun h => h.ne)

/-- A map is known by what it holds at each key. -/
theorem ext_lookup {m n : OrderedMap κ ν} (h : ∀ k, m.lookup k = n.lookup k) : m = n := by
  apply ext
  have hperm : m.entries.Perm n.entries := by
    rw [List.perm_ext_iff_of_nodup (m.ascending.imp fun h heq => h.ne (congrArg Prod.fst heq))
      (n.ascending.imp fun h heq => h.ne (congrArg Prod.fst heq))]
    intro e
    constructor
    · intro he
      have hlookup := Entries.lookup_of_mem m.ascending he
      exact Entries.mem_of_lookup ((h e.1).symm.trans hlookup)
    · intro he
      have hlookup := Entries.lookup_of_mem n.ascending he
      exact Entries.mem_of_lookup ((h e.1).trans hlookup)
  refine hperm.eq_of_pairwise ?_ m.ascending n.ascending
  intro a b _ _ hab hba
  exact absurd hba hab.asymm

/-- The map holding the listed entries, a later entry replacing an earlier one. -/
def ofList (xs : List (κ × ν)) : OrderedMap κ ν := xs.foldl (fun m e => m.insert e.1 e.2) empty

def values (m : OrderedMap κ ν) : List ν := m.entries.map Prod.snd

theorem mem_values_of_lookup {m : OrderedMap κ ν} {k : κ} {v : ν} (h : m.lookup k = some v) :
    v ∈ m.values :=
  List.mem_map_of_mem (mem_entries_iff.mpr h)

/-- Set or clear what a key holds. -/
def put (m : OrderedMap κ ν) (k : κ) : Option ν → OrderedMap κ ν
  | some v => m.insert k v
  | none => m.remove k

theorem lookup_put (m : OrderedMap κ ν) (k k' : κ) (o : Option ν) :
    (m.put k o).lookup k' = if k' = k then o else m.lookup k' := by
  cases o with
  | none => exact lookup_remove m k k'
  | some v => exact lookup_insert m k k' v

def putAll (changes : List (κ × Option ν)) (m : OrderedMap κ ν) : OrderedMap κ ν :=
  changes.foldl (fun m e => m.put e.1 e.2) m

/-- Changes of different keys are read back as they were put. -/
theorem lookup_putAll {changes : List (κ × Option ν)} (h : (changes.map Prod.fst).Nodup) (k : κ) :
    ∀ m : OrderedMap κ ν, (putAll changes m).lookup k =
      (Entries.lookup k changes).getD (m.lookup k) := by
  induction changes with
  | nil => exact fun _ => rfl
  | cons e rest ih =>
    intro m
    obtain ⟨hfresh, hrest⟩ := List.nodup_cons.mp h
    change (putAll rest (m.put e.1 e.2)).lookup k = _
    rw [ih hrest, lookup_put, Entries.lookup_cons]
    by_cases hk : k = e.1
    · have hnone : Entries.lookup k rest = none := by
        rw [← Option.not_isSome_iff_eq_none, ← Entries.mem_keys_iff, hk]
        exact hfresh
      rw [if_pos hk, if_pos hk.symm, hnone]
      rfl
    · rw [if_neg hk, if_neg (Ne.symm hk)]

/-- Changes kept in a map of their own are read back from it. -/
theorem lookup_putAll_entries {δ : Type} (f : δ → Option ν) (changes : OrderedMap κ δ)
    (m : OrderedMap κ ν) (k : κ) :
    (putAll (changes.entries.map fun e => (e.1, f e.2)) m).lookup k =
      ((changes.lookup k).map f).getD (m.lookup k) := by
  have hkeys : (changes.entries.map fun e => (e.1, f e.2)).map Prod.fst = changes.keys :=
    List.map_map
  rw [lookup_putAll (hkeys ▸ changes.keys_nodup), Entries.lookup_map]
  rfl

theorem foldl_insert_lookup {xs : List (κ × ν)} (h : (xs.map Prod.fst).Nodup) (k : κ) :
    ∀ m : OrderedMap κ ν, (xs.foldl (fun m e => m.insert e.1 e.2) m).lookup k =
      (Entries.lookup k xs).or (m.lookup k) := by
  induction xs with
  | nil => exact fun _ => rfl
  | cons e rest ih =>
    intro m
    obtain ⟨hfresh, hrest⟩ := List.nodup_cons.mp h
    rw [List.foldl_cons, ih hrest, lookup_insert, Entries.lookup_cons]
    by_cases hk : k = e.1
    · have hnone : Entries.lookup k rest = none := by
        rw [← Option.not_isSome_iff_eq_none, ← Entries.mem_keys_iff, hk]
        exact hfresh
      rw [if_pos hk, if_pos hk.symm, hnone]
      rfl
    · rw [if_neg hk, if_neg (Ne.symm hk)]

theorem lookup_ofList {xs : List (κ × ν)} (h : (xs.map Prod.fst).Nodup) (k : κ) :
    (ofList xs).lookup k = Entries.lookup k xs :=
  (foldl_insert_lookup h k empty).trans (Option.or_none)

theorem entries_ofList {xs : List (κ × ν)} (h : Entries.Ascending xs) :
    (ofList xs).entries = xs := by
  have hnodup : (xs.map Prod.fst).Nodup := List.pairwise_map.mpr (h.imp fun hlt => hlt.ne)
  have hmap : ofList xs = ⟨xs, h⟩ := ext_lookup fun k => lookup_ofList hnodup k
  rw [hmap]

theorem mem_foldl_insert {xs : List (κ × ν)} {e : κ × ν} : ∀ {m : OrderedMap κ ν},
    e ∈ (xs.foldl (fun m e => m.insert e.1 e.2) m).entries → e ∈ xs ∨ e ∈ m.entries := by
  induction xs with
  | nil => exact fun h => .inr h
  | cons first rest ih =>
    intro m h
    rcases ih h with hrest | hm
    · exact .inl (List.mem_cons_of_mem first hrest)
    · rcases Entries.mem_insert hm with rfl | hm
      · exact .inl List.mem_cons_self
      · exact .inr hm

/-- A map holds no entry that was not listed. -/
theorem mem_of_mem_ofList {xs : List (κ × ν)} {e : κ × ν} (h : e ∈ (ofList xs).entries) :
    e ∈ xs :=
  (mem_foldl_insert h).resolve_right List.not_mem_nil

theorem ofList_entries (m : OrderedMap κ ν) : ofList m.entries = m :=
  ext_lookup fun k => lookup_ofList (keys_nodup m) k

/-- The part of a map at some keys. -/
theorem lookup_filterMap (m : OrderedMap κ ν) (keys : List κ) (k : κ) :
    (ofList (keys.filterMap fun key => (m.lookup key).map (key, ·))).lookup k =
      if k ∈ keys then m.lookup k else none := by
  have hfold : ∀ acc : OrderedMap κ ν,
      ((keys.filterMap fun key => (m.lookup key).map (key, ·)).foldl
        (fun m e => m.insert e.1 e.2) acc).lookup k =
      if k ∈ keys then (m.lookup k).or (acc.lookup k) else acc.lookup k := by
    induction keys with
    | nil => exact fun _ => rfl
    | cons key rest ih =>
      intro acc
      rw [List.filterMap_cons]
      by_cases hkey : k = key
      · subst hkey
        rw [if_pos List.mem_cons_self]
        cases hlookup : m.lookup k with
        | none =>
          dsimp only [Option.map_none]
          rw [ih, hlookup]
          split <;> rfl
        | some v =>
          dsimp only [Option.map_some]
          rw [List.foldl_cons, ih, lookup_insert, if_pos rfl, hlookup]
          split <;> rfl
      · have hmem : k ∈ key :: rest ↔ k ∈ rest := by
          rw [List.mem_cons]
          exact or_iff_right hkey
        rw [if_congr hmem rfl rfl]
        cases m.lookup key with
        | none => exact ih acc
        | some v =>
          dsimp only [Option.map_some]
          rw [List.foldl_cons, ih, lookup_insert, if_neg hkey]
  have h := hfold empty
  rw [lookup_empty, Option.or_none] at h
  exact h

end OrderedMap

/-- A finite set in ascending order. -/
abbrev OrderedSet (κ : Type) [LinearOrder κ] := OrderedMap κ Unit

end Cubic
