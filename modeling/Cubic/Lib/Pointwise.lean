import Cubic.Lib.OrderedMap
import Mathlib.Data.List.Nodup

/-!
# Maps made from lists

A list without a key twice makes one map in whatever order it is read. A pass over the entries
of a map makes another one, whose values are related to the first key by key.
-/

namespace Cubic.OrderedMap

set_option autoImplicit false

variable {κ ν μ δ : Type} [LinearOrder κ]

/-! ### Any order -/

theorem lookup_ofList_iff {xs : List (κ × ν)} (h : (xs.map Prod.fst).Nodup) {k : κ} {v : ν} :
    (ofList xs).lookup k = some v ↔ (k, v) ∈ xs := by
  rw [lookup_ofList h]
  constructor
  · exact Entries.mem_of_lookup
  · intro hmem
    obtain ⟨w, hw⟩ := Option.isSome_iff_exists.mp
      (Entries.mem_keys_iff.mp (List.mem_map_of_mem (f := Prod.fst) hmem))
    have heq := List.inj_on_of_nodup_map h (Entries.mem_of_lookup hw) hmem rfl
    cases heq
    exact hw

theorem ofList_perm {xs ys : List (κ × ν)} (h : xs.Perm ys) (hnodup : (xs.map Prod.fst).Nodup) :
    ofList xs = ofList ys := by
  apply ext_lookup
  intro k
  apply Option.ext
  intro v
  have hnodup' := (h.map Prod.fst).nodup_iff.mp hnodup
  exact (lookup_ofList_iff hnodup).trans (h.mem_iff.trans (lookup_ofList_iff hnodup').symm)

/-- A set is made of its keys in any order. -/
theorem foldl_insert_perm {keys : List κ} {s : OrderedSet κ} (h : keys.Perm s.keys) :
    keys.foldl (fun m k => m.insert k ()) .empty = s := by
  have hentries : s.keys.map (fun k => (k, ())) = s.entries := by
    unfold OrderedMap.keys
    rw [List.map_map]
    exact List.map_id s.entries
  have hkeys : (keys.map fun k => (k, ())).map Prod.fst = keys := by
    rw [List.map_map]
    exact List.map_id keys
  have hnodup : ((keys.map fun k => (k, ())).map Prod.fst).Nodup := by
    rw [hkeys]
    exact h.nodup_iff.mpr s.keys_nodup
  have hlist := ofList_perm (h.map fun k => (k, ())) hnodup
  rw [hentries, ofList_entries, ofList, List.foldl_map] at hlist
  exact hlist

/-! ### Key by key -/

/-- The entries correspond in order, each pair under one key. -/
def Pointwise (R : κ → ν → μ → Prop) (m : OrderedMap κ ν) (n : OrderedMap κ μ) : Prop :=
  List.Forall₂ (fun e f => e.1 = f.1 ∧ R e.1 e.2 f.2) m.entries n.entries

variable {R : κ → ν → μ → Prop} {m : OrderedMap κ ν} {n : OrderedMap κ μ} {k : κ}

omit [LinearOrder κ] in
theorem map_fst_of_forall₂ {xs : List (κ × ν)} {ys : List (κ × μ)}
    (h : List.Forall₂ (fun e f => e.1 = f.1 ∧ R e.1 e.2 f.2) xs ys) :
    xs.map Prod.fst = ys.map Prod.fst := by
  induction h with
  | nil => rfl
  | cons hhead _ ih => rw [List.map_cons, List.map_cons, hhead.1, ih]

theorem Pointwise.keys_eq (h : Pointwise R m n) : m.keys = n.keys := map_fst_of_forall₂ h

theorem Pointwise.imp {S : κ → ν → μ → Prop} (h : Pointwise R m n)
    (himp : ∀ {k v w}, m.lookup k = some v → R k v w → S k v w) : Pointwise S m n := by
  have hmem := (List.forall₂_and_left m.entries n.entries).mpr ⟨fun e (he : e ∈ m.entries) => he, h⟩
  refine List.Forall₂.imp ?_ hmem
  rintro ⟨k, v⟩ f ⟨he, hkey, hR⟩
  exact ⟨hkey, himp (mem_entries_iff.mp he) hR⟩

theorem Pointwise.comp {S : κ → μ → δ → Prop} {o : OrderedMap κ δ} (h : Pointwise R m n)
    (h' : Pointwise S n o) : Pointwise (fun k v x => ∃ w, R k v w ∧ S k w x) m o := by
  suffices hcomp : ∀ {xs : List (κ × ν)} {ys : List (κ × μ)} {zs : List (κ × δ)},
      List.Forall₂ (fun e f => e.1 = f.1 ∧ R e.1 e.2 f.2) xs ys →
      List.Forall₂ (fun e f => e.1 = f.1 ∧ S e.1 e.2 f.2) ys zs →
      List.Forall₂ (fun e f => e.1 = f.1 ∧ ∃ w, R e.1 e.2 w ∧ S e.1 w f.2) xs zs by
    exact hcomp h h'
  intro xs ys zs hxs hys
  induction hxs generalizing zs with
  | nil =>
    cases hys
    exact .nil
  | cons hhead _ ih =>
    obtain ⟨z, rest, hhead', hrest, rfl⟩ := List.forall₂_cons_left_iff.mp hys
    refine .cons ⟨hhead.1.trans hhead'.1, _, hhead.2, ?_⟩ (ih hrest)
    rw [hhead.1]
    exact hhead'.2

theorem Pointwise.flip (h : Pointwise R m n) : Pointwise (fun k w v => R k v w) n m := by
  refine List.Forall₂.flip (List.Forall₂.imp ?_ h)
  rintro e f ⟨hkey, hR⟩
  refine ⟨hkey.symm, ?_⟩
  rw [← hkey]
  exact hR

theorem Pointwise.lookup_some {v : ν} (h : Pointwise R m n) (hv : m.lookup k = some v) :
    ∃ w, n.lookup k = some w ∧ R k v w := by
  suffices hmem : ∀ {xs : List (κ × ν)} {ys : List (κ × μ)},
      List.Forall₂ (fun e f => e.1 = f.1 ∧ R e.1 e.2 f.2) xs ys → (k, v) ∈ xs →
        ∃ w, (k, w) ∈ ys ∧ R k v w by
    obtain ⟨w, hw, hR⟩ := hmem h (mem_entries_iff.mpr hv)
    exact ⟨w, mem_entries_iff.mp hw, hR⟩
  intro xs ys hxs hkv
  induction hxs with
  | nil => cases hkv
  | @cons e f _ _ hhead _ ih =>
    rcases List.mem_cons.mp hkv with heq | hrest
    · rw [← heq] at hhead
      refine ⟨f.2, List.mem_cons.mpr (.inl ?_), hhead.2⟩
      exact Prod.ext hhead.1 rfl
    · obtain ⟨w, hw, hR⟩ := ih hrest
      exact ⟨w, List.mem_cons_of_mem f hw, hR⟩

theorem Pointwise.lookup_none (h : Pointwise R m n) : m.lookup k = none ↔ n.lookup k = none := by
  rw [← Option.not_isSome_iff_eq_none, ← Option.not_isSome_iff_eq_none, ← mem_keys_iff,
    ← mem_keys_iff, h.keys_eq]

end Cubic.OrderedMap
