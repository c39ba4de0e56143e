import Cubic.Lib.Machine

/-!
# A table seen through pending entries

`overlay pending base` reads an entry where one is pending and the base elsewhere. With
one entry a key the order of the entries does not matter.
-/

namespace Cubic

set_option autoImplicit false

section Overlay
variable {κ ν : Type} [DecidableEq κ]

/-- Write the entries in order, a later one over an earlier one. -/
def writeAll (entries : List (κ × ν)) (table : κ → ν) : κ → ν :=
  entries.foldl (fun table e => Function.update table e.1 e.2) table

def overlay (pending : List (κ × ν)) (base : κ → ν) : κ → ν :=
  pending.foldr (fun e table => Function.update table e.1 e.2) base

variable {pending rest : List (κ × ν)} {base : κ → ν} {k : κ} {v : ν}

@[simp] theorem writeAll_nil (table : κ → ν) : writeAll [] table = table := rfl

theorem writeAll_cons (e : κ × ν) (entries : List (κ × ν)) (table : κ → ν) :
    writeAll (e :: entries) table = writeAll entries (Function.update table e.1 e.2) := rfl

theorem writeAll_append (xs ys : List (κ × ν)) (table : κ → ν) :
    writeAll (xs ++ ys) table = writeAll ys (writeAll xs table) := List.foldl_append

@[simp] theorem overlay_nil (base : κ → ν) : overlay [] base = base := rfl

theorem overlay_cons (e : κ × ν) (rest : List (κ × ν)) (base : κ → ν) :
    overlay (e :: rest) base = Function.update (overlay rest base) e.1 e.2 := rfl

theorem overlay_of_notMem (h : k ∉ pending.map Prod.fst) : overlay pending base k = base k := by
  induction pending with
  | nil => rfl
  | cons e rest ih =>
    rw [List.map_cons, List.mem_cons, not_or] at h
    rw [overlay_cons, Function.update_of_ne h.1]
    exact ih h.2

theorem overlay_of_mem (hkeys : (pending.map Prod.fst).Nodup) (h : (k, v) ∈ pending) :
    overlay pending base k = v := by
  induction pending with
  | nil => exact absurd h List.not_mem_nil
  | cons e rest ih =>
    obtain ⟨hfresh, hkeys⟩ := List.nodup_cons.mp hkeys
    rw [overlay_cons]
    rcases List.mem_cons.mp h with heq | hmem
    · subst heq
      exact Function.update_self ..
    · have hne : k ≠ e.1 := fun heq => hfresh (heq ▸ List.mem_map_of_mem (f := Prod.fst) hmem)
      rw [Function.update_of_ne hne]
      exact ih hkeys hmem

/-- Overlays with the same entries, one a key, over bases that agree elsewhere. -/
theorem overlay_congr {base' : κ → ν} (hkeys : (pending.map Prod.fst).Nodup)
    (hkeys' : (rest.map Prod.fst).Nodup) (hmem : ∀ e, e ∈ pending ↔ e ∈ rest)
    (hbase : ∀ k, k ∉ pending.map Prod.fst → base k = base' k) :
    overlay pending base = overlay rest base' := by
  funext k
  by_cases hk : k ∈ pending.map Prod.fst
  · obtain ⟨e, he, rfl⟩ := List.mem_map.mp hk
    rw [overlay_of_mem hkeys he, overlay_of_mem hkeys' ((hmem e).mp he)]
  · have hk' : k ∉ rest.map Prod.fst := by
      intro h
      obtain ⟨e, he, rfl⟩ := List.mem_map.mp h
      exact hk (List.mem_map_of_mem ((hmem e).mpr he))
    rw [overlay_of_notMem hk, overlay_of_notMem hk', hbase k hk]

/-- A write under a pending entry does not show. -/
theorem overlay_update_of_mem (hkeys : (pending.map Prod.fst).Nodup)
    (h : k ∈ pending.map Prod.fst) (v : ν) :
    overlay pending (Function.update base k v) = overlay pending base := by
  refine overlay_congr hkeys hkeys (fun _ => Iff.rfl) ?_
  intro k' hk'
  have hne : k' ≠ k := fun heq => hk' (heq ▸ h)
  exact Function.update_of_ne hne v base

/-- A write beside the pending entries shows. -/
theorem overlay_update_of_notMem (h : k ∉ pending.map Prod.fst) (v : ν) :
    overlay pending (Function.update base k v) = Function.update (overlay pending base) k v := by
  induction pending with
  | nil => rfl
  | cons e rest ih =>
    rw [List.map_cons, List.mem_cons, not_or] at h
    rw [overlay_cons, overlay_cons, ih h.2, Function.update_comm h.1]

/-- A new entry goes last. -/
theorem overlay_append_entry (h : k ∉ pending.map Prod.fst) (v : ν) :
    overlay (pending ++ [(k, v)]) base = Function.update (overlay pending base) k v := by
  rw [← overlay_update_of_notMem h]
  exact List.foldr_append

/-- An entry is written again: it goes last, in place of the one it had. -/
theorem overlay_requeue {kept : List (κ × ν)} (hkeys : (pending.map Prod.fst).Nodup)
    (hsublist : List.Sublist kept pending) (hkept : ∀ e, e ∈ kept ↔ e ∈ pending ∧ e.1 ≠ k) (v : ν) :
    overlay (kept ++ [(k, v)]) base = Function.update (overlay pending base) k v := by
  have hfresh : k ∉ kept.map Prod.fst := by
    intro h
    obtain ⟨e, he, heq⟩ := List.mem_map.mp h
    exact ((hkept e).mp he).2 heq
  rw [overlay_append_entry hfresh]
  funext k'
  by_cases hk : k' = k
  · rw [hk, Function.update_self, Function.update_self]
  rw [Function.update_of_ne hk, Function.update_of_ne hk]
  by_cases hmem : k' ∈ pending.map Prod.fst
  · obtain ⟨e, he, rfl⟩ := List.mem_map.mp hmem
    rw [overlay_of_mem hkeys he,
      overlay_of_mem (hkeys.sublist (hsublist.map Prod.fst)) ((hkept e).mpr ⟨he, hk⟩)]
  · have hmem' : k' ∉ kept.map Prod.fst := fun h => hmem ((hsublist.map Prod.fst).subset h)
    rw [overlay_of_notMem hmem, overlay_of_notMem hmem']

/-- An entry is given up: the base shows again. -/
theorem update_overlay_cons {e : κ × ν} (hkeys : ((e :: rest).map Prod.fst).Nodup) :
    Function.update (overlay (e :: rest) base) e.1 (base e.1) = overlay rest base := by
  have hbase : overlay rest base e.1 = base e.1 :=
    overlay_of_notMem (List.nodup_cons.mp hkeys).1
  rw [overlay_cons, Function.update_idem, ← hbase, Function.update_eq_self]

/-- Giving up the first entries, each for the state of the base. -/
theorem writeAll_overlay (hkeys : ((pending ++ rest).map Prod.fst).Nodup) :
    writeAll (pending.map fun e => (e.1, base e.1)) (overlay (pending ++ rest) base) =
      overlay rest base := by
  induction pending with
  | nil => rfl
  | cons e pending ih =>
    have hfirst : Function.update (overlay (e :: (pending ++ rest)) base) e.1 (base e.1) =
        overlay (pending ++ rest) base := update_overlay_cons hkeys
    have hrest := ih (List.nodup_cons.mp hkeys).2
    rw [List.map_cons, writeAll_cons]
    exact (congrArg _ hfirst).trans hrest

end Overlay

end Cubic
