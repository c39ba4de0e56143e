import Mathlib.Algebra.BigOperators.Group.List.Basic
import Mathlib.Algebra.GroupWithZero.Nat

/-!
# Lengths and cuts in UTF-8

A text is the list of its characters, and its length is the number of bytes of its UTF-8 form.
-/

namespace Cubic.Utf8

set_option autoImplicit false

def size (text : List Char) : Nat := (text.map Char.utf8Size).sum

/-- A character of the text starts at this byte, or the text ends there. -/
def Boundary (text : List Char) (n : Nat) : Prop :=
  ∃ front back, text = front ++ back ∧ size front = n

/-- `String::truncate`; none where the cut is inside a character, which panics. -/
def truncate : List Char → Nat → Option (List Char)
  | [], _ => some []
  | c :: rest, n =>
    if n = 0 then some []
    else if c.utf8Size ≤ n then (truncate rest (n - c.utf8Size)).map (c :: ·)
    else none

variable {text front back cut : List Char} {n : Nat}

theorem truncate_cons (c : Char) (rest : List Char) (n : Nat) :
    truncate (c :: rest) n =
      if n = 0 then some []
      else if c.utf8Size ≤ n then (truncate rest (n - c.utf8Size)).map (c :: ·)
      else none := rfl

@[simp] theorem size_nil : size [] = 0 := rfl

@[simp] theorem size_cons (c : Char) (rest : List Char) :
    size (c :: rest) = c.utf8Size + size rest := List.sum_cons

@[simp] theorem size_append (front back : List Char) :
    size (front ++ back) = size front + size back := by
  unfold size
  rw [List.map_append, List.sum_append]

theorem utf8ByteSize_ofList (text : List Char) : (String.ofList text).utf8ByteSize = size text := by
  induction text with
  | nil => rfl
  | cons c rest ih =>
    have hsplit : String.ofList (c :: rest) = String.singleton c ++ String.ofList rest := by
      rw [← List.singleton_append, String.ofList_append]
      rfl
    rw [hsplit, String.utf8ByteSize_append, String.utf8ByteSize_singleton, ih, size_cons]

/-- The bytes of a character are bounded by its code. -/
theorem utf8Size_le (c : Char) : (c.toNat ≤ 0x7f → c.utf8Size ≤ 1) ∧
    (c.toNat ≤ 0x7ff → c.utf8Size ≤ 2) ∧ (c.toNat ≤ 0xffff → c.utf8Size ≤ 3) := by
  have hval : c.val.toNat = c.toNat := rfl
  refine ⟨fun h => ?_, fun h => ?_, fun h => ?_⟩
  · apply Nat.le_of_eq
    exact Char.utf8Size_eq_one_iff.mpr (UInt32.le_iff_toNat_le.mpr h)
  · rcases c.utf8Size_eq with hsize | hsize | hsize | hsize
    · omega
    · omega
    · have hlt := UInt32.lt_iff_toNat_lt.mp (Char.utf8Size_eq_three_iff.mp hsize).1
      change 0x7ff < _ at hlt
      omega
    · have hlt := UInt32.lt_iff_toNat_lt.mp (Char.utf8Size_eq_four_iff.mp hsize)
      change 0xffff < _ at hlt
      omega
  · rcases c.utf8Size_eq with hsize | hsize | hsize | hsize
    · omega
    · omega
    · omega
    · have hlt := UInt32.lt_iff_toNat_lt.mp (Char.utf8Size_eq_four_iff.mp hsize)
      change 0xffff < _ at hlt
      omega

theorem utf8Size_ofNat_le (n : Nat) : (n ≤ 0x7f → (Char.ofNat n).utf8Size ≤ 1) ∧
    (n ≤ 0x7ff → (Char.ofNat n).utf8Size ≤ 2) ∧ (n ≤ 0xffff → (Char.ofNat n).utf8Size ≤ 3) := by
  by_cases hvalid : n.isValidChar
  · have hval : (Char.ofNat n).toNat = n := by
      rw [Char.ofNat, dif_pos hvalid]
      rfl
    have hle := utf8Size_le (Char.ofNat n)
    rw [hval] at hle
    exact hle
  · have hone : (Char.ofNat n).utf8Size = 1 := by
      rw [Char.ofNat, dif_neg hvalid]
      rfl
    rw [hone]
    exact ⟨fun _ => by decide, fun _ => by decide, fun _ => by decide⟩

theorem truncate_of_size_le (h : size text ≤ n) : truncate text n = some text := by
  induction text generalizing n with
  | nil => rfl
  | cons c rest ih =>
    have hpos := c.utf8Size_pos
    rw [size_cons] at h
    rw [truncate_cons, if_neg (by omega), if_pos (by omega), ih (by omega)]
    rfl

theorem truncate_append (h : size front = n) (back : List Char) :
    truncate (front ++ back) n = some front := by
  induction front generalizing n with
  | nil =>
    rw [size_nil] at h
    cases back with
    | nil => rfl
    | cons c rest => rw [List.nil_append, truncate_cons, if_pos h.symm]
  | cons c rest ih =>
    have hpos := c.utf8Size_pos
    rw [size_cons] at h
    rw [List.cons_append, truncate_cons, if_neg (by omega), if_pos (by omega), ih (by omega)]
    rfl

/-- What stands behind the cut does not matter. -/
theorem truncate_append_of_le (h : n ≤ size front) (back : List Char) :
    truncate (front ++ back) n = truncate front n := by
  induction front generalizing n with
  | nil =>
    have hzero : n = 0 := Nat.le_zero.mp h
    subst hzero
    cases back with
    | nil => rfl
    | cons c rest => rfl
  | cons c rest ih =>
    rw [size_cons] at h
    rw [List.cons_append, truncate_cons, truncate_cons]
    split
    · rfl
    split
    · rw [ih (by omega)]
    · rfl

/-- What is left is the whole text, or exactly `n` bytes of it. -/
theorem truncate_eq_some (h : truncate text n = some cut) :
    (cut = text ∧ size text ≤ n) ∨ ∃ back, text = cut ++ back ∧ size cut = n := by
  induction text generalizing n cut with
  | nil =>
    cases h
    exact Or.inl ⟨rfl, Nat.zero_le n⟩
  | cons c rest ih =>
    rw [truncate_cons] at h
    split at h
    · rename_i hzero
      cases h
      exact Or.inr ⟨c :: rest, rfl, hzero.symm⟩
    · split at h
      · obtain ⟨cut', hcut, heq⟩ := Option.map_eq_some_iff.mp h
        rw [← heq]
        rcases ih hcut with ⟨rfl, hsize⟩ | ⟨back, hrest, hsize⟩
        · refine Or.inl ⟨rfl, ?_⟩
          rw [size_cons]
          omega
        · refine Or.inr ⟨back, by rw [hrest, List.cons_append], ?_⟩
          rw [size_cons]
          omega
      · cases h

theorem prefix_of_truncate (h : truncate text n = some cut) : cut <+: text ∧ size cut ≤ n := by
  rcases truncate_eq_some h with ⟨rfl, hsize⟩ | ⟨back, htext, hsize⟩
  · exact ⟨List.prefix_refl _, hsize⟩
  · exact ⟨⟨back, htext.symm⟩, Nat.le_of_eq hsize⟩

/-- Cutting after each of two steps that extend the text is cutting at the end. -/
theorem truncate_bind {f : List Char → Option (List Char)} {g : List Char → List Char}
    (hf : ∀ output, size output ≤ n → f output = truncate (g output) n)
    (hg : ∀ output, output <+: g output) (text : List Char) :
    (truncate text n).bind f = truncate (g text) n := by
  obtain ⟨back, hback⟩ := hg text
  by_cases hsize : size text ≤ n
  · rw [truncate_of_size_le hsize, Option.bind_some, hf text hsize]
  rw [← hback, truncate_append_of_le (by omega)]
  cases hcut : truncate text n with
  | none => rfl
  | some cut =>
    obtain ⟨-, hle⟩ | ⟨rest, -, hcut⟩ := truncate_eq_some hcut
    · omega
    obtain ⟨more, hmore⟩ := hg cut
    rw [Option.bind_some, hf cut (Nat.le_of_eq hcut), ← hmore, truncate_append hcut]

theorem size_le_of_prefix (h : front <+: text) : size front ≤ size text := by
  obtain ⟨back, rfl⟩ := h
  rw [size_append]
  exact Nat.le_add_right _ _

theorem eq_of_size_zero (h : size text = 0) : text = [] := by
  cases text with
  | nil => rfl
  | cons c rest =>
    have hpos := c.utf8Size_pos
    rw [size_cons] at h
    omega

/-- A cut succeeds exactly at the end of a character. -/
theorem truncate_isSome : (truncate text n).isSome ↔ size text ≤ n ∨ Boundary text n := by
  constructor
  · intro h
    obtain ⟨cut, hcut⟩ := Option.isSome_iff_exists.mp h
    rcases truncate_eq_some hcut with ⟨-, hsize⟩ | ⟨back, htext, hsize⟩
    · exact Or.inl hsize
    · exact Or.inr ⟨cut, back, htext, hsize⟩
  · intro h
    rcases h with hsize | ⟨front, back, rfl, hsize⟩
    · rw [truncate_of_size_le hsize]
      rfl
    · rw [truncate_append hsize]
      rfl

end Cubic.Utf8
