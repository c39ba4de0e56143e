import Cubic.Nbt.Tag

/-! # Looking text up in a tree (`nbt/tag.rs`, `nbt/string.rs`) -/

namespace Cubic

set_option autoImplicit false

/-- `str::encode_utf16` -/
def encodeUtf16 (text : String) : NbtString :=
  text.toList.flatMap fun c =>
    if c.toNat < 0x10000 then [.ofNat c.toNat]
    else [.ofNat (0xd800 + (c.toNat - 0x10000) / 0x400), .ofNat (0xdc00 + (c.toNat - 0x10000) % 0x400)]

def replacementCharacter : Char := Char.ofNat 0xfffd

/-- `String::from_utf16_lossy`: an unpaired surrogate is replaced. -/
def decodeUtf16Lossy : NbtString → List Char
  | [] => []
  | [unit] =>
    if 0xd800 ≤ unit ∧ unit < 0xe000 then [replacementCharacter] else [Char.ofNat unit.toNat]
  | unit :: next :: rest =>
    if 0xd800 ≤ unit ∧ unit < 0xdc00 then
      if 0xdc00 ≤ next ∧ next < 0xe000 then
        Char.ofNat (0x10000 + (unit.toNat - 0xd800) * 0x400 + (next.toNat - 0xdc00)) ::
          decodeUtf16Lossy rest
      else replacementCharacter :: decodeUtf16Lossy (next :: rest)
    else if 0xdc00 ≤ unit ∧ unit < 0xe000 then
      replacementCharacter :: decodeUtf16Lossy (next :: rest)
    else Char.ofNat unit.toNat :: decodeUtf16Lossy (next :: rest)

def NbtString.toStringLossy (s : NbtString) : String := .ofList (decodeUtf16Lossy s)

namespace NbtCompound

def getStr (entries : List (NbtString × NbtTree)) (name : String) : Option NbtTree :=
  (entries.find? fun entry => entry.1 = encodeUtf16 name).map (·.2)

def getString (entries : List (NbtString × NbtTree)) (name : String) : Option NbtString :=
  match getStr entries name with
  | some (.string value) => some value
  | _ => none

/-- What a lookup finds, weighed. -/
def found (w : NbtTree → Nat) (entries : List (NbtString × NbtTree)) (name : NbtString) : Nat :=
  ((entries.find? fun entry => entry.1 = name).map fun entry => w entry.2).getD 0

variable {w : NbtTree → Nat} {entries : List (NbtString × NbtTree)} {name : String}

theorem found_of_getStr {t : NbtTree} (h : getStr entries name = some t) :
    found w entries (encodeUtf16 name) = w t := by
  obtain ⟨entry, hentry, rfl⟩ := Option.map_eq_some_iff.mp h
  unfold found
  rw [hentry]
  rfl

theorem getStr_of_getString {value : NbtString} (h : getString entries name = some value) :
    getStr entries name = some (.string value) := by
  unfold getString at h
  split at h
  · rename_i hstr
    cases h
    exact hstr
  · cases h

theorem found_cons (e : NbtString × NbtTree) (rest : List (NbtString × NbtTree)) (name : NbtString) :
    found w (e :: rest) name = if e.1 = name then w e.2 else found w rest name := by
  unfold found
  rw [List.find?_cons]
  by_cases h : e.1 = name
  · rw [if_pos h, decide_eq_true h]
    rfl
  · rw [if_neg h, decide_eq_false h]

/-- The first entry is found under one name at most. -/
theorem sum_found_cons_le (e : NbtString × NbtTree) (rest : List (NbtString × NbtTree))
    {names : List NbtString} (hnames : names.Nodup) :
    (names.map (found w (e :: rest))).sum ≤ w e.2 + (names.map (found w rest)).sum := by
  induction names with
  | nil => exact Nat.zero_le _
  | cons name names ih =>
    obtain ⟨hfresh, hnames⟩ := List.nodup_cons.mp hnames
    rw [List.map_cons, List.sum_cons, List.map_cons, List.sum_cons, found_cons]
    by_cases h : e.1 = name
    · have hothers : names.map (found w (e :: rest)) = names.map (found w rest) := by
        refine List.map_congr_left fun other hmem => ?_
        have hne : e.1 ≠ other := fun heq => hfresh (h ▸ heq ▸ hmem)
        rw [found_cons, if_neg hne]
      rw [if_pos h, hothers]
      omega
    · have hsum := ih hnames
      rw [if_neg h]
      omega

/-- Lookups under different names find different entries. -/
theorem sum_found_le {names : List NbtString} (hnames : names.Nodup)
    (entries : List (NbtString × NbtTree)) :
    (names.map (found w entries)).sum ≤ (entries.map fun e => w e.2).sum := by
  induction entries with
  | nil =>
    have hzero : names.map (found w []) = names.map fun _ => 0 := rfl
    rw [hzero, List.map_const', List.sum_replicate_nat]
    exact Nat.zero_le _
  | cons e rest ih =>
    have hcons := sum_found_cons_le (w := w) e rest hnames
    rw [List.map_cons, List.sum_cons]
    omega

end NbtCompound

end Cubic
