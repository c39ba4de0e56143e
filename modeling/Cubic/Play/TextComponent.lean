import Cubic.Nbt.TextSize
import Cubic.Play.Protocol

/-! # The plain text of a text component (`bootstrap/v775.rs`) -/

namespace Cubic

set_option autoImplicit false

open NbtCompound

def maxChatComponentBytes : Nat := 32 * 1024

structure TextComponent where
  value : NbtTag
  plainText : String

/-- The loop over the elements of a list; none for a panic. -/
def projectElements (project : NbtTree → List Char → Option (List Char)) (elements : List NbtTree)
    (output : List Char) : Option (List Char) :=
  elements.foldlM (fun output child => project child output) output

/-- The `if let` of a list, with what is pushed before its elements. -/
def projectListOf (project : NbtTree → List Char → Option (List Char))
    (entries : List (NbtString × NbtTree)) (name : String) (separator output : List Char) :
    Option (List Char) :=
  match getStr entries name with
  | some (.list _ elements) => projectElements project elements (output ++ separator)
  | _ => some output

/-- The arm of a compound. -/
def projectCompound (project : NbtTree → List Char → Option (List Char))
    (entries : List (NbtString × NbtTree)) (output : List Char) : Option (List Char) := do
  let output ← match getString entries "text" with
    | some text => some (output ++ decodeUtf16Lossy text)
    | none =>
      match getString entries "translate" with
      | some translate =>
        projectListOf project entries "with" [' '] (output ++ decodeUtf16Lossy translate)
      | none => some output
  projectListOf project entries "extra" [] output

/-- `left` counts the depths up to 32. -/
def projectPlainText : Nat → NbtTree → List Char → Option (List Char)
  | 0, _, output => some output
  | left + 1, value, output =>
    if maxChatComponentBytes ≤ Utf8.size output then some output
    else do
      let output ← match value with
        | .string value => some (output ++ decodeUtf16Lossy value)
        | .list _ elements => projectElements (projectPlainText left) elements output
        | .compound entries => projectCompound (projectPlainText left) entries output
        | _ => some output
      if maxChatComponentBytes < Utf8.size output then Utf8.truncate output maxChatComponentBytes
      else some output

def decodeTextComponent (layout : NbtLayout) : PlayM TextComponent := do
  let start ← Mut.get
  let value ← onReader .nbt (decodeUnnamedNetworkTag .default layout)
  let consumed ← codec (consumedSince start.position)
  if consumed.length > maxChatComponentBytes then
    Mut.fail (.payloadTooLarge "text component" consumed.length maxChatComponentBytes)
  else do
    let plainText ← Mut.ofOption (projectPlainText 33 value.val [])
    pure ⟨value, if plainText.isEmpty then "<rich text>" else .ofList plainText⟩

/-! ### The text stays within the bytes that were read -/

/-- Where there is room for the text of the tree, it is taken without a cut. -/
def Grows (project : NbtTree → List Char → Option (List Char)) (t : NbtTree) : Prop :=
  ∀ output, Utf8.size output + t.textSize ≤ maxChatComponentBytes →
    ∃ output', project t output = some output' ∧
      Utf8.size output' ≤ Utf8.size output + t.textSize

variable {project : NbtTree → List Char → Option (List Char)}

theorem grows_elements (hproject : ∀ t, Grows project t) (elements : List NbtTree) :
    ∀ output, Utf8.size output + (elements.map NbtTree.textSize).sum ≤ maxChatComponentBytes →
      ∃ output', projectElements project elements output = some output' ∧
        Utf8.size output' ≤ Utf8.size output + (elements.map NbtTree.textSize).sum := by
  induction elements with
  | nil => exact fun output _ => ⟨output, rfl, Nat.le_refl _⟩
  | cons t rest ih =>
    intro output hroom
    rw [List.map_cons, List.sum_cons] at hroom ⊢
    obtain ⟨middle, hmiddle, hsize⟩ := hproject t output (by omega)
    obtain ⟨output', hrest, hsize'⟩ := ih middle (by omega)
    refine ⟨output', ?_, by omega⟩
    unfold projectElements at hrest ⊢
    rw [List.foldlM_cons, hmiddle]
    exact hrest

/-- The share of an entry in the text of its compound. -/
def share (t : NbtTree) : Nat := t.textSize + 1

theorem grows_listOf (hproject : ∀ t, Grows project t) (entries : List (NbtString × NbtTree))
    (name : String) (separator output : List Char) (hseparator : Utf8.size separator ≤ 1)
    (hroom : Utf8.size output + found share entries (encodeUtf16 name) ≤ maxChatComponentBytes) :
    ∃ output', projectListOf project entries name separator output = some output' ∧
      Utf8.size output' ≤ Utf8.size output + found share entries (encodeUtf16 name) := by
  unfold projectListOf
  split
  · rename_i id elements hfind
    have hfound : found share entries (encodeUtf16 name) = (elements.map NbtTree.textSize).sum + 1 := by
      rw [found_of_getStr hfind, share, NbtTree.textSize_list]
    have hsize := Utf8.size_append output separator
    obtain ⟨output', hrest, hsize'⟩ := grows_elements hproject elements (output ++ separator)
      (by omega)
    exact ⟨output', hrest, by omega⟩
  · exact ⟨output, rfl, Nat.le_add_right _ _⟩

/-- The entries that are looked up are different ones. -/
theorem shares_le (entries : List (NbtString × NbtTree)) :
    found share entries (encodeUtf16 "text") + found share entries (encodeUtf16 "translate") +
      found share entries (encodeUtf16 "with") + found share entries (encodeUtf16 "extra") ≤
        (NbtTree.compound entries).textSize := by
  have hnames : (["text", "translate", "with", "extra"].map encodeUtf16).Nodup := by decide
  have hsum := sum_found_le (w := share) hnames entries
  rw [NbtTree.textSize_compound]
  simp only [List.map_cons, List.map_nil, List.sum_cons, List.sum_nil] at hsum
  unfold share at hsum ⊢
  omega

theorem found_share_of_getString {entries : List (NbtString × NbtTree)} {name : String}
    {value : NbtString} (h : getString entries name = some value) :
    found share entries (encodeUtf16 name) = Utf8.size (decodeUtf16Lossy value) + 1 :=
  found_of_getStr (getStr_of_getString h)

theorem grows_compound (hproject : ∀ t, Grows project t) (entries : List (NbtString × NbtTree))
    {output : List Char}
    (hroom : Utf8.size output + (NbtTree.compound entries).textSize ≤ maxChatComponentBytes) :
    ∃ output', projectCompound project entries output = some output' ∧
      Utf8.size output' ≤ Utf8.size output + (NbtTree.compound entries).textSize := by
  have hshares := shares_le entries
  have hextra : ∀ middle, Utf8.size middle + found share entries (encodeUtf16 "extra") ≤
      Utf8.size output + (NbtTree.compound entries).textSize →
      ∃ output', projectListOf project entries "extra" [] middle = some output' ∧
        Utf8.size output' ≤ Utf8.size output + (NbtTree.compound entries).textSize := by
    intro middle hmiddle
    obtain ⟨output', hrest, hsize⟩ := grows_listOf hproject entries "extra" [] middle (Nat.zero_le 1)
      (by omega)
    exact ⟨output', hrest, by omega⟩
  unfold projectCompound
  cases htext : getString entries "text" with
  | some text =>
    have hfound := found_share_of_getString htext
    refine hextra _ ?_
    rw [Utf8.size_append]
    omega
  | none =>
    cases htranslate : getString entries "translate" with
    | some translate =>
      have hfound := found_share_of_getString htranslate
      have hsize := Utf8.size_append output (decodeUtf16Lossy translate)
      obtain ⟨middle, hwith, hmiddle⟩ := grows_listOf hproject entries "with" [' ']
        (output ++ decodeUtf16Lossy translate) (Nat.le_refl 1) (by omega)
      simp only [hwith]
      exact hextra middle (by omega)
    | none =>
      refine hextra output ?_
      omega

theorem grows_plainText (left : Nat) : ∀ t, Grows (projectPlainText left) t := by
  induction left with
  | zero => exact fun t output _ => ⟨output, rfl, Nat.le_add_right _ _⟩
  | succ left ih =>
    intro t output hroom
    unfold projectPlainText
    by_cases hfull : maxChatComponentBytes ≤ Utf8.size output
    · exact ⟨output, if_pos hfull, Nat.le_add_right _ _⟩
    rw [if_neg hfull]
    -- the arm that is taken leaves a text within the limit, so the cut after it is not made
    suffices harm : ∀ arm : Option (List Char), (∃ output', arm = some output' ∧
        Utf8.size output' ≤ Utf8.size output + t.textSize) →
        ∃ output', (arm.bind fun output => if maxChatComponentBytes < Utf8.size output then
          Utf8.truncate output maxChatComponentBytes else some output) = some output' ∧
          Utf8.size output' ≤ Utf8.size output + t.textSize by
      cases t with
      | string value =>
        refine harm _ ⟨_, rfl, ?_⟩
        rw [Utf8.size_append]
        exact Nat.le_refl _
      | list id elements =>
        refine harm _ ?_
        rw [NbtTree.textSize_list] at hroom ⊢
        exact grows_elements ih elements output hroom
      | compound entries => exact harm _ (grows_compound ih entries hroom)
      | _ => exact harm _ ⟨output, rfl, Nat.le_add_right _ _⟩
    rintro _ ⟨output', rfl, hsize⟩
    refine ⟨output', if_neg ?_, hsize⟩
    omega

theorem consumedSince_of_le {start : Nat} {r : CodecReader} (h : start ≤ r.position) :
    consumedSince start r = .ok (r.before.drop start) r := by
  unfold consumedSince
  rw [Mut.get_bind, if_pos h]
  rfl

/-- The reader never panics, and a text that it accepts is the placeholder or takes no more bytes
than the component. -/
theorem decodeTextComponent_plainText (layout : NbtLayout) (r : CodecReader) :
    Mut.wp (decodeTextComponent layout) ⟨fun component r' =>
      (component.plainText = "<rich text>" ∨
        r.position + component.plainText.utf8ByteSize ≤ r'.position) ∧
      component.plainText.utf8ByteSize ≤ maxChatComponentBytes, fun _ _ => True, False⟩ r := by
  unfold decodeTextComponent
  rw [Mut.wp_bind, Mut.wp_get]
  have htag : Mut.Pays CodecReader.position 0
      (onReader BootstrapProtocolError.nbt (decodeUnnamedNetworkTag .default layout))
      fun tag => tag.val.textSize := pays_onReader pays_unnamedNetworkTag
  refine Mut.wp_seq (htag r) ?_ (fun _ _ => id) id
  intro value r' hpaid
  change r.position + value.val.textSize ≤ r'.position at hpaid
  have hread : codec (consumedSince r.position) r' = .ok (r'.before.drop r.position) r' := by
    unfold codec
    rw [Mut.mapErr_eq_ok]
    exact consumedSince_of_le (by omega)
  have hlength : (r'.before.drop r.position).length = r'.position - r.position := List.length_drop
  unfold Mut.wp
  rw [Mut.bind_of_ok hread, hlength]
  by_cases hlong : r'.position - r.position > maxChatComponentBytes
  · rw [if_pos hlong]
    trivial
  rw [if_neg hlong]
  have hnil : Utf8.size [] = 0 := rfl
  obtain ⟨text, htext, hsize⟩ := grows_plainText 33 value.val [] (by omega)
  rw [htext]
  change (_ ∨ _) ∧ _
  dsimp only
  split
  · exact ⟨Or.inl rfl, by decide⟩
  · rw [Utf8.utf8ByteSize_ofList]
    exact ⟨Or.inr (by omega), by omega⟩

example : projectPlainText 33 (.compound [(encodeUtf16 "translate", .string (encodeUtf16 "hé")),
    (encodeUtf16 "with", .list 8 [.string (encodeUtf16 "x")])]) [] = some "hé x".toList := by
  decide +kernel

end Cubic
