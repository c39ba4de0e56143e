import Cubic.Play.TextComponent

/-!
# The text of item components

`chat_session.rs`: `project_component_text`, `project_component_lore` and the walk they share.
-/

namespace Cubic.Inventory

set_option autoImplicit false

open NbtCompound

/-- What the projections raise of `ChatSessionError`: `InventoryProtocol` with an error of the
codec or of NBT, and `InventoryAction`. -/
inductive ComponentError where
  | codec (e : CodecError)
  | nbt (e : NbtError)
  | inventoryAction (message : String)

def maxTooltipBytes : Nat := 256

/-- The `if let` of any value under a name. -/
def projectValueOf (project : NbtTree → List Char → Option (List Char))
    (entries : List (NbtString × NbtTree)) (name : String) (output : List Char) :
    Option (List Char) :=
  match getStr entries name with
  | some value => project value output
  | none => some output

/-- The translation key, while there is no text. -/
def projectTranslate (project : NbtTree → List Char → Option (List Char))
    (entries : List (NbtString × NbtTree)) (output : List Char) : Option (List Char) :=
  if output.isEmpty then projectValueOf project entries "translate" output else some output

/-- The arm of a compound. -/
def projectTooltipCompound (project : NbtTree → List Char → Option (List Char))
    (entries : List (NbtString × NbtTree)) (output : List Char) : Option (List Char) := do
  let output ← projectValueOf project entries "text" output
  let output ← projectTranslate project entries output
  projectListOf project entries "extra" [] output

/-- `left` counts the depths below 16. -/
def projectTooltipText : Nat → NbtTree → List Char → Option (List Char)
  | 0, _, output => some output
  | left + 1, value, output =>
    if maxTooltipBytes ≤ Utf8.size output then some output
    else do
      let output ← match value with
        | .string value => some (output ++ decodeUtf16Lossy value)
        | .list _ elements => projectElements (projectTooltipText left) elements output
        | .compound entries => projectTooltipCompound (projectTooltipText left) entries output
        | _ => some output
      if maxTooltipBytes < Utf8.size output then Utf8.truncate output maxTooltipBytes
      else some output

/-- The projection of one tree, and the cut after it. -/
def projectTooltip (value : NbtTag) : Option (List Char) := do
  let output ← projectTooltipText 16 value.val []
  Utf8.truncate output maxTooltipBytes

section Layout
variable (layout : NbtLayout)

def projectComponentText (bytes : Bytes) : Option (Except ComponentError String) :=
  match decodeUnnamedNetworkTagComplete .default layout bytes with
  | .ok value _ => (projectTooltip value).map fun output => .ok (.ofList output)
  | .err e _ => some (.error (.nbt e))
  | .panic => none

def projectLoreLine : Mut CodecReader ComponentError String := do
  let value ← onReader .nbt (decodeUnnamedNetworkTag .default layout)
  let line ← Mut.ofOption (projectTooltip value)
  pure (.ofList line)

def readLoreCount : Mut CodecReader ComponentError Nat := do
  let count ← Mut.mapErr .codec readVarInt
  if count < 0 then Mut.fail (.inventoryAction "negative lore line count")
  else if count.toInt.toNat > 64 then
    Mut.fail (.inventoryAction "lore line count exceeds its presentation bound")
  else pure count.toInt.toNat

def projectComponentLore (bytes : Bytes) : Option (Except ComponentError (List String)) :=
  ((do
    let count ← readLoreCount
    let lines ← Mut.repeatCall (projectLoreLine layout) count
    let r ← Mut.get
    if r.remaining ≠ 0 then Mut.fail (.inventoryAction "lore component has trailing data")
    else pure lines : Mut CodecReader ComponentError (List String)) (.new bytes)).result?

end Layout

/-! ### The text without cuts -/

def partsOfValue (parts : NbtTree → List Char → List Char) (entries : List (NbtString × NbtTree))
    (name : String) (output : List Char) : List Char :=
  match getStr entries name with
  | some value => parts value output
  | none => output

def partsOfList (parts : NbtTree → List Char → List Char) (entries : List (NbtString × NbtTree))
    (name : String) (output : List Char) : List Char :=
  match getStr entries name with
  | some (.list _ elements) => elements.foldl (fun output child => parts child output) output
  | _ => output

def partsOfTranslate (parts : NbtTree → List Char → List Char)
    (entries : List (NbtString × NbtTree)) (output : List Char) : List Char :=
  if output.isEmpty then partsOfValue parts entries "translate" output else output

def partsOfCompound (parts : NbtTree → List Char → List Char)
    (entries : List (NbtString × NbtTree)) (output : List Char) : List Char :=
  partsOfList parts entries "extra"
    (partsOfTranslate parts entries (partsOfValue parts entries "text" output))

/-- The text parts of a tree in so many levels, depth first, put behind what there is. -/
def textParts : Nat → NbtTree → List Char → List Char
  | 0, _, output => output
  | left + 1, value, output =>
    match value with
    | .string value => output ++ decodeUtf16Lossy value
    | .list _ elements => elements.foldl (fun output child => textParts left child output) output
    | .compound entries => partsOfCompound (textParts left) entries output
    | _ => output

/-- The whole text of a component. -/
def componentText (value : NbtTag) : List Char := textParts 16 value.val []

/-- Byte 256 of the text is not inside a character. -/
def FitsTooltip (value : NbtTag) : Prop :=
  Utf8.size (componentText value) ≤ maxTooltipBytes ∨
    Utf8.Boundary (componentText value) maxTooltipBytes

/-! ### The projection cuts the text once -/

/-- Nothing of the text so far is lost. -/
def Extends (parts : NbtTree → List Char → List Char) : Prop :=
  ∀ value output, output <+: parts value output

/-- Within the limit, `project` is `parts` with a cut at the end. -/
def Cuts (project : NbtTree → List Char → Option (List Char))
    (parts : NbtTree → List Char → List Char) : Prop :=
  ∀ value output, Utf8.size output ≤ maxTooltipBytes →
    project value output = Utf8.truncate (parts value output) maxTooltipBytes

variable {project : NbtTree → List Char → Option (List Char)}
  {parts : NbtTree → List Char → List Char} {entries : List (NbtString × NbtTree)} {name : String}

theorem Extends.foldl (h : Extends parts) (elements : List NbtTree) : ∀ output,
    output <+: elements.foldl (fun output child => parts child output) output := by
  induction elements with
  | nil => exact fun output => List.prefix_refl output
  | cons t rest ih => exact fun output => (h t output).trans (ih (parts t output))

theorem Extends.ofValue (h : Extends parts) (output : List Char) :
    output <+: partsOfValue parts entries name output := by
  unfold partsOfValue
  split
  · exact h _ output
  · exact List.prefix_refl output

theorem Extends.ofList (h : Extends parts) (output : List Char) :
    output <+: partsOfList parts entries name output := by
  unfold partsOfList
  split
  · exact h.foldl _ output
  · exact List.prefix_refl output

theorem Extends.ofTranslate (h : Extends parts) (output : List Char) :
    output <+: partsOfTranslate parts entries output := by
  unfold partsOfTranslate
  split
  · exact h.ofValue output
  · exact List.prefix_refl output

theorem extends_textParts (left : Nat) : Extends (textParts left) := by
  induction left with
  | zero => exact fun _ output => List.prefix_refl output
  | succ left ih =>
    intro t output
    unfold textParts
    cases t with
    | string value => exact List.prefix_append output _
    | list id elements => exact ih.foldl elements output
    | compound entries => exact ((ih.ofValue output).trans (ih.ofTranslate _)).trans (ih.ofList _)
    | _ => exact List.prefix_refl output

theorem Cuts.elements (h : Cuts project parts) (hparts : Extends parts) (elements : List NbtTree) :
    ∀ output, Utf8.size output ≤ maxTooltipBytes → projectElements project elements output =
      Utf8.truncate (elements.foldl (fun output child => parts child output) output) maxTooltipBytes := by
  induction elements with
  | nil => exact fun output hsize => (Utf8.truncate_of_size_le hsize).symm
  | cons t rest ih =>
    intro output hsize
    have hcons : projectElements project (t :: rest) output =
        (project t output).bind (projectElements project rest) := List.foldlM_cons
    rw [hcons, h t output hsize]
    exact Utf8.truncate_bind ih (hparts.foldl rest) (parts t output)

theorem Cuts.ofValue (h : Cuts project parts) (output : List Char)
    (hsize : Utf8.size output ≤ maxTooltipBytes) : projectValueOf project entries name output =
      Utf8.truncate (partsOfValue parts entries name output) maxTooltipBytes := by
  unfold projectValueOf partsOfValue
  cases getStr entries name with
  | some value => exact h value output hsize
  | none => exact (Utf8.truncate_of_size_le hsize).symm

theorem Cuts.ofTranslate (h : Cuts project parts) (output : List Char)
    (hsize : Utf8.size output ≤ maxTooltipBytes) : projectTranslate project entries output =
      Utf8.truncate (partsOfTranslate parts entries output) maxTooltipBytes := by
  unfold projectTranslate partsOfTranslate
  split
  · exact h.ofValue output hsize
  · exact (Utf8.truncate_of_size_le hsize).symm

theorem Cuts.ofList (h : Cuts project parts) (hparts : Extends parts) (output : List Char)
    (hsize : Utf8.size output ≤ maxTooltipBytes) : projectListOf project entries name [] output =
      Utf8.truncate (partsOfList parts entries name output) maxTooltipBytes := by
  unfold projectListOf partsOfList
  rw [List.append_nil]
  cases getStr entries name with
  | none => exact (Utf8.truncate_of_size_le hsize).symm
  | some value =>
    cases value with
    | list id elements => exact h.elements hparts elements output hsize
    | _ => exact (Utf8.truncate_of_size_le hsize).symm

theorem Cuts.compound (h : Cuts project parts) (hparts : Extends parts) (output : List Char)
    (hsize : Utf8.size output ≤ maxTooltipBytes) : projectTooltipCompound project entries output =
      Utf8.truncate (partsOfCompound parts entries output) maxTooltipBytes := by
  change (projectValueOf project entries "text" output).bind (fun output =>
    (projectTranslate project entries output).bind (projectListOf project entries "extra" [])) = _
  rw [← Option.bind_assoc, h.ofValue output hsize,
    Utf8.truncate_bind h.ofTranslate hparts.ofTranslate]
  exact Utf8.truncate_bind (h.ofList hparts) hparts.ofList _

/-- The cut at the end of an arm. -/
theorem cut_truncate (text : List Char) : (Utf8.truncate text maxTooltipBytes).bind (fun output =>
    if maxTooltipBytes < Utf8.size output then Utf8.truncate output maxTooltipBytes
    else some output) = Utf8.truncate text maxTooltipBytes := by
  refine Utf8.truncate_bind (g := id) ?_ (fun output => List.prefix_refl output) text
  intro output hsize
  rw [if_neg (Nat.not_lt.mpr hsize)]
  exact (Utf8.truncate_of_size_le hsize).symm

theorem truncate_unless (text : List Char) : (if maxTooltipBytes < Utf8.size text then
    Utf8.truncate text maxTooltipBytes else some text) = Utf8.truncate text maxTooltipBytes := by
  split
  · rfl
  · exact (Utf8.truncate_of_size_le (Nat.not_lt.mp ‹_›)).symm

/-- Whatever the walk cuts on the way, it returns the whole text cut at its end, and panics where
that cut panics. -/
theorem cuts_tooltip (left : Nat) : Cuts (projectTooltipText left) (textParts left) := by
  induction left with
  | zero => exact fun _ output hsize => (Utf8.truncate_of_size_le hsize).symm
  | succ left ih =>
    intro t output hsize
    have hparts := extends_textParts left
    unfold projectTooltipText
    split
    · rename_i hfull
      obtain ⟨back, hback⟩ := extends_textParts (left + 1) t output
      rw [← hback, Utf8.truncate_append (Nat.le_antisymm hsize hfull)]
    cases t with
    | string value => exact truncate_unless _
    | list id elements =>
      change (projectElements (projectTooltipText left) elements output).bind _ = _
      rw [ih.elements hparts elements output hsize]
      exact cut_truncate _
    | compound entries =>
      change (projectTooltipCompound (projectTooltipText left) entries output).bind _ = _
      rw [ih.compound hparts output hsize]
      exact cut_truncate _
    | _ => exact truncate_unless output

theorem projectTooltip_eq (value : NbtTag) :
    projectTooltip value = Utf8.truncate (componentText value) maxTooltipBytes := by
  change (projectTooltipText 16 value.val []).bind _ = _
  rw [cuts_tooltip 16 value.val [] (Nat.zero_le _)]
  refine Utf8.truncate_bind (g := id) (fun _ _ => rfl) (fun output => List.prefix_refl output) _

/-! ### The two projections -/

theorem projectTooltip_isSome (value : NbtTag) : (projectTooltip value).isSome ↔ FitsTooltip value := by
  rw [projectTooltip_eq]
  exact Utf8.truncate_isSome

/-- At most 256 bytes, and a prefix of the whole text. -/
def IsCutOf (text : String) (value : NbtTag) : Prop :=
  text.utf8ByteSize ≤ maxTooltipBytes ∧ text.toList <+: componentText value

theorem isCutOf_of_projectTooltip {value : NbtTag} {output : List Char}
    (h : projectTooltip value = some output) : IsCutOf (.ofList output) value := by
  rw [projectTooltip_eq] at h
  obtain ⟨hfront, hsize⟩ := Utf8.prefix_of_truncate h
  refine ⟨?_, ?_⟩
  · rw [Utf8.utf8ByteSize_ofList]
    exact hsize
  · rw [String.toList_ofList]
    exact hfront

section Layout
variable (layout : NbtLayout)

/-- The projection of a text returns, and what it returns is a cut of the text. -/
def TextProjects (bytes : Bytes) : Prop :=
  ∃ r, projectComponentText layout bytes = some r ∧ ∀ text, r = .ok text →
    ∃ value, (decodeUnnamedNetworkTagComplete .default layout bytes).value? = some value ∧
      IsCutOf text value

/-- The trees of the next lines, up to the first that is malformed. -/
def lineValues : Nat → CodecReader → List NbtTag
  | 0, _ => []
  | left + 1, r =>
    match onReader ComponentError.nbt (decodeUnnamedNetworkTag .default layout) r with
    | .ok value r' => value :: lineValues left r'
    | _ => []

def loreValues (bytes : Bytes) : List NbtTag :=
  match readLoreCount (.new bytes) with
  | .ok count r => lineValues layout count r
  | _ => []

/-- The projection of a lore returns, and its lines are cuts of their texts. -/
def LoreProjects (bytes : Bytes) : Prop :=
  ∃ r, projectComponentLore layout bytes = some r ∧ ∀ lines, r = .ok lines →
    List.Forall₂ IsCutOf lines (loreValues layout bytes)

theorem textProjects_iff (bytes : Bytes) : TextProjects layout bytes ↔
    ∀ value, (decodeUnnamedNetworkTagComplete .default layout bytes).value? = some value →
      FitsTooltip value := by
  have hsafe : decodeUnnamedNetworkTagComplete .default layout bytes ≠ .panic :=
    decodeComplete_ne_panic pays_unnamedNetworkTag bytes
  unfold TextProjects projectComponentText
  cases hdecode : decodeUnnamedNetworkTagComplete .default layout bytes with
  | ok value s =>
    constructor
    · intro h value' hvalue
      obtain ⟨r, hr, -⟩ := h
      cases hvalue
      obtain ⟨output, houtput, -⟩ := Option.map_eq_some_iff.mp hr
      rw [← projectTooltip_isSome, houtput]
      rfl
    · intro h
      obtain ⟨output, houtput⟩ := Option.isSome_iff_exists.mp
        ((projectTooltip_isSome value).mpr (h value rfl))
      refine ⟨.ok (.ofList output), congrArg (Option.map _) houtput, ?_⟩
      intro text htext
      cases htext
      exact ⟨value, rfl, isCutOf_of_projectTooltip houtput⟩
  | err e s =>
    constructor
    · intro _ value hvalue
      cases hvalue
    · intro _
      refine ⟨.error (.nbt e), rfl, ?_⟩
      intro text htext
      cases htext
  | panic => exact absurd hdecode hsafe

/-- One line: its tree, and the cut of its text. -/
theorem projectLoreLine_of_ok {r r' : CodecReader} {value : NbtTag}
    (h : onReader ComponentError.nbt (decodeUnnamedNetworkTag .default layout) r = .ok value r') :
    projectLoreLine layout r = match projectTooltip value with
      | some output => .ok (.ofList output) r'
      | none => .panic := by
  unfold projectLoreLine
  rw [Mut.bind_of_ok h]
  cases projectTooltip value <;> rfl

theorem projectLoreLine_of_err {r r' : CodecReader} {e : ComponentError}
    (h : onReader ComponentError.nbt (decodeUnnamedNetworkTag .default layout) r = .err e r') :
    projectLoreLine layout r = .err e r' := Mut.bind_of_err h

/-- A loop that does not panic has cut the text of every tree it got to. -/
theorem fits_of_projectLines (left : Nat) : ∀ r : CodecReader,
    Mut.wp (Mut.repeatCall (projectLoreLine layout) left) (Post.keeps fun _ => True) r →
      ∀ value ∈ lineValues layout left r, FitsTooltip value := by
  induction left with
  | zero => exact fun _ _ _ hmem => absurd hmem List.not_mem_nil
  | succ left ih =>
    intro r h
    rw [Mut.repeatCall, Mut.wp_bind] at h
    rw [lineValues]
    split
    · rename_i value r₁ hline
      have hstep := projectLoreLine_of_ok layout hline
      cases hcut : projectTooltip value with
      | none =>
        rw [hcut] at hstep
        exact absurd ((Mut.wp_of_panic hstep).mp h) id
      | some output =>
        rw [hcut] at hstep
        have hrest := (Mut.wp_bind _ _).mp ((Mut.wp_of_ok hstep).mp h)
        refine List.forall_mem_cons.mpr ⟨?_, ih r₁ (Mut.wp_mono hrest ?_ (fun _ _ => id) id)⟩
        · rw [← projectTooltip_isSome, hcut]
          rfl
        · exact fun _ _ _ => trivial
    · exact fun _ hmem => absurd hmem List.not_mem_nil

theorem projectLines_of_fits (left : Nat) : ∀ r : CodecReader,
    (∀ value ∈ lineValues layout left r, FitsTooltip value) →
      Mut.wp (Mut.repeatCall (projectLoreLine layout) left)
        ⟨fun lines _ => List.Forall₂ IsCutOf lines (lineValues layout left r), fun _ _ => True,
          False⟩ r := by
  induction left with
  | zero => exact fun _ _ => List.Forall₂.nil
  | succ left ih =>
    intro r hfits
    have hsafe : onReader ComponentError.nbt (decodeUnnamedNetworkTag .default layout) r ≠ .panic :=
      (pays_onReader pays_unnamedNetworkTag).not_panic r
    rw [Mut.repeatCall, Mut.wp_bind]
    rw [lineValues] at hfits ⊢
    cases hline : onReader ComponentError.nbt (decodeUnnamedNetworkTag .default layout) r with
    | ok value r₁ =>
      rw [hline] at hfits
      obtain ⟨hvalue, hrest⟩ := List.forall_mem_cons.mp hfits
      obtain ⟨output, hcut⟩ := Option.isSome_iff_exists.mp ((projectTooltip_isSome value).mpr hvalue)
      have hstep := projectLoreLine_of_ok layout hline
      rw [hcut] at hstep
      refine (Mut.wp_of_ok hstep).mpr ((Mut.wp_bind _ _).mpr ?_)
      refine Mut.wp_mono (ih r₁ hrest) ?_ (fun _ _ => id) id
      intro lines t hlines
      exact List.Forall₂.cons (isCutOf_of_projectTooltip hcut) hlines
    | err e r₁ => exact (Mut.wp_of_err (projectLoreLine_of_err layout hline)).mpr trivial
    | panic => exact absurd hline hsafe

theorem readLoreCount_ne_panic (r : CodecReader) : readLoreCount r ≠ .panic := by
  have hpays : Mut.Pays CodecReader.position 0 readLoreCount fun _ => 0 := by
    refine (pays_readVarInt.mapErr ComponentError.codec).bind fun count => ?_
    split
    · exact Mut.pays_fail
    split
    · exact Mut.pays_fail
    · exact Mut.pays_pure (Nat.le_refl 0)
  exact hpays.not_panic r

theorem loreProjects_iff (bytes : Bytes) : LoreProjects layout bytes ↔
    ∀ value ∈ loreValues layout bytes, FitsTooltip value := by
  unfold LoreProjects projectComponentLore loreValues
  rw [Mut.result_iff_wp, Mut.wp_bind]
  cases hcount : readLoreCount (.new bytes) with
  | ok count r =>
    refine (Mut.wp_of_ok hcount).trans ((Mut.wp_bind _ _).trans ?_)
    constructor
    · intro h
      exact fits_of_projectLines layout count r
        (Mut.wp_mono h (fun _ _ _ => trivial) (fun _ _ => id) id)
    · intro hfits
      refine Mut.wp_mono (projectLines_of_fits layout count r hfits) ?_ (fun _ _ => id) id
      intro lines r' hlines
      refine (Mut.wp_bind _ _).mpr ((Mut.wp_ite _ _ _).mpr ?_)
      split
      · trivial
      · exact hlines
  | err e r =>
    rw [Mut.wp_of_err hcount]
    exact ⟨fun _ _ hmem => absurd hmem List.not_mem_nil, fun _ => trivial⟩
  | panic => exact absurd hcount (readLoreCount_ne_panic _)

/-- The projections return, with cuts of the texts, on the inputs whose texts do not have a
character across byte 256. -/
theorem componentText_projects_iff (bytes : Bytes) :
    (TextProjects layout bytes ↔
      ∀ value, (decodeUnnamedNetworkTagComplete .default layout bytes).value? = some value →
        FitsTooltip value) ∧
    (LoreProjects layout bytes ↔ ∀ value ∈ loreValues layout bytes, FitsTooltip value) :=
  ⟨textProjects_iff layout bytes, loreProjects_iff layout bytes⟩

/-- A string of an `a` and 128 letters of two bytes. -/
def longName : Bytes := [8, 1, 1, 97] ++ (List.replicate 128 [0xc3, 0xa9]).flatten

theorem longName_panics : ¬ ∀ layout bytes, TextProjects layout bytes ∧ LoreProjects layout bytes := by
  intro h
  obtain ⟨r, hr, -⟩ := (h ⟨24, 32⟩ longName).1
  have hpanic : projectComponentText ⟨24, 32⟩ longName = none := by decide +kernel
  rw [hpanic] at hr
  cases hr

end Layout
end Cubic.Inventory
