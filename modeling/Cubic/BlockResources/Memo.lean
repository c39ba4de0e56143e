import Cubic.BlockResources.Inheritance

/-!
# What the models kept do to later answers

A kept model answers for its chain at once. The depth of a chain is therefore counted up to the
nearest model that is kept, and one that is too long for a fresh loader may get through later.
-/

namespace Cubic.BlockResources

set_option autoImplicit false

variable {ε Element Transform : Type} {resources : Resources ε Element Transform}
  {identifier : MinecraftIdentifier} {models : ResolvedModels Element Transform}
  {links : List (Link Element Transform)} {side : Bool} {model : ResolvedModel Element Transform}

variable (resources) in
/-- The models kept after calls, each made with an empty stack. -/
def after (calls : List MinecraftIdentifier) : ResolvedModels Element Transform :=
  calls.foldl (fun models identifier =>
    ((resolveModel resources identifier [] models).state?).getD models) .empty

theorem after_singleton (identifier : MinecraftIdentifier) : after resources [identifier] =
    ((resolveModel resources identifier [] .empty).state?).getD .empty := rfl

/-! ### Every call keeps sound models -/

theorem Ends.result (h : Ends resources identifier links side
    (resolveModel resources identifier [] models)) :
    (resolveModel resources identifier [] models).result? = some (settle side links) := by
  obtain ⟨models', -, -, hrun⟩ := h
  rw [hrun]
  cases settle (ε := ε) side links <;> rfl

theorem Ends.sound (h : Ends resources identifier links side
    (resolveModel resources identifier [] models)) :
    Sound resources (((resolveModel resources identifier [] models).state?).getD models) := by
  obtain ⟨models', hsound, -, hrun⟩ := h
  rw [hrun]
  cases settle (ε := ε) side links <;> exact hsound

theorem Ends.kept (h : Ends resources identifier links side
    (resolveModel resources identifier [] models)) (hmodel : settle (ε := ε) side links = .ok model) :
    (((resolveModel resources identifier [] models).state?).getD models).lookup identifier =
      some model := by
  obtain ⟨models', -, hkept, hrun⟩ := h
  rw [hrun, hmodel]
  exact hkept model hmodel

theorem Chain.goes_at_first (h : Sound resources models)
    (hchain : Chain resources identifier links side) :
    Goes resources identifier [] models links side :=
  hchain.goes h fun _ _ => List.not_mem_nil

theorem sound_step (h : Sound resources models) (identifier : MinecraftIdentifier) :
    Sound resources (((resolveModel resources identifier [] models).state?).getD models) := by
  by_cases hchain : ∃ links side, Chain resources identifier links side
  · obtain ⟨links, side, hchain⟩ := hchain
    have hgoes := hchain.goes_at_first h
    by_cases hroom : Room models 0 links
    · exact (hgoes.ends hroom).sound
    · obtain ⟨deep, -, hrun⟩ := hgoes.refused hroom
      rw [hrun]
      exact h
  · obtain ⟨error, hfails⟩ := resolveModel_of_no_chain resources
      maxModelDepth [] rfl fun links side hlinks => hchain ⟨links, side, hlinks⟩
    rw [hfails models h]
    exact h

variable (resources) in
theorem sound_after (calls : List MinecraftIdentifier) : Sound resources (after resources calls) := by
  have hrun : ∀ models, Sound resources models →
      Sound resources (calls.foldl (fun models identifier =>
        ((resolveModel resources identifier [] models).state?).getD models) models) := by
    induction calls with
    | nil => exact fun _ h => h
    | cons identifier calls ih => exact fun models h => ih _ (sound_step h identifier)
  exact hrun _ sound_empty

/-! ### Room -/

theorem room_iff {depth : Nat} (hdepth : depth ≤ maxModelDepth) :
    Room models depth links ↔ depth + links.length ≤ maxModelDepth ∨
      ∃ link ∈ links.take (maxModelDepth + 1 - depth), (models.lookup link.1).isSome := by
  induction links generalizing depth with
  | nil => exact iff_of_true trivial (Or.inl hdepth)
  | cons link rest ih =>
    rw [Nat.succ_sub hdepth, List.take_succ_cons, Room, List.length_cons]
    simp only [List.mem_cons, exists_eq_or_imp]
    by_cases hlt : depth < maxModelDepth
    · have hrest := ih (Nat.succ_le_of_lt hlt)
      rw [Nat.add_sub_add_right] at hrest
      rw [and_iff_right hlt, hrest, or_left_comm, Nat.succ_add_eq_add_succ]
    · have hfull : maxModelDepth - depth = 0 := Nat.sub_eq_zero_of_le (not_lt.mp hlt)
      have hlong : ¬ depth + (rest.length + 1) ≤ maxModelDepth := by omega
      rw [hfull, List.take_zero]
      simp only [hlt, hlong, false_and, false_or, List.not_mem_nil, exists_false]

theorem room_of_empty :
    Room (.empty : ResolvedModels Element Transform) 0 links ↔ links.length ≤ maxModelDepth := by
  rw [room_iff (Nat.zero_le _), Nat.zero_add]
  refine or_iff_left fun h => ?_
  obtain ⟨link, -, hkept⟩ := h
  cases hkept

/-! ### The answers -/

variable (resources identifier models) in
/-- The chain is too long for a fresh loader, and a call that has to look at it all but finds a
model that is kept before it is refused. -/
def Shortcut : Prop :=
  ∃ links side, Chain resources identifier links side ∧ maxModelDepth < links.length ∧
    ∃ link ∈ links.take (maxModelDepth + 1), (models.lookup link.1).isSome

variable (resources identifier models) in
/-- A call returns, with what a fresh loader returns: a model for a chain that does not come back,
is within the limits and can be read, and each part of it from the nearest model that has it. -/
structure AnswersFresh : Prop where
  returns : ∃ result, (resolveModel resources identifier [] models).result? = some result
  fresh : (resolveModel resources identifier [] models).result? =
    (resolveModel resources identifier [] .empty).result?
  accepts : (∃ model, (resolveModel resources identifier [] models).result? = some (.ok model)) ↔
    ∃ links side, Chain resources identifier links side ∧ (links.map Prod.fst).Nodup ∧
      links.length ≤ maxModelDepth ∧ ∀ link ∈ links, Bounded link.2
  inherits : ∀ model, (resolveModel resources identifier [] models).result? = some (.ok model) →
    ∀ links side, Chain resources identifier links side → Inherits side links model

/-- A chain has one answer where it is within the limit. -/
theorem answersFresh_of_room (h : Sound resources models)
    (hchain : Chain resources identifier links side) (hlength : links.length ≤ maxModelDepth) :
    AnswersFresh resources identifier models := by
  have hresult : (resolveModel resources identifier [] models).result? =
      some (settle side links) :=
    ((hchain.goes_at_first h).ends
      ((room_iff (Nat.zero_le _)).mpr (Or.inl (by rwa [Nat.zero_add])))).result
  have hfresh : (resolveModel resources identifier [] .empty).result? = some (settle side links) :=
    ((hchain.goes_at_first sound_empty).ends (room_of_empty.mpr hlength)).result
  refine ⟨⟨_, hresult⟩, hresult.trans hfresh.symm, ?_, ?_⟩
  · rw [hresult]
    constructor
    · rintro ⟨model, hmodel⟩
      refine ⟨links, side, hchain, hchain.nodup, hlength, ?_⟩
      rcases settle_cases (ε := ε) side links with ⟨hbounded, -⟩ | ⟨-, deep, herror⟩
      · exact hbounded
      · cases herror.symm.trans (Option.some.inj hmodel)
    · rintro ⟨links', side', hchain', -, -, hbounded⟩
      obtain ⟨rfl, rfl⟩ := hchain.unique hchain'
      rcases settle_cases (ε := ε) side links with ⟨-, model, hmodel⟩ | ⟨hnot, -⟩
      · exact ⟨model, congrArg some hmodel⟩
      · exact absurd hbounded hnot
  · intro model hmodel links' side' hchain'
    obtain ⟨rfl, rfl⟩ := hchain.unique hchain'
    exact settle_inherits links (Option.some.inj (hresult.symm.trans hmodel))

/-- A call that fails as a fresh one does is right to, if there is no chain within the limit. -/
theorem answersFresh_of_error {error : BlockResourceError (ResourceError ε)}
    (hresult : (resolveModel resources identifier [] models).result? = some (.error error))
    (hfresh : (resolveModel resources identifier [] .empty).result? = some (.error error))
    (hlong : ∀ links side, Chain resources identifier links side → maxModelDepth < links.length) :
    AnswersFresh resources identifier models := by
  refine ⟨⟨_, hresult⟩, hresult.trans hfresh.symm, ⟨?_, ?_⟩, ?_⟩
  · rintro ⟨model, hmodel⟩
    cases hresult.symm.trans hmodel
  · rintro ⟨links, side, hchain, -, hlength, -⟩
    exact absurd hlength (not_le.mpr (hlong links side hchain))
  · intro model hmodel
    cases hresult.symm.trans hmodel

/-- A call that gets through where a fresh loader is refused does not answer as it. -/
theorem not_answersFresh_of_shortcut (h : Sound resources models)
    (hshortcut : Shortcut resources identifier models) :
    ¬ AnswersFresh resources identifier models := by
  obtain ⟨links, side, hchain, hlength, hkept⟩ := hshortcut
  have hroom := (room_iff (Nat.zero_le _)).mpr (Or.inr hkept)
  have hresult := ((hchain.goes_at_first h).ends hroom).result
  obtain ⟨deep, -, hrun⟩ := (hchain.goes_at_first sound_empty).refused fun hroom =>
    absurd (room_of_empty.mp hroom) (not_le.mpr hlength)
  intro hanswers
  have hsame := hresult.symm.trans hanswers.fresh
  rw [hrun] at hsame
  rcases settle_cases (ε := ε) side links with ⟨-, model, hmodel⟩ | ⟨-, other, herror⟩
  · rw [hmodel] at hsame
    cases hsame
  · rw [herror] at hsame
    have hreason := (BlockResourceError.malformed.inj (Except.error.inj (Option.some.inj hsame))).2.2
    exact absurd hreason (by decide)

/-- After any calls, a call answers as a fresh loader does, and as it should, unless it takes a
shortcut past the limit. -/
theorem answersFresh_iff_not_shortcut (resources : Resources ε Element Transform)
    (calls : List MinecraftIdentifier) (identifier : MinecraftIdentifier) :
    AnswersFresh resources identifier (after resources calls) ↔
      ¬ Shortcut resources identifier (after resources calls) := by
  have hsound := sound_after resources calls
  refine ⟨fun h hshortcut => not_answersFresh_of_shortcut hsound hshortcut h, fun hshortcut => ?_⟩
  by_cases hchain : ∃ links side, Chain resources identifier links side
  · obtain ⟨links, side, hchain⟩ := hchain
    by_cases hlength : links.length ≤ maxModelDepth
    · exact answersFresh_of_room hsound hchain hlength
    · have hrefused (models : ResolvedModels Element Transform) (h : Sound resources models)
          (hnot : ¬ ∃ link ∈ links.take (maxModelDepth + 1), (models.lookup link.1).isSome) :
          ∃ deep, links[maxModelDepth]? = some deep ∧
            resolveModel resources identifier [] models =
              .err (malformed "model" deep.1.text "parent cycle or depth limit") models :=
        (hchain.goes_at_first h).refused fun hroom =>
          ((room_iff (Nat.zero_le _)).mp hroom).elim (by rwa [Nat.zero_add]) hnot
      obtain ⟨deep, hdeep, hrun⟩ := hrefused _ hsound fun hkept =>
        hshortcut ⟨links, side, hchain, not_le.mp hlength, hkept⟩
      obtain ⟨deep', hdeep', hfresh⟩ := hrefused .empty sound_empty fun hkept => by
        obtain ⟨link, -, hkept⟩ := hkept
        cases hkept
      cases hdeep.symm.trans hdeep'
      refine answersFresh_of_error (congrArg _ hrun) (congrArg _ hfresh) ?_
      intro links' side' hchain'
      obtain ⟨rfl, rfl⟩ := hchain.unique hchain'
      exact not_le.mp hlength
  · obtain ⟨error, hfails⟩ := resolveModel_of_no_chain resources
      maxModelDepth [] rfl fun links side hlinks => hchain ⟨links, side, hlinks⟩
    refine answersFresh_of_error (congrArg _ (hfails _ hsound)) (congrArg _ (hfails _ sound_empty)) ?_
    exact fun links side hlinks => absurd ⟨links, side, hlinks⟩ hchain

/-! ### A chain that is one model too long -/

def deepName (index : Nat) : List Char := Nat.toDigits 10 index

def deepText (index : Nat) : String := String.ofList (['d', 'e', 'e', 'p', ':'] ++ deepName index)

theorem deepText_valid : ∀ index : Fin 33, validateIdentifier (deepText index) = .ok () := by
  decide +kernel

def deepModel (index : Fin 33) : MinecraftIdentifier := ⟨deepText index, deepText_valid index⟩

def deepParent (index : Fin 33) : Option String :=
  if index = Fin.last 32 then none else some (deepText (index.val + 1))

def deepWire (parent : Option String) : ModelWire Unit Unit where
  parent := parent
  textures := .empty
  elements := none
  ambientocclusion := none
  display := .empty
  guiLight := none

def deepFile (index : Fin 33) : Bytes :=
  let text : List Char := match deepParent index with
    | none => ['\x7b', '\x7d']
    | some parent => "\x7b\"parent\":\"".toList ++ parent.toList ++ ['"', '\x7d']
  text.map fun c : Char => UInt8.ofNat c.toNat

def deepPath (name : List Char) : List Char :=
  "assets/".toList ++ ['d', 'e', 'e', 'p'] ++ "/".toList ++ "models".toList ++ "/".toList ++ name ++
    ".".toList ++ "json".toList

/-- Thirty-three models: each but the last says no more than that the next one is its parent. -/
def deepModels : Resources Empty Unit Unit where
  readResource path _ :=
    .ok (((List.finRange 33).find? fun index : Fin 33 =>
      path.text.toList = deepPath (deepName index)).map deepFile)
  fromSlice bytes :=
    let text := bytes.map fun b => Char.ofNat b.toNat
    .ok (deepWire (if text = ['\x7b', '\x7d'] then none
      else some (String.ofList (text.drop 11).dropLast.dropLast)))

/-- What the loader asks of each of the models. -/
theorem deepModels_checked : ∀ index : Fin 33,
    deepModels.fromSlice (deepFile index) = .ok (deepWire (deepParent index)) ∧
      (List.finRange 33).find? (fun other : Fin 33 => deepName index = deepName other) =
        some index ∧
      isBuiltin (deepModel index) = false ∧
      let chars := deepPath (deepName index)
      (chars ≠ [] ∧ chars.head? ≠ some '/' ∧ chars.head? ≠ some '\\' ∧ '\\' ∉ chars ∧
        ':' ∉ chars ∧ chars.any isControl = false ∧ String.utf8Len chars ≤ 512) ∧
        ∀ component ∈ chars.splitOn '/',
          component ≠ [] ∧ component ≠ ['.'] ∧ component ≠ ['.', '.'] := by
  decide +kernel

theorem isResourcePath_deep (index : Fin 33) :
    isResourcePath (String.ofList (deepPath (deepName index))) = true := by
  obtain ⟨-, -, -, ⟨hempty, hslash, hback, hbacks, hcolon, hcontrol, hsize⟩, hparts⟩ :=
    deepModels_checked index
  unfold isResourcePath
  simp only [String.toList_ofList, String.utf8ByteSize_ofList]
  simp [hempty, hslash, hback, hbacks, hcolon, hcontrol, hsize]
  simpa [and_assoc] using hparts

theorem resourcePath_of_split {identifier : MinecraftIdentifier} {directory suffix joined : String}
    {ns path : List Char} (hsplit : splitOnce ':' identifier.text.toList = some (ns, path))
    (hjoin : "assets/" ++ String.ofList ns ++ "/" ++ directory ++ "/" ++ String.ofList path ++ "." ++
      suffix = joined) (hvalid : isResourcePath joined = true) :
    resourcePath (ε := ε) identifier directory suffix = .ok ⟨joined, hvalid⟩ := by
  subst hjoin
  unfold resourcePath
  rw [hsplit]
  dsimp only
  unfold VanillaResourcePath.new
  rw [dif_pos hvalid]
  rfl

theorem join_deep (name : List Char) :
    "assets/" ++ String.ofList ['d', 'e', 'e', 'p'] ++ "/" ++ "models" ++ "/" ++
      String.ofList name ++ "." ++ "json" = String.ofList (deepPath name) := by
  rw [← String.toList_inj, String.toList_ofList]
  unfold deepPath
  repeat rw [String.toList_append]
  repeat rw [String.toList_ofList]

theorem readModel_deep (index : Fin 33) :
    readModel deepModels (deepModel index) = .ok (deepWire (deepParent index)) := by
  have hsplit : splitOnce ':' (deepModel index).text.toList =
      some (['d', 'e', 'e', 'p'], deepName index) := by
    unfold deepModel deepText
    rw [String.toList_ofList]
    rfl
  have hpath := resourcePath_of_split (ε := Empty) hsplit (join_deep _) (isResourcePath_deep index)
  have hread : deepModels.readResource
      ⟨String.ofList (deepPath (deepName index)), isResourcePath_deep index⟩ maxJsonBytes =
        .ok (some (deepFile index)) := by
    unfold deepModels
    dsimp only
    rw [String.toList_ofList]
    unfold deepPath
    simp only [List.append_cancel_left_eq, List.append_cancel_right_eq]
    rw [(deepModels_checked index).2.1]
    rfl
  refine Mut.except_bind_eq_ok.mpr ⟨_, hpath, Mut.except_bind_eq_ok.mpr ⟨some (deepFile index), ?_,
    ?_⟩⟩
  · rw [hread]
    rfl
  · dsimp only
    rw [(deepModels_checked index).1]
    rfl

theorem new_text (identifier : MinecraftIdentifier) :
    MinecraftIdentifier.new identifier.text = .ok identifier := by
  unfold MinecraftIdentifier.new
  split
  · rfl
  · rename_i e herror
    cases identifier.valid.symm.trans herror

theorem parseIdentifier_deep (index : Fin 33) :
    parseIdentifier (ε := Empty) (deepText index) = .ok (deepModel index) := by
  have hcolon : (deepText index).toList.contains ':' = true := by
    unfold deepText
    rw [String.toList_ofList]
    rfl
  unfold parseIdentifier
  dsimp only
  rw [if_pos hcolon]
  change (MinecraftIdentifier.new (deepModel index).text).mapError _ = _
  rw [new_text]
  rfl

/-- The chain of each model is the list of those from it on. -/
theorem chain_deep (index : Fin 33) : ∃ links,
    Chain deepModels (deepModel index) links true ∧ links.length = 33 - index.val ∧
      settle (ε := Empty) true links = .ok (bareModel true) ∧
        ∀ other : Fin 33, index ≤ other →
          ∃ wire, links[other.val - index.val]? = some (deepModel other, wire) := by
  induction index using Fin.reverseInduction with
  | last =>
    refine ⟨_, .root (deepModels_checked _).2.2.1 (readModel_deep _) rfl, rfl, rfl,
      fun other hother => ?_⟩
    cases Fin.last_le_iff.mp hother
    exact ⟨_, rfl⟩
  | cast index ih =>
    obtain ⟨links, hlinks, hlength, hsettle, hat⟩ := ih
    have hvalue : deepParent index.castSucc = some (deepText index.succ) :=
      if_neg (Fin.ne_of_lt (Fin.castSucc_lt_last index))
    refine ⟨_, .child (deepModels_checked _).2.2.1 (readModel_deep _) hvalue
      (parseIdentifier_deep _) hlinks, ?_, ?_, fun other hother => ?_⟩
    · rw [List.length_cons, hlength, Fin.val_succ, Fin.val_castSucc]
      omega
    · rw [settle, hsettle]
      rfl
    · rcases Nat.eq_or_lt_of_le (Fin.le_def.mp hother) with heq | hlt
      · cases Fin.ext heq
        rw [Nat.sub_self]
        exact ⟨_, rfl⟩
      · obtain ⟨wire, hwire⟩ := hat other (Fin.le_def.mpr hlt)
        have hindex : other.val - index.castSucc.val = other.val - index.succ.val + 1 := by
          rw [Fin.val_succ, Fin.val_castSucc]
          rw [Fin.val_castSucc] at hlt
          omega
        rw [hindex]
        exact ⟨wire, hwire⟩

/-- A fresh loader refuses the first of the models; one that was asked for the second before does
not. -/
theorem answers_change_past_the_limit :
    ¬ AnswersFresh deepModels (deepModel 0) (after deepModels [deepModel 1]) ∧
      (resolveModel deepModels (deepModel 0) [] .empty).result? =
        some (.error (malformed "model" (deepText 32) "parent cycle or depth limit")) ∧
      (resolveModel deepModels (deepModel 0) [] (after deepModels [deepModel 1])).result? =
        some (.ok (bareModel true)) := by
  obtain ⟨links, hlinks, hlength, hsettle, hat⟩ := chain_deep 0
  obtain ⟨links', hlinks', hlength', hsettle', -⟩ := chain_deep 1
  have hlong : maxModelDepth < links.length := by
    rw [hlength]
    decide
  have hsound := sound_after deepModels [deepModel 1]
  have hkept : (after deepModels [deepModel 1]).lookup (deepModel 1) = some (bareModel true) := by
    rw [after_singleton]
    exact ((hlinks'.goes_at_first sound_empty).ends (room_of_empty.mpr hlength'.le)).kept hsettle'
  have hshort : ∃ link ∈ links.take (maxModelDepth + 1),
      ((after deepModels [deepModel 1]).lookup link.1).isSome := by
    obtain ⟨wire, hwire⟩ := hat 1 (Fin.zero_le _)
    refine ⟨(deepModel 1, wire), ?_, ?_⟩
    · have hall : links.length ≤ maxModelDepth + 1 := hlength.le
      rw [List.take_of_length_le hall]
      exact List.mem_of_getElem? hwire
    · rw [hkept]
      rfl
  refine ⟨not_answersFresh_of_shortcut hsound ⟨links, true, hlinks, hlong, hshort⟩, ?_, ?_⟩
  · obtain ⟨deep, hdeep, hrun⟩ := (hlinks.goes_at_first sound_empty).refused fun hroom =>
      absurd (room_of_empty.mp hroom) (not_le.mpr hlong)
    obtain ⟨wire, hwire⟩ := hat 32 (Fin.zero_le _)
    cases hdeep.symm.trans hwire
    rw [hrun]
    rfl
  · have hroom := (room_iff (Nat.zero_le _)).mpr (Or.inr hshort)
    rw [((hlinks.goes_at_first hsound).ends hroom).result, hsettle]

end Cubic.BlockResources
