import Cubic.BlockResources.Model

/-!
# Inherited models and the models kept

The models that a loader keeps are what their chains of parents amount to, so a kept model stands
for its whole chain; the limit on the depth does not see what it stands for.
-/

namespace Cubic.BlockResources

set_option autoImplicit false

variable {ε Element Transform : Type}

abbrev Link (Element Transform : Type) := MinecraftIdentifier × ModelWire Element Transform

/-! ### Chains -/

/-- The JSON models from an identifier on to the last of its parents, and on which side the model
lights that this one goes on from. -/
inductive Chain (resources : Resources ε Element Transform) :
    MinecraftIdentifier → List (Link Element Transform) → Bool → Prop where
  | builtin {identifier : MinecraftIdentifier} (h : isBuiltin identifier = true) :
      Chain resources identifier [] (identifier.text = "minecraft:builtin/entity")
  | root {identifier : MinecraftIdentifier} {wire : ModelWire Element Transform}
      (hjson : isBuiltin identifier = false) (hwire : readModel resources identifier = .ok wire)
      (hparent : wire.parent = none) : Chain resources identifier [(identifier, wire)] true
  | child {identifier parent : MinecraftIdentifier} {wire : ModelWire Element Transform}
      {value : String} {links : List (Link Element Transform)} {side : Bool}
      (hjson : isBuiltin identifier = false) (hwire : readModel resources identifier = .ok wire)
      (hvalue : wire.parent = some value)
      (hparent : parseIdentifier (ε := ε) value = .ok parent)
      (hlinks : Chain resources parent links side) :
      Chain resources identifier ((identifier, wire) :: links) side

/-- The model of a chain. -/
def settle (side : Bool) : List (Link Element Transform) →
    Except (BlockResourceError (ResourceError ε)) (ResolvedModel Element Transform)
  | [] => .ok (bareModel side)
  | link :: rest => do
    let inherited ← settle side rest
    link.2.over link.1 inherited

section
variable {resources : Resources ε Element Transform} {identifier : MinecraftIdentifier}
  {links links' : List (Link Element Transform)} {side side' : Bool}

/-- An identifier has one chain. -/
theorem Chain.unique (h : Chain resources identifier links side)
    (h' : Chain resources identifier links' side') : links = links' ∧ side = side' := by
  induction h generalizing links' side' with
  | builtin hbuiltin =>
    cases h' with
    | builtin _ => exact ⟨rfl, rfl⟩
    | root hjson _ _ => exact absurd hbuiltin (hjson ▸ Bool.false_ne_true)
    | child hjson _ _ _ _ => exact absurd hbuiltin (hjson ▸ Bool.false_ne_true)
  | root hjson hwire hparent =>
    cases h' with
    | builtin hbuiltin => exact absurd hbuiltin (hjson ▸ Bool.false_ne_true)
    | root _ hwire' _ =>
      cases hwire.symm.trans hwire'
      exact ⟨rfl, rfl⟩
    | child _ hwire' hvalue' _ _ =>
      cases hwire.symm.trans hwire'
      cases hparent.symm.trans hvalue'
  | child hjson hwire hvalue hparent _ ih =>
    cases h' with
    | builtin hbuiltin => exact absurd hbuiltin (hjson ▸ Bool.false_ne_true)
    | root _ hwire' hparent' =>
      cases hwire.symm.trans hwire'
      cases hvalue.symm.trans hparent'
    | child _ hwire' hvalue' hparent' hlinks' =>
      cases hwire.symm.trans hwire'
      cases hvalue.symm.trans hvalue'
      cases hparent.symm.trans hparent'
      obtain ⟨rfl, rfl⟩ := ih hlinks'
      exact ⟨rfl, rfl⟩

/-- Each model of a chain has the rest of it for its own. -/
theorem Chain.rest (h : Chain resources identifier links side) :
    ∀ link ∈ links, ∃ links', Chain resources link.1 links' side ∧ links'.length ≤ links.length := by
  induction h with
  | builtin _ => exact fun _ hlink => absurd hlink List.not_mem_nil
  | root hjson hwire hparent =>
    intro link hlink
    rw [List.mem_singleton.mp hlink]
    exact ⟨_, .root hjson hwire hparent, le_rfl⟩
  | child hjson hwire hvalue hparent hlinks ih =>
    intro link hlink
    rcases List.mem_cons.mp hlink with rfl | hlink
    · exact ⟨_, .child hjson hwire hvalue hparent hlinks, le_rfl⟩
    · obtain ⟨links', h', hlength⟩ := ih link hlink
      exact ⟨links', h', hlength.trans (Nat.le_succ _)⟩

/-- A chain does not come back to a model. -/
theorem Chain.not_mem {wire : ModelWire Element Transform}
    (h : Chain resources identifier ((identifier, wire) :: links) side) :
    ∀ parent, Chain resources parent links side → ∀ link ∈ links, link.1 ≠ identifier := by
  intro parent hparent link hlink heq
  obtain ⟨links', h', hlength⟩ := hparent.rest link hlink
  rw [heq] at h'
  obtain ⟨hsame, -⟩ := h.unique h'
  rw [← hsame, List.length_cons] at hlength
  exact absurd hlength (Nat.not_succ_le_self _)

theorem Chain.nodup (h : Chain resources identifier links side) : (links.map Prod.fst).Nodup := by
  induction h with
  | builtin _ => exact List.nodup_nil
  | root _ _ _ => exact List.pairwise_singleton _ _
  | child hjson hwire hvalue hparent hlinks ih =>
    refine List.nodup_cons.mpr ⟨fun hmem => ?_, ih⟩
    obtain ⟨link, hlink, heq⟩ := List.mem_map.mp hmem
    exact (Chain.child hjson hwire hvalue hparent hlinks).not_mem _ hlinks link hlink heq

end

/-! ### What a chain amounts to -/

/-- Each part of the model comes from the nearest link that has it. -/
structure Inherits (side : Bool) (links : List (Link Element Transform))
    (model : ResolvedModel Element Transform) : Prop where
  textures : ∀ name, model.textures.lookup name =
    links.findSome? fun link => (link.2.textures.lookup name).map TextureWire.intoSprite
  elements : model.elements = (links.findSome? fun link => link.2.elements).getD []
  ambientOcclusion : model.ambientOcclusion =
    (links.findSome? fun link => link.2.ambientocclusion).getD true
  guiTransform : model.guiTransform = links.findSome? fun link => link.2.display.lookup "gui"
  guiLight : model.guiLightSide =
    (links.findSome? fun link => link.2.guiLight.map fun light => light != "front").getD side

def Bounded (wire : ModelWire Element Transform) : Prop :=
  ∀ elements, wire.elements = some elements → elements.length ≤ maxElements

section
variable {side : Bool} {links : List (Link Element Transform)} {identifier : MinecraftIdentifier}
  {wire : ModelWire Element Transform} {inherited model : ResolvedModel Element Transform}

theorem inherits_nil : Inherits side ([] : List (Link Element Transform)) (bareModel side) :=
  ⟨fun _ => rfl, rfl, rfl, rfl, rfl⟩

theorem getD_findSome?_cons {α β : Type} (f : α → Option β) (a : α) (as : List α) (b : β) :
    ((a :: as).findSome? f).getD b = (f a).getD ((as.findSome? f).getD b) := by
  rw [List.findSome?_cons]
  cases f a <;> rfl

theorem Inherits.over (h : Inherits side links inherited)
    (hover : wire.over (ε := ε) identifier inherited = .ok model) :
    Inherits side ((identifier, wire) :: links) model := by
  have htextures (name : String) : ((wire.textures.entries.map fun e => (e.1, e.2.intoSprite)).foldl
      (fun textures e => textures.insert e.1 e.2) inherited.textures).lookup name =
        ((identifier, wire) :: links).findSome? fun link =>
          (link.2.textures.lookup name).map TextureWire.intoSprite := by
    have hkeys : ((wire.textures.entries.map fun e => (e.1, e.2.intoSprite)).map Prod.fst).Nodup := by
      rw [List.map_map]
      exact wire.textures.keys_nodup
    rw [OrderedMap.foldl_insert_lookup hkeys, Entries.lookup_map, h.textures, List.findSome?_cons]
    change ((wire.textures.lookup name).map _).or _ = _
    cases wire.textures.lookup name <;> rfl
  have hambient := h.ambientOcclusion
  have htransform := h.guiTransform
  have hlight := h.guiLight
  unfold ModelWire.over at hover
  dsimp only at hover
  split at hover
  · rename_i elements helements
    split at hover
    · cases hover
    · cases hover
      refine ⟨htextures, ?_, ?_, ?_, ?_⟩
      · rw [getD_findSome?_cons, helements]
        rfl
      · rw [getD_findSome?_cons, ← hambient]
      · rw [List.findSome?_cons, ← htransform]
        cases wire.display.lookup "gui" <;> rfl
      · rw [getD_findSome?_cons, ← hlight]
  · rename_i helements
    cases hover
    refine ⟨htextures, ?_, ?_, ?_, ?_⟩
    · rw [getD_findSome?_cons, helements]
      exact h.elements
    · rw [getD_findSome?_cons, ← hambient]
    · rw [List.findSome?_cons, ← htransform]
      cases wire.display.lookup "gui" <;> rfl
    · rw [getD_findSome?_cons, ← hlight]

theorem settle_inherits (links : List (Link Element Transform)) :
    ∀ {model}, settle (ε := ε) side links = .ok model → Inherits side links model := by
  induction links with
  | nil =>
    intro model h
    cases h
    exact inherits_nil
  | cons link rest ih =>
    intro model h
    obtain ⟨inherited, hinherited, hover⟩ := Mut.except_bind_eq_ok.mp h
    exact (ih hinherited).over hover

/-- A model is refused for its elements only. -/
theorem over_cases (wire : ModelWire Element Transform) (identifier : MinecraftIdentifier)
    (inherited : ResolvedModel Element Transform) :
    Bounded wire ∧ (∃ model, wire.over (ε := ε) identifier inherited = .ok model) ∨
      ¬ Bounded wire ∧ wire.over (ε := ε) identifier inherited =
        .error (malformed "model" identifier.text "too many elements") := by
  unfold ModelWire.over
  dsimp only
  cases helements : wire.elements with
  | none =>
    refine Or.inl ⟨fun elements h => ?_, _, rfl⟩
    rw [helements] at h
    cases h
  | some elements =>
    by_cases hlength : maxElements < elements.length
    · refine Or.inr ⟨fun h => ?_, if_pos hlength⟩
      exact absurd (h elements helements) (not_le.mpr hlength)
    · refine Or.inl ⟨fun other h => ?_, _, if_neg hlength⟩
      cases helements.symm.trans h
      exact not_lt.mp hlength

variable (side) in
theorem settle_cases (links : List (Link Element Transform)) :
    (∀ link ∈ links, Bounded link.2) ∧ (∃ model, settle (ε := ε) side links = .ok model) ∨
      (¬ ∀ link ∈ links, Bounded link.2) ∧ ∃ identifier : MinecraftIdentifier,
        settle (ε := ε) side links =
          .error (malformed "model" identifier.text "too many elements") := by
  induction links with
  | nil => exact Or.inl ⟨fun _ hlink => absurd hlink List.not_mem_nil, _, rfl⟩
  | cons link rest ih =>
    rcases ih with ⟨hrest, inherited, hok⟩ | ⟨hrest, failed, herror⟩
    · rw [List.forall_mem_cons, settle, hok]
      change _ ∧ (∃ model, link.2.over link.1 inherited = .ok model) ∨ _
      rcases over_cases (ε := ε) link.2 link.1 inherited with ⟨hbounded, hover⟩ | ⟨hbounded, hover⟩
      · exact Or.inl ⟨⟨hbounded, hrest⟩, hover⟩
      · exact Or.inr ⟨fun h => hbounded h.1, link.1, hover⟩
    · refine Or.inr ⟨fun h => hrest (List.forall_mem_cons.mp h).2, failed, ?_⟩
      rw [settle, herror]
      rfl

end

/-! ### Models that are kept -/

/-- Each model kept is that of its chain. -/
def Sound (resources : Resources ε Element Transform)
    (models : ResolvedModels Element Transform) : Prop :=
  ∀ identifier model, models.lookup identifier = some model →
    ∃ links side, Chain resources identifier links side ∧ settle (ε := ε) side links = .ok model

/-- From so many calls deep on, the limit is not met before a model that is kept. -/
def Room (models : ResolvedModels Element Transform) : Nat → List (Link Element Transform) → Prop
  | _, [] => True
  | depth, link :: rest =>
    (models.lookup link.1).isSome ∨ depth < maxModelDepth ∧ Room models (depth + 1) rest

section
variable {resources : Resources ε Element Transform} {identifier : MinecraftIdentifier}
  {stack : List MinecraftIdentifier} {models : ResolvedModels Element Transform}
  {links : List (Link Element Transform)} {side : Bool} {model : ResolvedModel Element Transform}

theorem sound_empty : Sound resources .empty := by
  intro identifier model h
  cases h

theorem Sound.insert (h : Sound resources models) (hchain : Chain resources identifier links side)
    (hmodel : settle (ε := ε) side links = .ok model) :
    Sound resources (models.insert identifier model) := by
  intro other found hfound
  rw [OrderedMap.lookup_insert] at hfound
  split at hfound
  · rename_i heq
    cases hfound
    exact heq ▸ ⟨links, side, hchain, hmodel⟩
  · exact h other found hfound

theorem Sound.settle_eq (h : Sound resources models) (hchain : Chain resources identifier links side)
    (hmodel : models.lookup identifier = some model) : settle (ε := ε) side links = .ok model := by
  obtain ⟨links', side', hchain', hsettle⟩ := h identifier model hmodel
  obtain ⟨rfl, rfl⟩ := hchain.unique hchain'
  exact hsettle

/-! The branches of `resolve_model`. -/

theorem resolveModel_kept (h : models.lookup identifier = some model) :
    resolveModel resources identifier stack models = .ok model models := by
  rw [resolveModel, Mut.get_bind, h]
  rfl

theorem resolveModel_builtin (hnone : models.lookup identifier = none)
    (h : isBuiltin identifier = true) :
    resolveModel resources identifier stack models =
      .ok (bareModel (identifier.text = "minecraft:builtin/entity"))
        (models.insert identifier (bareModel (identifier.text = "minecraft:builtin/entity"))) := by
  rw [resolveModel, Mut.get_bind, hnone]
  dsimp only
  rw [if_pos h]
  rfl

theorem resolveModel_refused (hnone : models.lookup identifier = none)
    (hjson : isBuiltin identifier = false) (h : maxModelDepth ≤ stack.length ∨ identifier ∈ stack) :
    resolveModel resources identifier stack models =
      .err (malformed "model" identifier.text "parent cycle or depth limit") models := by
  rw [resolveModel, Mut.get_bind, hnone]
  dsimp only
  rw [if_neg (hjson ▸ Bool.false_ne_true), dif_pos h]
  rfl

theorem resolveModel_unread (hnone : models.lookup identifier = none)
    (hjson : isBuiltin identifier = false)
    (hroom : ¬ (maxModelDepth ≤ stack.length ∨ identifier ∈ stack))
    {error : BlockResourceError (ResourceError ε)}
    (hread : readModel resources identifier = .error error) :
    resolveModel resources identifier stack models = .err error models := by
  rw [resolveModel, Mut.get_bind, hnone]
  dsimp only
  rw [if_neg (hjson ▸ Bool.false_ne_true), dif_neg hroom, hread]
  rfl

/-- A model over the one that it goes on from. -/
def finish (wire : ModelWire Element Transform) (identifier : MinecraftIdentifier)
    (inherited : ResolvedModel Element Transform) :
    Loading ε Element Transform (ResolvedModel Element Transform) := do
  let resolved ← Mut.ofExcept (wire.over identifier inherited)
  Mut.modify fun models => models.insert identifier resolved
  pure resolved

theorem resolveModel_read (hnone : models.lookup identifier = none)
    (hjson : isBuiltin identifier = false)
    (hroom : ¬ (maxModelDepth ≤ stack.length ∨ identifier ∈ stack))
    {wire : ModelWire Element Transform} (hread : readModel resources identifier = .ok wire) :
    resolveModel resources identifier stack models =
      (inheritFrom wire (fun parent => resolveModel resources parent (stack ++ [identifier])) >>=
        finish wire identifier) models := by
  rw [resolveModel, Mut.get_bind, hnone]
  dsimp only
  rw [if_neg (hjson ▸ Bool.false_ne_true), dif_neg hroom, hread]
  rfl

/-! ### How a call ends -/

variable (resources identifier links side) in
/-- The call ends with the model of the chain, which is then kept, or with its error. -/
def Ends (outcome : Outcome (BlockResourceError (ResourceError ε))
    (ResolvedModels Element Transform) (ResolvedModel Element Transform)) : Prop :=
  ∃ models', Sound resources models' ∧
    (∀ model, settle (ε := ε) side links = .ok model → models'.lookup identifier = some model) ∧
      outcome = Mut.ofExcept (settle side links) models'

theorem ends_kept (h : Sound resources models) (hchain : Chain resources identifier links side)
    (hmodel : models.lookup identifier = some model) :
    Ends resources identifier links side (resolveModel resources identifier stack models) := by
  have hsettle := h.settle_eq hchain hmodel
  refine ⟨models, h, fun other hother => ?_, ?_⟩
  · cases hsettle.symm.trans hother
    exact hmodel
  · rw [resolveModel_kept hmodel, hsettle]
    rfl

theorem ends_finish (h : Sound resources models) {wire : ModelWire Element Transform}
    (hchain : Chain resources identifier ((identifier, wire) :: links) side)
    {inherited : ResolvedModel Element Transform}
    (hinherited : settle (ε := ε) side links = .ok inherited) :
    Ends resources identifier ((identifier, wire) :: links) side
      (finish wire identifier inherited models) := by
  have hsettle : settle (ε := ε) side ((identifier, wire) :: links) =
      wire.over identifier inherited := by
    rw [settle, hinherited]
    rfl
  unfold finish
  cases hover : wire.over (ε := ε) identifier inherited with
  | error e =>
    rw [hover] at hsettle
    refine ⟨models, h, fun model hmodel => ?_, ?_⟩
    · cases hsettle.symm.trans hmodel
    · rw [hsettle]
      rfl
  | ok resolved =>
    rw [hover] at hsettle
    refine ⟨models.insert identifier resolved, h.insert hchain hsettle, fun model hmodel => ?_, ?_⟩
    · cases hsettle.symm.trans hmodel
      rw [OrderedMap.lookup_insert, if_pos rfl]
    · rw [hsettle]
      rfl

variable (resources identifier stack models links side) in
/-- A call gets through to the end of the chain, or to a model that is kept, or is refused where the
stack is full. -/
structure Goes : Prop where
  ends : Room models stack.length links →
    Ends resources identifier links side (resolveModel resources identifier stack models)
  refused : ¬ Room models stack.length links →
    ∃ deep, links[maxModelDepth - stack.length]? = some deep ∧
      resolveModel resources identifier stack models =
        .err (malformed "model" deep.1.text "parent cycle or depth limit") models

/-- It is enough to look at a call that reads the first model. -/
theorem goes_of_read {wire : ModelWire Element Transform} (h : Sound resources models)
    (hjson : isBuiltin identifier = false)
    (hchain : Chain resources identifier ((identifier, wire) :: links) side)
    (hread : models.lookup identifier = none → stack.length < maxModelDepth →
      (Room models (stack.length + 1) links → Ends resources identifier ((identifier, wire) :: links)
        side (resolveModel resources identifier stack models)) ∧
      (¬ Room models (stack.length + 1) links →
        ∃ deep, links[maxModelDepth - (stack.length + 1)]? = some deep ∧
          resolveModel resources identifier stack models =
            .err (malformed "model" deep.1.text "parent cycle or depth limit") models)) :
    Goes resources identifier stack models ((identifier, wire) :: links) side := by
  cases hlookup : models.lookup identifier with
  | some model =>
    refine ⟨fun _ => ends_kept h hchain hlookup, fun hroom => absurd (Or.inl ?_) hroom⟩
    rw [hlookup]
    rfl
  | none =>
    have hnot : ¬ (models.lookup identifier).isSome := by
      rw [hlookup]
      exact Bool.false_ne_true
    by_cases hdepth : maxModelDepth ≤ stack.length
    · refine ⟨fun hroom => ?_, fun _ => ⟨(identifier, wire), ?_, ?_⟩⟩
      · rcases hroom with hkept | ⟨hlt, -⟩
        · exact absurd hkept hnot
        · exact absurd hlt (not_lt.mpr hdepth)
      · rw [Nat.sub_eq_zero_of_le hdepth]
        rfl
      · exact resolveModel_refused hlookup hjson (Or.inl hdepth)
    · have hlt := not_le.mp hdepth
      obtain ⟨hends, hrefused⟩ := hread hlookup hlt
      refine ⟨fun hroom => ?_, fun hroom => ?_⟩
      · rcases hroom with hkept | ⟨-, hroom⟩
        · exact absurd hkept hnot
        · exact hends hroom
      · obtain ⟨deep, hdeep, hrun⟩ := hrefused fun hrest => hroom (Or.inr ⟨hlt, hrest⟩)
        refine ⟨deep, ?_, hrun⟩
        have hindex : maxModelDepth - stack.length = maxModelDepth - (stack.length + 1) + 1 := by
          omega
        rw [hindex, List.getElem?_cons_succ]
        exact hdeep

theorem Chain.goes (hchain : Chain resources identifier links side) :
    ∀ {stack : List MinecraftIdentifier} {models : ResolvedModels Element Transform},
      Sound resources models → (∀ link ∈ links, link.1 ∉ stack) →
        Goes resources identifier stack models links side := by
  induction hchain with
  | @builtin identifier hbuiltin =>
    intro stack models hsound _
    refine ⟨fun _ => ?_, fun hroom => absurd trivial hroom⟩
    cases hlookup : models.lookup identifier with
    | some model => exact ends_kept hsound (.builtin hbuiltin) hlookup
    | none =>
      rw [resolveModel_builtin hlookup hbuiltin]
      refine ⟨_, hsound.insert (.builtin hbuiltin) rfl, fun model hmodel => ?_, rfl⟩
      cases hmodel
      rw [OrderedMap.lookup_insert, if_pos rfl]
  | @root identifier wire hjson hwire hparent =>
    intro stack models hsound hstack
    have hchain := Chain.root hjson hwire hparent
    have hnew := hstack _ List.mem_cons_self
    refine goes_of_read hsound hjson hchain fun hlookup hlt => ?_
    refine ⟨fun _ => ?_, fun hroom => absurd trivial hroom⟩
    rw [resolveModel_read hlookup hjson (not_or.mpr ⟨not_le.mpr hlt, hnew⟩) hwire, inheritFrom,
      hparent]
    exact ends_finish hsound hchain rfl
  | @child identifier parent wire value links side hjson hwire hvalue hparent hlinks ih =>
    intro stack models hsound hstack
    have hchain := Chain.child hjson hwire hvalue hparent hlinks
    have hnew := hstack _ List.mem_cons_self
    refine goes_of_read hsound hjson hchain fun hlookup hlt => ?_
    have hrest : ∀ link ∈ links, link.1 ∉ stack ++ [identifier] := by
      intro link hlink hmem
      rcases List.mem_append.mp hmem with hmem | hmem
      · exact hstack link (List.mem_cons_of_mem _ hlink) hmem
      · exact hchain.not_mem parent hlinks link hlink (List.mem_singleton.mp hmem)
    have hcall : resolveModel resources identifier stack models =
        (resolveModel resources parent (stack ++ [identifier]) >>= finish wire identifier)
          models := by
      rw [resolveModel_read hlookup hjson (not_or.mpr ⟨not_le.mpr hlt, hnew⟩) hwire, inheritFrom,
        hvalue]
      dsimp only
      rw [hparent]
      rfl
    have hlength : (stack ++ [identifier]).length = stack.length + 1 := by
      rw [List.length_append, List.length_singleton]
    obtain ⟨hends, hrefused⟩ := ih hsound hrest
    rw [hlength] at hends hrefused
    refine ⟨fun hroom => ?_, fun hroom => ?_⟩
    · obtain ⟨models', hsound', _, hrun⟩ := hends hroom
      rw [hcall]
      cases hsettle : settle (ε := ε) side links with
      | error e =>
        rw [hsettle] at hrun
        have hwhole : settle (ε := ε) side ((identifier, wire) :: links) = .error e := by
          rw [settle, hsettle]
          rfl
        refine ⟨models', hsound', fun model hmodel => ?_, ?_⟩
        · cases hwhole.symm.trans hmodel
        · rw [Mut.bind_of_err hrun, hwhole]
          rfl
      | ok inherited =>
        rw [hsettle] at hrun
        rw [Mut.bind_of_ok hrun]
        exact ends_finish hsound' hchain hsettle
    · obtain ⟨deep, hdeep, hrun⟩ := hrefused hroom
      exact ⟨deep, hdeep, by rw [hcall, Mut.bind_of_err hrun]⟩

theorem not_kept (h : Sound resources models)
    (hnone : ∀ links side, ¬ Chain resources identifier links side) :
    models.lookup identifier = none := by
  cases hlookup : models.lookup identifier with
  | none => rfl
  | some model =>
    obtain ⟨links, side, hchain, -⟩ := h identifier model hlookup
    exact absurd hchain (hnone links side)

theorem not_builtin (hnone : ∀ links side, ¬ Chain resources identifier links side) :
    isBuiltin identifier = false :=
  Bool.eq_false_iff.mpr fun h => hnone _ _ (.builtin h)

variable (resources) in
/-- Where there is no chain, the call fails alike whatever models are kept. -/
theorem resolveModel_of_no_chain (room : Nat) :
    ∀ {identifier : MinecraftIdentifier} (stack : List MinecraftIdentifier),
      maxModelDepth - stack.length = room →
      (∀ links side, ¬ Chain resources identifier links side) →
      ∃ error, ∀ models, Sound resources models →
        resolveModel resources identifier stack models = .err error models := by
  induction room with
  | zero =>
    intro identifier stack hroom hnone
    have hdepth := Nat.sub_eq_zero_iff_le.mp hroom
    exact ⟨_, fun models hsound =>
      resolveModel_refused (not_kept hsound hnone) (not_builtin hnone) (Or.inl hdepth)⟩
  | succ room ih =>
    intro identifier stack hroom hnone
    have hjson := not_builtin hnone
    by_cases hguard : maxModelDepth ≤ stack.length ∨ identifier ∈ stack
    · exact ⟨_, fun models hsound => resolveModel_refused (not_kept hsound hnone) hjson hguard⟩
    · cases hread : readModel resources identifier with
      | error e => exact ⟨e, fun models hsound =>
          resolveModel_unread (not_kept hsound hnone) hjson hguard hread⟩
      | ok wire =>
        cases hvalue : wire.parent with
        | none => exact absurd (.root hjson hread hvalue) (hnone _ _)
        | some value =>
          cases hparent : parseIdentifier (ε := ε) value with
          | error e =>
            refine ⟨e, fun models hsound => ?_⟩
            rw [resolveModel_read (not_kept hsound hnone) hjson hguard hread, inheritFrom, hvalue]
            dsimp only
            rw [hparent]
            rfl
          | ok parent =>
            have hlength : maxModelDepth - (stack ++ [identifier]).length = room := by
              rw [List.length_append, List.length_singleton]
              omega
            obtain ⟨e, hparentFails⟩ := ih _ hlength fun links side hlinks =>
              hnone _ _ (.child hjson hread hvalue hparent hlinks)
            refine ⟨e, fun models hsound => ?_⟩
            rw [resolveModel_read (not_kept hsound hnone) hjson hguard hread, inheritFrom, hvalue]
            dsimp only
            rw [hparent]
            exact Mut.bind_of_err (hparentFails models hsound)

end

end Cubic.BlockResources
