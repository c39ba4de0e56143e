import Cubic.Schema.ProtoDef
import Mathlib.Data.Finset.Card
import Mathlib.Data.Finset.Dedup
import Mathlib.Logic.Relation

/-!
# Resolving ProtoDef types

Each name that is expanded is active until its expansion ends, so no more names are expanded within
one another than there are, and between two of them the calls nest no deeper than the expressions.
-/

namespace Cubic.Schema

set_option autoImplicit false

/-! ### How deep an expression is -/

mutual
def StrictJson.depth : StrictJson → Nat
  | .array values => depthOfValues values + 1
  | .object entries => depthOfEntries entries + 1
  | _ => 1

def depthOfValues : List StrictJson → Nat
  | [] => 0
  | value :: rest => max value.depth (depthOfValues rest)

def depthOfEntries : List (String × StrictJson) → Nat
  | [] => 0
  | entry :: rest => max entry.2.depth (depthOfEntries rest)
end

theorem StrictJson.depth_pos (value : StrictJson) : 0 < value.depth := by
  cases value with
  | array values => exact Nat.succ_pos _
  | object entries => exact Nat.succ_pos _
  | _ => exact Nat.one_pos

theorem depth_le_depthOfValues {value : StrictJson} {values : List StrictJson}
    (h : value ∈ values) : value.depth ≤ depthOfValues values := by
  induction values with
  | nil => exact absurd h List.not_mem_nil
  | cons first rest ih =>
    rcases List.mem_cons.mp h with rfl | h
    · exact le_max_left _ _
    · exact (ih h).trans (le_max_right _ _)

theorem depth_le_depthOfEntries {key : String} {value : StrictJson} {entries : JsonEntries}
    (h : Entries.lookup key entries = some value) : value.depth ≤ depthOfEntries entries := by
  have hmem := Entries.mem_of_lookup h
  clear h
  induction entries with
  | nil => exact absurd hmem List.not_mem_nil
  | cons first rest ih =>
    rcases List.mem_cons.mp hmem with rfl | h
    · exact le_max_left _ _
    · exact (ih h).trans (le_max_right _ _)

/-! ### How many names are left -/

section
variable (types : TypeMaps)

def TypeMaps.names : Finset String :=
  (types.localTypes.keys ++ types.globalTypes.keys).toFinset

/-- The deepest definition. -/
def TypeMaps.depth : Nat :=
  depthOfValues (types.localTypes.values ++ types.globalTypes.values)

/-- The number of names with a definition that are not active. -/
def room (active : OrderedSet String) : Nat :=
  (types.names.filter fun name => (active.lookup name).isNone).card

/-- How deep calls of `codec` nest at most. -/
def depthBound (value : StrictJson) (active : OrderedSet String) : Nat :=
  value.depth + room types active * (types.depth + 1)

end

section
variable {types : TypeMaps} {active : OrderedSet String} {name : String} {definition : StrictJson}

theorem mem_names (h : types.get name = some definition) : name ∈ types.names := by
  unfold TypeMaps.names
  rw [List.mem_toFinset, List.mem_append, OrderedMap.mem_keys_iff, OrderedMap.mem_keys_iff]
  rcases Option.or_eq_some_iff.mp h with h | ⟨-, h⟩
  · exact Or.inl (h ▸ rfl)
  · exact Or.inr (h ▸ rfl)

theorem definition_depth_le (h : types.get name = some definition) :
    definition.depth ≤ types.depth := by
  apply depth_le_depthOfValues
  rw [List.mem_append]
  rcases Option.or_eq_some_iff.mp h with h | ⟨-, h⟩
  · exact Or.inl (OrderedMap.mem_values_of_lookup h)
  · exact Or.inr (OrderedMap.mem_values_of_lookup h)

/-- A name that becomes active is one less to go. -/
theorem room_insert (h : types.get name = some definition) (hname : active.lookup name = none) :
    room types (active.insert name ()) + 1 ≤ room types active := by
  apply Finset.card_lt_card
  refine Finset.ssubset_iff_of_subset ?_ |>.mpr ⟨name, ?_, ?_⟩
  · intro other hother
    obtain ⟨hmem, hnone⟩ := Finset.mem_filter.mp hother
    refine Finset.mem_filter.mpr ⟨hmem, ?_⟩
    rw [OrderedMap.lookup_insert] at hnone
    split at hnone
    · cases hnone
    · exact hnone
  · exact Finset.mem_filter.mpr ⟨mem_names h, hname ▸ rfl⟩
  · intro hmem
    have hnone := (Finset.mem_filter.mp hmem).2
    rw [OrderedMap.lookup_insert, if_pos rfl] at hnone
    cases hnone

theorem depthBound_definition (h : types.get name = some definition)
    (hname : active.lookup name = none) :
    depthBound types definition (active.insert name ()) <
      depthBound types (.string name) active := by
  have hroom := Nat.mul_le_mul_right (types.depth + 1) (room_insert h hname)
  have hdepth := definition_depth_le h
  have hpos := (StrictJson.string name).depth_pos
  unfold depthBound
  rw [Nat.add_mul, Nat.one_mul] at hroom
  omega

end

/-! ### What a call leaves -/

section
variable (types : TypeMaps)

/-- An error leaves the set as it was, or with the one name that has no definition. -/
def Leaves (active left : OrderedSet String) : Prop :=
  left = active ∨ ∃ name, types.get name = none ∧ left = active.insert name ()

/-- How a call ends that begins with these active names and has room for so many. -/
def Returned {α : Type} (depth bound : Nat) (active : OrderedSet String) :
    Post UnsupportedLayoutReason (OrderedSet String) α :=
  ⟨fun _ left => left = active, fun _ left => Leaves types active left, depth < bound⟩

/-- The calls that are nested end so. -/
def Resolves (resolve : StrictJson → Resolving FieldCodec) (depth : Nat) : Prop :=
  ∀ value active, Mut.wp (resolve value) (Returned types depth (depthBound types value active) active)
    active

end

section
variable {types : TypeMaps} {resolve : StrictJson → Resolving FieldCodec} {depth bound : Nat}
  {active : OrderedSet String} {α β : Type}

theorem Leaves.refl : Leaves types active active := Or.inl rfl

/-- What does not touch the names comes before the rest. -/
theorem returned_ofExcept {r : Except UnsupportedLayoutReason α} {f : α → Resolving β}
    (h : ∀ a, r = .ok a → Mut.wp (f a) (Returned types depth bound active) active) :
    Mut.wp (Mut.ofExcept r >>= f) (Returned types depth bound active) active := by
  cases r with
  | error e => exact Leaves.refl
  | ok a => exact h a rfl

theorem returned_okOr {o : Option α} {e : UnsupportedLayoutReason} {f : α → Resolving β}
    (h : ∀ a, o = some a → Mut.wp (f a) (Returned types depth bound active) active) :
    Mut.wp (Mut.okOr o e >>= f) (Returned types depth bound active) active := by
  cases o with
  | none => exact Leaves.refl
  | some a => exact h a rfl

/-- A nested call comes before the rest. -/
theorem Resolves.returned (h : Resolves types resolve depth) {value : StrictJson}
    (hbound : depthBound types value active ≤ bound) {f : FieldCodec → Resolving β}
    (hf : ∀ codec, Mut.wp (f codec) (Returned types depth bound active) active) :
    Mut.wp (resolve value >>= f) (Returned types depth bound active) active := by
  refine Mut.wp_seq (h value active) ?_ (fun _ _ => id) fun hdepth => hdepth.trans_le hbound
  intro codec left hleft
  rw [hleft]
  exact hf codec

theorem fieldsFrom_returned (h : Resolves types resolve depth) (values : List StrictJson) :
    ∀ (names : OrderedSet String) (fields : List PacketField),
      depthOfValues values + room types active * (types.depth + 1) ≤ bound →
      Mut.wp (fieldsFrom resolve values names fields) (Returned types depth bound active) active := by
  induction values with
  | nil => exact fun _ _ _ => rfl
  | cons value rest ih =>
    intro names fields hbound
    have hvalue : value.depth ≤ depthOfValues (value :: rest) := le_max_left _ _
    have hrest : depthOfValues rest ≤ depthOfValues (value :: rest) := le_max_right _ _
    unfold fieldsFrom
    refine returned_ofExcept fun object hobject => ?_
    refine returned_okOr fun rawName _ => ?_
    refine returned_ofExcept fun name _ => ?_
    split
    · exact Leaves.refl
    · refine returned_okOr fun type htype => ?_
      have hdepth : type.depth < value.depth := by
        cases value with
        | object entries =>
          cases hobject
          exact Nat.lt_succ_of_le (depth_le_depthOfEntries htype)
        | _ => cases hobject
      refine h.returned ?_ fun codec => ih _ _ (by omega)
      unfold depthBound
      omega

end

section
variable {types : TypeMaps} {resolve : StrictJson → Resolving FieldCodec} {depth bound : Nat}
  {active : OrderedSet String} {payload : StrictJson}

theorem containerCodec_returned (h : Resolves types resolve depth)
    (hbound : payload.depth + room types active * (types.depth + 1) ≤ bound) :
    Mut.wp (containerCodec resolve payload) (Returned types depth bound active) active := by
  unfold containerCodec
  refine returned_ofExcept fun values hvalues => ?_
  cases payload with
  | array inner =>
    cases hvalues
    have hinner : depthOfValues values < (StrictJson.array values).depth := Nat.lt_succ_self _
    have hfields : Mut.wp (fieldsFrom resolve values .empty []) (Returned types depth bound active)
        active := fieldsFrom_returned h values _ _ (by omega)
    exact Mut.wp_seq hfields (fun _ _ => id) (fun _ _ => id) id
  | _ => cases hvalues

theorem optionCodec_returned (h : Resolves types resolve depth)
    (hbound : payload.depth + room types active * (types.depth + 1) ≤ bound) :
    Mut.wp (optionCodec resolve payload) (Returned types depth bound active) active :=
  h.returned hbound fun _ => rfl

theorem arrayCodec_returned (h : Resolves types resolve depth)
    (hbound : payload.depth + room types active * (types.depth + 1) ≤ bound) :
    Mut.wp (arrayCodec resolve payload) (Returned types depth bound active) active := by
  unfold arrayCodec
  refine returned_ofExcept fun options hoptions => ?_
  split
  · exact Leaves.refl
  · refine returned_okOr fun element helement => ?_
    have hdepth : element.depth < payload.depth := by
      cases payload with
      | object entries =>
        cases hoptions
        exact Nat.lt_succ_of_le (depth_le_depthOfEntries helement)
      | _ => cases hoptions
    refine h.returned ?_ fun _ => rfl
    unfold depthBound
    omega

theorem orUnsupported_eq_ok {α : Type} {o : Option α} {reason : UnsupportedLayoutReason} {a : α} :
    orUnsupported o reason = .ok a ↔ o = some a := by
  cases o with
  | none =>
    change Except.error reason = _ ↔ _
    simp
  | some b =>
    change Except.ok b = _ ↔ _
    simp

theorem switchCase_eq_ok {cases : JsonEntries} {equals : Bool} {value : StrictJson}
    (h : switchCase cases = .ok (equals, value)) :
    Entries.lookup (if equals then "true" else "false") cases = some value := by
  unfold switchCase at h
  split at h
  · rename_i htrue hfalse
    cases h
    exact htrue
  · rename_i htrue hfalse
    cases h
    exact hfalse
  · rename_i htrue hfalse
    split at h
    · cases h
      exact htrue
    · split at h
      · cases h
        exact hfalse
      · cases h
  · cases h

/-- The case of a switch lies in its fields. -/
theorem switchOptions_depth {field : String} {equals : Bool} {value : StrictJson}
    (h : switchOptions payload = .ok (field, equals, value)) : value.depth < payload.depth := by
  obtain ⟨options, hoptions, h⟩ := Mut.except_bind_eq_ok.mp h
  split at h
  · cases h
  · obtain ⟨compared, _, h⟩ := Mut.except_bind_eq_ok.mp h
    obtain ⟨name, _, h⟩ := Mut.except_bind_eq_ok.mp h
    obtain ⟨fields, hfields, h⟩ := Mut.except_bind_eq_ok.mp h
    obtain ⟨cases, hcases, h⟩ := Mut.except_bind_eq_ok.mp h
    obtain ⟨chosen, hchosen, h⟩ := Mut.except_bind_eq_ok.mp h
    cases h
    have hvalue := depth_le_depthOfEntries (switchCase_eq_ok hchosen)
    cases payload with
    | object entries =>
      cases hoptions
      have hlookup := depth_le_depthOfEntries (orUnsupported_eq_ok.mp hfields)
      cases fields with
      | object inner =>
        cases hcases
        change depthOfEntries _ + 1 ≤ _ at hlookup
        change _ < depthOfEntries _ + 1
        omega
      | _ => cases hcases
    | _ => cases hoptions

theorem switchCodec_returned (h : Resolves types resolve depth)
    (hbound : payload.depth + room types active * (types.depth + 1) ≤ bound) :
    Mut.wp (switchCodec resolve payload) (Returned types depth bound active) active := by
  unfold switchCodec
  refine returned_ofExcept fun r hr => ?_
  obtain ⟨field, equals, value⟩ := r
  have hdepth := switchOptions_depth hr
  refine h.returned ?_ fun _ => rfl
  unfold depthBound
  omega

theorem insert_remove {name : String} (hname : active.lookup name = none) :
    (active.insert name ()).remove name = active := by
  apply OrderedMap.ext_lookup
  intro other
  rw [OrderedMap.lookup_remove, OrderedMap.lookup_insert]
  split
  · rename_i heq
    rw [heq, hname]
  · rfl

theorem insert_insert_remove {name other : String} (hname : active.lookup name = none)
    (hne : other ≠ name) :
    ((active.insert name ()).insert other ()).remove name = active.insert other () := by
  apply OrderedMap.ext_lookup
  intro k
  rw [OrderedMap.lookup_remove, OrderedMap.lookup_insert, OrderedMap.lookup_insert,
    OrderedMap.lookup_insert]
  by_cases hk : k = name
  · subst hk
    rw [if_pos rfl, if_neg hne.symm, hname]
  · rw [if_neg hk, if_neg hk]

theorem namedCodec_returned (h : Resolves types resolve depth) (name : String) :
    Mut.wp (namedCodec types resolve name)
      (Returned types (depth + 1) (depthBound types (.string name) active) active) active := by
  unfold namedCodec
  split
  · exact Leaves.refl
  · split
    · rfl
    · rw [Mut.wp_bind, Mut.wp_get]
      dsimp only
      split
      · exact Leaves.refl
      · rename_i hactive
        have hname := Option.not_isSome_iff_eq_none.mp hactive
        rw [Mut.wp_bind, Mut.wp_set]
        dsimp only
        cases hget : types.get name with
        | none => exact Or.inr ⟨name, hget, rfl⟩
        | some definition =>
          have hbound := depthBound_definition hget hname
          change Mut.wp (Mut.attempt (resolve definition) >>= _) _ _
          rw [Mut.wp_bind, Mut.wp_attempt]
          refine Mut.wp_mono (h definition _) ?_ ?_ fun hdepth => ?_
          · intro codec left hleft
            change left = active.insert name () at hleft
            change left.remove name = active
            rw [hleft, insert_remove hname]
          · intro reason left hleft
            change Leaves types active (left.remove name)
            rcases hleft with hleft | ⟨other, hother, hleft⟩
            · rw [hleft, insert_remove hname]
              exact Leaves.refl
            · have hne : other ≠ name := by
                intro heq
                rw [heq, hget] at hother
                cases hother
              rw [hleft, insert_insert_remove hname hne]
              exact Or.inr ⟨other, hother, rfl⟩
          · change depth < depthBound types definition _ at hdepth
            change depth + 1 < depthBound types (.string name) active
            omega

/-- The parts of a tagged codec are within it. -/
theorem taggedParts_depth {value : StrictJson} {tag : String}
    (h : taggedParts value = .ok (tag, payload)) : payload.depth < value.depth := by
  unfold taggedParts at h
  split at h
  · obtain ⟨text, _, h⟩ := Mut.except_bind_eq_ok.mp h
    cases h
    exact Nat.lt_succ_of_le (depth_le_depthOfValues (List.mem_cons_of_mem _ List.mem_cons_self))
  · cases h
  · cases h

theorem taggedCodec_returned (h : Resolves types resolve depth) (tag : String)
    (hbound : payload.depth + room types active * (types.depth + 1) ≤ bound) :
    Mut.wp (taggedCodec resolve tag payload) (Returned types depth bound active) active := by
  have hpure {r : Except UnsupportedLayoutReason FieldCodec} :
      Mut.wp (Mut.ofExcept r) (Returned types depth bound active) active := by
    cases r with
    | error e => exact Leaves.refl
    | ok a => rfl
  unfold taggedCodec
  split
  · exact containerCodec_returned h hbound
  · split
    · exact optionCodec_returned h hbound
    · split
      · exact arrayCodec_returned h hbound
      · split
        · exact hpure
        · split
          · exact hpure
          · split
            · exact switchCodec_returned h hbound
            · exact Leaves.refl

theorem codecStep_resolves (h : Resolves types resolve depth) :
    Resolves types (codecStep types resolve) (depth + 1) := by
  intro value active
  unfold codecStep
  cases hvalue : value.asStr with
  | some name =>
    cases value with
    | string text =>
      cases hvalue
      exact namedCodec_returned h name
    | _ => cases hvalue
  | none =>
    refine returned_ofExcept fun parts hparts => ?_
    obtain ⟨tag, payload⟩ := parts
    have hdepth := taggedParts_depth hparts
    refine Mut.wp_mono (taggedCodec_returned h tag le_rfl) (fun _ _ => id) (fun _ _ => id) ?_
    intro hpanic
    change depth < payload.depth + room types active * (types.depth + 1) at hpanic
    change depth + 1 < value.depth + room types active * (types.depth + 1)
    omega

theorem codec_resolves (types : TypeMaps) (depth : Nat) : Resolves types (codec types depth) depth := by
  induction depth with
  | zero =>
    intro value active
    exact Nat.lt_of_lt_of_le value.depth_pos (Nat.le_add_right _ _)
  | succ depth ih => exact codecStep_resolves ih

end

/-! ### More room -/

section
variable {types : TypeMaps} {resolve resolve' : StrictJson → Resolving FieldCodec}

theorem fieldsFrom_below (h : ∀ value, Mut.Below (resolve value) (resolve' value))
    (values : List StrictJson) : ∀ (names : OrderedSet String) (fields : List PacketField),
      Mut.Below (fieldsFrom resolve values names fields)
        (fieldsFrom resolve' values names fields) := by
  induction values with
  | nil => exact fun _ _ => Mut.Below.refl _
  | cons value rest ih =>
    intro names fields
    unfold fieldsFrom
    refine Mut.below_bind fun object => Mut.below_bind fun rawName => Mut.below_bind fun name => ?_
    split
    · exact Mut.Below.refl _
    · exact Mut.below_bind fun type => (h type).bind fun codec => ih _ _

theorem namedCodec_below (h : ∀ value, Mut.Below (resolve value) (resolve' value)) (name : String) :
    Mut.Below (namedCodec types resolve name) (namedCodec types resolve' name) := by
  unfold namedCodec
  split
  · exact Mut.Below.refl _
  · split
    · exact Mut.Below.refl _
    · refine Mut.below_bind fun active => ?_
      split
      · exact Mut.Below.refl _
      · refine Mut.below_bind fun _ => Mut.below_bind fun definition => ?_
        exact (h definition).attempt.bind fun _ => Mut.Below.refl _

theorem arrayCodec_below (h : ∀ value, Mut.Below (resolve value) (resolve' value))
    (payload : StrictJson) : Mut.Below (arrayCodec resolve payload) (arrayCodec resolve' payload) := by
  unfold arrayCodec
  refine Mut.below_bind fun options => ?_
  split
  · exact Mut.Below.refl _
  · exact Mut.below_bind fun element => (h element).bind fun _ => Mut.Below.refl _

theorem taggedCodec_below (h : ∀ value, Mut.Below (resolve value) (resolve' value)) (tag : String)
    (payload : StrictJson) :
    Mut.Below (taggedCodec resolve tag payload) (taggedCodec resolve' tag payload) := by
  unfold taggedCodec
  split
  · exact Mut.below_bind fun values => (fieldsFrom_below h values _ _).bind fun _ => Mut.Below.refl _
  · split
    · exact (h payload).bind fun _ => Mut.Below.refl _
    · split
      · exact arrayCodec_below h payload
      · split
        · exact Mut.Below.refl _
        · split
          · exact Mut.Below.refl _
          · split
            · exact Mut.below_bind fun parts => (h parts.2.2).bind fun _ => Mut.Below.refl _
            · exact Mut.Below.refl _

theorem codecStep_below (h : ∀ value, Mut.Below (resolve value) (resolve' value))
    (value : StrictJson) :
    Mut.Below (codecStep types resolve value) (codecStep types resolve' value) := by
  unfold codecStep
  split
  · exact namedCodec_below h _
  · exact Mut.below_bind fun parts => taggedCodec_below h parts.1 parts.2

theorem codec_below (types : TypeMaps) (depth : Nat) : ∀ value,
    Mut.Below (codec types depth value) (codec types (depth + 1) value) := by
  induction depth with
  | zero => exact fun _ => Mut.below_fault
  | succ depth ih => exact codecStep_below ih

theorem packetLayout_below (types : TypeMaps) (depth : Nat) (value : StrictJson) :
    Mut.Below (packetLayout types depth value) (packetLayout types (depth + 1) value) := by
  unfold packetLayout
  split
  · exact Mut.Below.refl _
  · exact Mut.below_bind fun payload => Mut.below_bind fun values =>
      fieldsFrom_below (codec_below types depth) values _ _

end

/-! ### Names that come back -/

/-- The expressions that the resolver goes on to from an expression. -/
inductive Leads (types : TypeMaps) : StrictJson → StrictJson → Prop where
  | field {values : List StrictJson} {entries : JsonEntries} {type : StrictJson}
      (hfield : .object entries ∈ values) (htype : Entries.lookup "type" entries = some type) :
      Leads types (.array [.string "container", .array values]) type
  | value (payload : StrictJson) : Leads types (.array [.string "option", payload]) payload
  | element {entries : JsonEntries} {element : StrictJson}
      (h : Entries.lookup "type" entries = some element) :
      Leads types (.array [.string "array", .object entries]) element
  | case {payload value : StrictJson} {field : String} {equals : Bool}
      (h : switchOptions payload = .ok (field, equals, value)) :
      Leads types (.array [.string "switch", payload]) value
  | definition {name : String} {definition : StrictJson} (hvoid : name ≠ "void")
      (hprimitive : primitives.lookup name = none) (h : types.get name = some definition) :
      Leads types (.string name) definition

/-- On the way from an expression there is a name whose expansion comes back to it. -/
def ReEnters (types : TypeMaps) (value : StrictJson) : Prop :=
  ∃ name, Relation.ReflTransGen (Leads types) value (.string name) ∧
    Relation.TransGen (Leads types) (.string name) (.string name)

/-- Names that are active in the one set are active in the other. -/
def Within (active active' : OrderedSet String) : Prop :=
  ∀ name, (active.lookup name).isSome → (active'.lookup name).isSome

section
variable {types : TypeMaps} {resolve : StrictJson → Resolving FieldCodec} {depth : Nat}
  {active left : OrderedSet String} {value next : StrictJson} {result : FieldCodec}

theorem Within.refl : Within active active := fun _ => id

theorem restores {left : OrderedSet String} (h : Resolves types resolve depth)
    (hok : resolve value active = .ok result left) : left = active :=
  Mut.ok_of_wp (h value active) hok

/-- Where all fields are resolved, each is. -/
theorem fieldsFrom_eq_ok (h : Resolves types resolve depth) (values : List StrictJson) :
    ∀ {names : OrderedSet String} {fields results : List PacketField},
      fieldsFrom resolve values names fields active = .ok results left →
      ∀ {entries : JsonEntries} {type : StrictJson}, .object entries ∈ values →
        Entries.lookup "type" entries = some type → ∃ result, resolve type active = .ok result active := by
  induction values with
  | nil => exact fun _ _ _ hmem => absurd hmem List.not_mem_nil
  | cons value rest ih =>
    intro names fields results hok entries type hmem htype
    obtain ⟨object, s₁, hobject, hok₁⟩ := Mut.bind_eq_ok.mp hok
    obtain ⟨rawName, s₂, hraw, hok₂⟩ := Mut.bind_eq_ok.mp hok₁
    obtain ⟨name, s₃, hname, hok₃⟩ := Mut.bind_eq_ok.mp hok₂
    obtain ⟨hentries, rfl⟩ := Mut.ofExcept_eq_ok.mp hobject
    obtain ⟨-, rfl⟩ := Mut.okOr_eq_ok.mp hraw
    obtain ⟨-, rfl⟩ := Mut.ofExcept_eq_ok.mp hname
    split at hok₃
    · cases hok₃
    · obtain ⟨first, s₄, hfirst, hok₄⟩ := Mut.bind_eq_ok.mp hok₃
      obtain ⟨codec, s₅, hcodec, hok₅⟩ := Mut.bind_eq_ok.mp hok₄
      obtain ⟨htypeOf, rfl⟩ := Mut.okOr_eq_ok.mp hfirst
      obtain rfl := restores h hcodec
      rcases List.mem_cons.mp hmem with heq | hmem
      · cases heq
        cases hentries
        cases htypeOf.symm.trans htype
        exact ⟨codec, hcodec⟩
      · exact ih hok₅ hmem htype

/-- While a definition is resolved its name is active besides those that were. -/
theorem namedCodec_eq_ok {name : String} {definition : StrictJson} (hvoid : name ≠ "void")
    (hprimitive : primitives.lookup name = none) (hget : types.get name = some definition)
    (hok : namedCodec types resolve name active = .ok result left) :
    active.lookup name = none ∧ ∃ left', resolve definition (active.insert name ()) = .ok result left' := by
  unfold namedCodec at hok
  rw [if_neg hvoid, hprimitive] at hok
  obtain ⟨names, s₁, hnames, hok₁⟩ := Mut.bind_eq_ok.mp hok
  cases hnames
  split at hok₁
  · cases hok₁
  · rename_i hactive
    obtain ⟨_, s₂, hset, hok₂⟩ := Mut.bind_eq_ok.mp hok₁
    cases hset
    obtain ⟨found, s₃, hfound, hok₃⟩ := Mut.bind_eq_ok.mp hok₂
    obtain ⟨attempted, s₄, hattempted, hok₄⟩ := Mut.bind_eq_ok.mp hok₃
    obtain ⟨_, s₅, hmodified, hok₅⟩ := Mut.bind_eq_ok.mp hok₄
    obtain ⟨hsome, rfl⟩ := Mut.okOr_eq_ok.mp hfound
    obtain ⟨hattempt, -⟩ := Mut.ofExcept_eq_ok.mp hok₅
    cases hsome.symm.trans hget
    refine ⟨Option.not_isSome_iff_eq_none.mp hactive, s₄, ?_⟩
    unfold Mut.attempt at hattempted
    split at hattempted
    · rename_i heq
      cases hattempted
      cases hattempt
      exact heq
    · cases hattempted
      cases hattempt
    · cases hattempted

/-- What a successful call goes on to succeeds, and a name is then active. -/
theorem codecStep_leads (h : Resolves types resolve depth)
    (hok : codecStep types resolve value active = .ok result left)
    (hleads : Leads types value next) :
    ∃ active' result' left', resolve next active' = .ok result' left' ∧ Within active active' ∧
      ∀ name, value = .string name →
        active.lookup name = none ∧ (active'.lookup name).isSome := by
  cases hleads with
  | @field values entries _ hfield htype =>
    change containerCodec resolve (.array values) active = _ at hok
    obtain ⟨inner, s₁, hinner, hok₁⟩ := Mut.bind_eq_ok.mp hok
    obtain ⟨fields, s₂, hfields, -⟩ := Mut.bind_eq_ok.mp hok₁
    obtain ⟨hvalues, rfl⟩ := Mut.ofExcept_eq_ok.mp hinner
    cases hvalues
    obtain ⟨result', hresult⟩ := fieldsFrom_eq_ok h _ hfields hfield htype
    exact ⟨_, result', _, hresult, Within.refl, fun _ h => by cases h⟩
  | value =>
    change optionCodec resolve next active = _ at hok
    obtain ⟨result', left', hresult, -⟩ := Mut.bind_eq_ok.mp hok
    exact ⟨active, result', left', hresult, Within.refl, fun _ h => by cases h⟩
  | @element entries _ helement =>
    change arrayCodec resolve (.object entries) active = _ at hok
    obtain ⟨options, s₁, hoptions, hok₁⟩ := Mut.bind_eq_ok.mp hok
    obtain ⟨hentries, rfl⟩ := Mut.ofExcept_eq_ok.mp hoptions
    cases hentries
    split at hok₁
    · cases hok₁
    · obtain ⟨first, s₂, hfirst, hok₂⟩ := Mut.bind_eq_ok.mp hok₁
      obtain ⟨result', left', hresult, -⟩ := Mut.bind_eq_ok.mp hok₂
      obtain ⟨hsome, rfl⟩ := Mut.okOr_eq_ok.mp hfirst
      cases hsome.symm.trans helement
      exact ⟨_, result', left', hresult, Within.refl, fun _ h => by cases h⟩
  | @case payload _ field equals hcase =>
    change switchCodec resolve payload active = _ at hok
    obtain ⟨parts, s₁, hparts, hok₁⟩ := Mut.bind_eq_ok.mp hok
    obtain ⟨hchosen, rfl⟩ := Mut.ofExcept_eq_ok.mp hparts
    cases hchosen.symm.trans hcase
    obtain ⟨result', left', hresult, -⟩ := Mut.bind_eq_ok.mp hok₁
    exact ⟨_, result', left', hresult, Within.refl, fun _ h => by cases h⟩
  | @definition name _ hvoid hprimitive hget =>
    change namedCodec types resolve name active = _ at hok
    obtain ⟨hactive, left', hresult⟩ := namedCodec_eq_ok hvoid hprimitive hget hok
    refine ⟨_, result, left', hresult, fun other hother => ?_, fun other hother => ?_⟩
    · rw [OrderedMap.lookup_insert]
      split
      · rfl
      · exact hother
    · cases hother
      rw [OrderedMap.lookup_insert, if_pos rfl]
      exact ⟨hactive, rfl⟩

theorem codec_leads (hok : codec types depth value active = .ok result left)
    (hleads : Leads types value next) :
    ∃ depth' active' result' left', codec types depth' next active' = .ok result' left' ∧
      Within active active' ∧ ∀ name, value = .string name →
        active.lookup name = none ∧ (active'.lookup name).isSome := by
  cases depth with
  | zero => cases hok
  | succ depth =>
    obtain ⟨active', result', left', h⟩ := codecStep_leads (codec_resolves types depth) hok hleads
    exact ⟨depth, active', result', left', h⟩

theorem codec_reaches (hok : codec types depth value active = .ok result left)
    (hreach : Relation.ReflTransGen (Leads types) value next) :
    ∃ depth' active' result' left', codec types depth' next active' = .ok result' left' ∧
      Within active active' := by
  induction hreach with
  | refl => exact ⟨depth, active, result, left, hok, Within.refl⟩
  | tail _ hleads ih =>
    obtain ⟨depth', active', result', left', hok', hwithin⟩ := ih
    obtain ⟨depth'', active'', result'', left'', hok'', hwithin', _⟩ := codec_leads hok' hleads
    exact ⟨depth'', active'', result'', left'', hok'', fun name hname => hwithin' name (hwithin name hname)⟩

/-- A successful call comes to no name twice. -/
theorem not_reEnters (hok : codec types depth value active = .ok result left) :
    ¬ ReEnters types value := by
  intro h
  obtain ⟨name, hreach, hcycle⟩ := h
  obtain ⟨depth₁, active₁, result₁, left₁, hok₁, _⟩ := codec_reaches hok hreach
  obtain ⟨definition, hleads, hback⟩ := Relation.TransGen.head'_iff.mp hcycle
  obtain ⟨depth₂, active₂, result₂, left₂, hok₂, _, hname₂⟩ := codec_leads hok₁ hleads
  obtain ⟨depth₃, active₃, result₃, left₃, hok₃, hwithin₃⟩ := codec_reaches hok₂ hback
  obtain ⟨depth₄, active₄, result₄, left₄, _, _, hname₄⟩ := codec_leads hok₃ hleads
  have hactive := hwithin₃ name (hname₂ name rfl).2
  rw [(hname₄ name rfl).1] at hactive
  cases hactive

end

/-! ### Every call ends -/

/-- With room for `depthBound` nested calls the call always ends in the same way, without running
out of room: with an error where a name comes back to itself, and with the active names as they
were where it succeeds. -/
structure Settles {α : Type} (types : TypeMaps) (value : StrictJson) (active : OrderedSet String)
    (call : Nat → Resolving α) (outcome : Outcome UnsupportedLayoutReason (OrderedSet String) α) :
    Prop where
  ends : ∀ depth, depthBound types value active ≤ depth → call depth active = outcome
  returns : outcome ≠ .panic
  rejects : ReEnters types value → ∃ reason left, outcome = .err reason left
  restores : ∀ result left, outcome = .ok result left → left = active
  leaves : ∀ reason left, outcome = .err reason left → Leaves types active left

section
variable {types : TypeMaps} {value : StrictJson} {active : OrderedSet String}

theorem settles_of_returned {α : Type} {call : Nat → Resolving α} {depth : Nat}
    (hdepth : depth = depthBound types value active)
    (hbelow : ∀ depth, Mut.Below (call depth) (call (depth + 1)))
    (hreturned : Mut.wp (call depth) (Returned types depth (depthBound types value active) active)
      active)
    (hrejects : ∀ result left, call depth active = .ok result left → ¬ ReEnters types value) :
    Settles types value active call (call depth active) := by
  have hreturns : call depth active ≠ .panic := by
    intro hpanic
    have hlt := (Mut.wp_of_panic hpanic).mp hreturned
    exact absurd hdepth hlt.ne
  refine ⟨fun more hmore => ?_, hreturns, fun hcycle => ?_, fun result left hok => ?_,
    fun reason left herr => ?_⟩
  · exact Mut.settled hbelow hreturns more (hdepth ▸ hmore)
  · cases hcall : call depth active with
    | ok result left => exact absurd hcycle (hrejects result left hcall)
    | err reason left => exact ⟨reason, left, rfl⟩
    | panic => exact absurd hcall hreturns
  · exact Mut.ok_of_wp hreturned hok
  · exact Mut.err_of_wp hreturned herr

theorem taggedPayloadLayout_eq_ok {expected : String} {payload : StrictJson}
    (h : taggedPayloadLayout value expected = .ok payload) :
    value = .array [.string expected, payload] := by
  unfold taggedPayloadLayout at h
  split at h
  · rename_i tag inner
    split at h
    · rename_i htag
      cases h
      cases tag with
      | string text =>
        cases htag
        rfl
      | _ => cases htag
    · cases h
  · cases h
  · cases h

theorem arrayLayout_eq_ok {context : String} {payload : StrictJson} {values : List StrictJson}
    (h : payload.arrayLayout context = .ok values) : payload = .array values := by
  cases payload with
  | array inner =>
    cases h
    rfl
  | _ => cases h

theorem packetLayout_returned (types : TypeMaps) (depth : Nat) (value : StrictJson)
    (active : OrderedSet String) :
    Mut.wp (packetLayout types depth value)
      (Returned types depth (depthBound types value active) active) active := by
  unfold packetLayout
  split
  · rfl
  · refine returned_ofExcept fun payload hpayload => ?_
    refine returned_ofExcept fun values hvalues => ?_
    obtain rfl := taggedPayloadLayout_eq_ok hpayload
    obtain rfl := arrayLayout_eq_ok hvalues
    have hinner : depthOfValues values < (StrictJson.array values).depth := Nat.lt_succ_self _
    have hpayload : (StrictJson.array values).depth <
        (StrictJson.array [.string "container", .array values]).depth :=
      Nat.lt_succ_of_le (depth_le_depthOfValues (List.mem_cons_of_mem _ List.mem_cons_self))
    refine fieldsFrom_returned (codec_resolves types depth) values _ _ ?_
    unfold depthBound
    omega

theorem leads_void {next : StrictJson} : ¬ Leads types (.string "void") next := by
  intro h
  cases h with
  | definition hvoid _ _ => exact hvoid rfl

theorem not_reEnters_void : ¬ ReEnters types (.string "void") := by
  intro h
  obtain ⟨name, hreach, hcycle⟩ := h
  rcases Relation.ReflTransGen.cases_head hreach with heq | ⟨next, hleads, -⟩
  · cases heq
    obtain ⟨next, hleads, -⟩ := Relation.TransGen.head'_iff.mp hcycle
    exact leads_void hleads
  · exact leads_void hleads

/-- A layout is that of its container. -/
theorem not_reEnters_layout {depth : Nat} {fields : List PacketField} {left : OrderedSet String}
    (hok : packetLayout types depth value active = .ok fields left) : ¬ ReEnters types value := by
  unfold packetLayout at hok
  split at hok
  · rename_i hvoid
    cases value with
    | string text =>
      cases hvoid
      exact not_reEnters_void
    | _ => cases hvoid
  · obtain ⟨payload, s₁, hpayload, hok₁⟩ := Mut.bind_eq_ok.mp hok
    obtain ⟨values, s₂, hvalues, hfields⟩ := Mut.bind_eq_ok.mp hok₁
    obtain ⟨htagged, rfl⟩ := Mut.ofExcept_eq_ok.mp hpayload
    obtain ⟨harray, rfl⟩ := Mut.ofExcept_eq_ok.mp hvalues
    obtain rfl := taggedPayloadLayout_eq_ok htagged
    obtain rfl := arrayLayout_eq_ok harray
    have hcodec : codec types (depth + 1) (.array [.string "container", .array values]) s₂ =
        .ok (.struct fields) left := by
      change containerCodec (codec types depth) (.array values) s₂ = _
      exact Mut.bind_eq_ok.mpr ⟨values, s₂, rfl, Mut.bind_eq_ok.mpr ⟨fields, left, hfields, rfl⟩⟩
    exact not_reEnters hcodec

variable (types value active) in
/-- Every expression is resolved, and every packet laid out, with a bound on how deep the calls
nest, whichever names refer to one another. -/
theorem types_resolve :
    (∃ outcome, Settles types value active (fun depth => codec types depth value) outcome) ∧
      ∃ outcome, Settles types value active (fun depth => packetLayout types depth value) outcome := by
  constructor
  · exact ⟨_, settles_of_returned rfl (fun depth => codec_below types depth value)
      (codec_resolves types _ value active) fun _ _ => not_reEnters⟩
  · exact ⟨_, settles_of_returned rfl (fun depth => packetLayout_below types depth value)
      (packetLayout_returned types _ value active) fun _ _ => not_reEnters_layout⟩

end

end Cubic.Schema
