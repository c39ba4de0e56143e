import Cubic.Schema.Registry

/-!
# What validation rules out at run time

The decoder and the encoder count the depth as the validation does, and a condition of an
accepted schema refers to a bool that both have already met.
-/

namespace Cubic.Schema

set_option autoImplicit false

/-- The nesting limit, and a condition without its bool. -/
def Structural : PacketSchemaError → Prop
  | .invalidSchema reason => reason = "runtime field nesting exceeds the limit"
  | .valueMismatch _ expected => expected = "preceding bool condition"
  | _ => False

theorem codecName_ne (codec : FieldCodec) : codecName codec ≠ "preceding bool condition" := by
  cases codec <;> simp [codecName]

/-! ### Computations without structural errors -/

section Clean
variable {σ α β : Type}

/-- What `m` returns satisfies `R`, and no error of it is structural. -/
def Clean (m : Mut σ PacketSchemaError α) (R : α → Prop) : Prop :=
  ∀ s, Mut.wp m ⟨fun a _ => R a, fun e _ => ¬ Structural e, True⟩ s

variable {m : Mut σ PacketSchemaError α} {f : α → Mut σ PacketSchemaError β} {R : α → Prop}
  {R' : β → Prop} {field : String}

theorem clean_pure {a : α} (h : R a) : Clean (pure a : Mut σ PacketSchemaError α) R := fun _ => h

theorem clean_fail {e : PacketSchemaError} (h : ¬ Structural e) :
    Clean (Mut.fail e : Mut σ PacketSchemaError α) R := fun _ => h

theorem clean_valueMismatch {expected : String} (h : expected ≠ "preceding bool condition") :
    Clean (Mut.fail (.valueMismatch field expected) : Mut σ PacketSchemaError α) R := clean_fail h

theorem clean_invalid {reason : String} (h : reason ≠ "runtime field nesting exceeds the limit") :
    Clean (Mut.fail (.invalidSchema reason) : Mut σ PacketSchemaError α) R := clean_fail h

theorem Clean.bind (hm : Clean m R) (hf : ∀ a, R a → Clean (f a) R') : Clean (m >>= f) R' :=
  fun s => Mut.wp_seq (hm s) (fun a t ha => hf a ha t) (fun _ _ => id) id

theorem Clean.mono {Q : α → Prop} (h : Clean m R) (himp : ∀ a, R a → Q a) : Clean m Q :=
  fun s => Mut.wp_mono (h s) (fun a _ => himp a) (fun _ _ => id) id

theorem clean_get : Clean (Mut.get : Mut σ PacketSchemaError σ) fun _ => True := fun _ => trivial

/-- An error of the codec is not structural. -/
theorem clean_atField (m : Mut σ CodecError α) : Clean (atField field m) fun _ => True := by
  intro s
  unfold atField
  rw [Mut.wp_mapErr]
  unfold Mut.wp
  cases m s with
  | ok a t => trivial
  | err e t => exact id
  | panic => trivial

theorem clean_read {m : Mut σ CodecError α} {g : α → β} (h : ∀ a, R' (g a)) :
    Clean (atField field m >>= fun a => pure (g a)) R' :=
  (clean_atField m).bind fun a _ => clean_pure (h a)

theorem clean_readCount (max : Nat) : Clean (readCount max field) fun _ => True := by
  refine (clean_atField readVarInt).bind fun value _ => ?_
  split
  · exact clean_valueMismatch (by decide)
  split
  · exact clean_valueMismatch (by decide)
  · exact clean_pure trivial

theorem clean_onReader (m : NbtM α) : Clean (onReader (PacketSchemaError.nbt field) m) fun _ => True := by
  intro r
  unfold Mut.wp onReader
  cases m (.new r) with
  | ok a c => trivial
  | err e c => exact id
  | panic => trivial

theorem Clean.repeatCall (h : Clean m R) (n : Nat) : Clean (Mut.repeatCall m n) fun _ => True := by
  induction n with
  | zero => exact clean_pure trivial
  | succ n ih => exact h.bind fun a _ => ih.bind fun rest _ => clean_pure trivial

theorem clean_forM {items : List β} {f : β → Mut σ PacketSchemaError PUnit}
    (h : ∀ item ∈ items, Clean (f item) fun _ => True) : Clean (items.forM f) fun _ => True := by
  induction items with
  | nil => exact clean_pure trivial
  | cons item rest ih =>
    obtain ⟨hitem, hrest⟩ := List.forall_mem_cons.mp h
    exact hitem.bind fun _ _ => ih hrest

theorem clean_identifier (text : String) :
    Clean (checkIdentifier field text : Mut σ PacketSchemaError Unit) fun _ => True := by
  unfold checkIdentifier
  split
  · exact clean_pure trivial
  · refine clean_invalid ?_
    intro h
    have hhead := congrArg (fun s => s.toList.head?) h
    simp only [String.toList_append] at hhead
    change some 'f' = some 'r' at hhead
    exact absurd hhead (by decide)

end Clean

/-! ### Conditions -/

/-- The first value under the name is a bool. -/
def Sees (values : List NamedPacketValue) (name : String) : Prop :=
  ∃ b, values.find? (fun value => value.1 = name) = some (name, .bool b)

variable {values : List NamedPacketValue} {name : String}

theorem Sees.append (h : Sees values name) (more : List NamedPacketValue) :
    Sees (values ++ more) name := by
  obtain ⟨b, hfind⟩ := h
  refine ⟨b, ?_⟩
  rw [List.find?_append, hfind]
  rfl

/-- A name that did not occur before is found where it is put. -/
theorem sees_fresh {names : List String} {b : Bool} (hfresh : name ∉ names)
    (hnames : ∀ value ∈ values, value.1 ∈ names) (more : List NamedPacketValue) :
    Sees (values ++ (name, .bool b) :: more) name := by
  refine ⟨b, ?_⟩
  have hnone : values.find? (fun value => value.1 = name) = none := by
    rw [List.find?_eq_none]
    intro value hmem heq
    exact hfresh (of_decide_eq_true heq ▸ hnames value hmem)
  rw [List.find?_append, hnone, Option.none_or, List.find?_cons_of_pos]
  exact decide_eq_true rfl

theorem clean_priorBool {σ : Type} {field : String} (h : Sees values name) :
    Clean (Mut.ofExcept (priorBool values name field) : Mut σ PacketSchemaError Bool)
      fun _ => True := by
  obtain ⟨b, hfind⟩ := h
  unfold priorBool
  rw [hfind]
  exact clean_pure trivial

/-- What the conditions of the next field may refer to. -/
theorem sees_cons {all : List NamedPacketValue} {bools : List String} {codec : FieldCodec}
    (hbools : ∀ other ∈ bools, Sees all other) (hnew : codec.isBool → Sees all name) :
    ∀ other ∈ (if codec.isBool then name :: bools else bools), Sees all other := by
  split
  · rename_i hbool
    exact List.forall_mem_cons.mpr ⟨hnew hbool, hbools⟩
  · exact hbools

/-! ### The decoder -/

section Layout
variable (layout : NbtLayout)

/-- Decoding by an accepted codec, where its condition refers to a bool. -/
def DecodesClean (codec : FieldCodec) : Prop :=
  ∀ depth bools prior field, validateCodec codec depth bools = .ok () →
    (∀ name ∈ bools, Sees prior name) →
    Clean (decodeValue layout codec prior field depth) fun value =>
      codec.isBool → ∃ b, value = .bool b

theorem decodeFieldsFrom_clean (fields : List PacketField)
    (hfields : ∀ f ∈ fields, DecodesClean layout f.2) :
    ∀ depth names bools values, validateFieldsFrom fields depth names bools = .ok () →
      (∀ value ∈ values, value.1 ∈ names) → (∀ name ∈ bools, Sees values name) →
      Clean (decodeFieldsFrom layout fields values depth) fun _ => True := by
  induction fields with
  | nil => exact fun _ _ _ _ _ _ _ => clean_pure trivial
  | cons f rest ih =>
    intro depth names bools values h hnames hbools
    obtain ⟨name, codec⟩ := f
    obtain ⟨hfresh, hcodec, hrest⟩ := validateFieldsFrom_cons h
    obtain ⟨hf, hfields⟩ := List.forall_mem_cons.mp hfields
    rw [decodeFieldsFrom]
    refine (hf (depth + 1) bools values name hcodec hbools).bind fun value hvalue => ?_
    refine ih hfields depth _ _ _ hrest ?_ (sees_cons (fun other hmem => ?_) fun hbool => ?_)
    · intro value' hmem
      rcases List.mem_append.mp hmem with hold | hnew
      · exact List.mem_cons_of_mem name (hnames value' hold)
      · rw [List.mem_singleton.mp hnew]
        exact List.mem_cons_self
    · exact (hbools other hmem).append _
    · obtain ⟨b, rfl⟩ := hvalue hbool
      exact sees_fresh hfresh hnames []

theorem decodeValue_clean (codec : FieldCodec) : DecodesClean layout codec := by
  have hnil : ∀ name ∈ ([] : List String), Sees [] name := fun _ hmem => absurd hmem List.not_mem_nil
  induction codec using FieldCodec.induct with
  | list max element ih =>
    intro depth bools prior field h _
    have hdepth := validateCodec_depth h
    have helement := ih (depth + 1) [] [] field (validateCodec_list h) hnil
    rw [decodeValue, if_neg (Nat.not_lt.mpr hdepth)]
    refine (clean_readCount max).bind fun count _ => ?_
    refine (helement.repeatCall count).bind fun list _ => ?_
    exact clean_pure fun hbool => absurd hbool Bool.false_ne_true
  | optional value ih =>
    intro depth bools prior field h _
    have hdepth := validateCodec_depth h
    have hvalue := ih (depth + 1) [] [] field (validateCodec_optional h) hnil
    rw [decodeValue, if_neg (Nat.not_lt.mpr hdepth)]
    refine (clean_atField readBool).bind fun present _ => ?_
    split
    · exact hvalue.bind fun value _ => clean_pure fun hbool => absurd hbool Bool.false_ne_true
    · exact clean_pure fun hbool => absurd hbool Bool.false_ne_true
  | struct fields ih =>
    intro depth bools prior field h _
    have hdepth := validateCodec_depth h
    have hfields := decodeFieldsFrom_clean layout fields ih (depth + 1) [] [] []
      (validateCodec_struct h) (fun _ hmem => absurd hmem List.not_mem_nil) hnil
    rw [decodeValue, if_neg (Nat.not_lt.mpr hdepth)]
    exact hfields.bind fun values _ => clean_pure fun hbool => absurd hbool Bool.false_ne_true
  | conditional reference equals value ih =>
    intro depth bools prior field h hbools
    have hdepth := validateCodec_depth h
    obtain ⟨hreference, hvalid⟩ := validateCodec_conditional h
    have hvalue := ih (depth + 1) [] [] field hvalid hnil
    rw [decodeValue, if_neg (Nat.not_lt.mpr hdepth)]
    refine (clean_priorBool (hbools reference hreference)).bind fun condition _ => ?_
    split
    · exact hvalue.mono fun value _ hbool => absurd hbool Bool.false_ne_true
    · exact clean_pure fun hbool => absurd hbool Bool.false_ne_true
  | bool =>
    intro depth bools prior field h _
    have hdepth := validateCodec_depth h
    rw [decodeValue, if_neg (Nat.not_lt.mpr hdepth)]
    exact clean_read fun value _ => ⟨value, rfl⟩
  | identifier units bytes =>
    intro depth bools prior field h _
    have hdepth := validateCodec_depth h
    rw [decodeValue, if_neg (Nat.not_lt.mpr hdepth)]
    refine (clean_atField _).bind fun text _ => (clean_identifier text).bind fun _ _ => ?_
    exact clean_pure fun hbool => absurd hbool Bool.false_ne_true
  | enum values =>
    intro depth bools prior field h _
    have hdepth := validateCodec_depth h
    rw [decodeValue, if_neg (Nat.not_lt.mpr hdepth)]
    refine (clean_atField _).bind fun value _ => ?_
    split
    · exact clean_valueMismatch (by decide)
    · exact clean_pure fun hbool => absurd hbool Bool.false_ne_true
  | remainingBytes max =>
    intro depth bools prior field h _
    have hdepth := validateCodec_depth h
    rw [decodeValue, if_neg (Nat.not_lt.mpr hdepth)]
    refine clean_get.bind fun r _ => ?_
    split
    · exact clean_valueMismatch (by decide)
    · exact clean_read fun value hbool => absurd hbool Bool.false_ne_true
  | nbt =>
    intro depth bools prior field h _
    have hdepth := validateCodec_depth h
    rw [decodeValue, if_neg (Nat.not_lt.mpr hdepth)]
    refine (clean_onReader _).bind fun value _ => ?_
    exact clean_pure fun hbool => absurd hbool Bool.false_ne_true
  | nbtTag =>
    intro depth bools prior field h _
    have hdepth := validateCodec_depth h
    rw [decodeValue, if_neg (Nat.not_lt.mpr hdepth)]
    refine (clean_onReader _).bind fun value _ => ?_
    exact clean_pure fun hbool => absurd hbool Bool.false_ne_true
  | textComponent =>
    intro depth bools prior field h _
    have hdepth := validateCodec_depth h
    rw [decodeValue, if_neg (Nat.not_lt.mpr hdepth)]
    refine (clean_onReader _).bind fun value _ => ?_
    exact clean_pure fun hbool => absurd hbool Bool.false_ne_true
  | _ =>
    intro depth bools prior field h _
    have hdepth := validateCodec_depth h
    rw [decodeValue, if_neg (Nat.not_lt.mpr hdepth)]
    exact clean_read fun value hbool => absurd hbool Bool.false_ne_true

theorem decodeFields_clean {fields : List PacketField} (h : validateFields fields 0 = .ok ()) :
    Clean (decodeFields layout fields 0) fun _ => True :=
  decodeFieldsFrom_clean layout fields (fun f _ => decodeValue_clean layout f.2) 0 [] [] []
    (checkFields_eq_ok h) (fun _ hmem => absurd hmem List.not_mem_nil)
    fun _ hmem => absurd hmem List.not_mem_nil

/-! ### The encoder -/

theorem clean_write (bytes : Bytes) : Clean (write bytes) fun _ => True := fun _ => trivial

theorem clean_writeAtField {field : String} (bytes : Except CodecError Bytes) :
    Clean (writeAtField field bytes) fun _ => True :=
  (clean_atField _).bind fun _ _ => clean_write _

theorem clean_writeNbt {field : String} (outcome : Outcome NbtError Budget Bytes) :
    Clean (writeNbt field outcome) fun _ => True := by
  unfold writeNbt
  split
  · exact clean_write _
  · exact clean_fail id
  · exact fun _ => trivial

theorem clean_writeCount {field : String} (count : Nat) :
    Clean (writeCount count field) fun _ => True := by
  unfold writeCount
  split
  · exact clean_write _
  · exact clean_valueMismatch (by decide)

theorem clean_mismatch {α : Type} {R : α → Prop} {field : String} (codec : FieldCodec) :
    Clean (Mut.fail (.valueMismatch field (codecName codec)) : EncodeM α) R :=
  clean_valueMismatch (codecName_ne codec)

theorem Clean.notBool {m : EncodeM Unit} {codec : FieldCodec} {value : PacketValue}
    (hcodec : codec.isBool = false) (h : Clean m fun _ => True) :
    Clean m fun _ => codec.isBool → ∃ b, value = .bool b :=
  h.mono fun _ _ hbool => absurd (hcodec.symm.trans hbool) Bool.false_ne_true

theorem encodeScalar_clean (codec : FieldCodec) (value : PacketValue) (field : String) :
    Clean (encodeScalar layout codec value field) fun _ => codec.isBool → ∃ b, value = .bool b := by
  unfold encodeScalar
  split
  · exact (clean_write _).mono fun _ _ _ => ⟨_, rfl⟩
  -- the numbers
  iterate 12 exact (clean_write _).notBool rfl
  · exact (clean_writeAtField _).notBool rfl
  · exact ((clean_identifier _).bind fun _ _ => clean_writeAtField _).notBool rfl
  · exact (clean_write _).notBool rfl
  · exact (clean_writeAtField _).notBool rfl
  · exact (clean_writeAtField _).notBool rfl
  · split
    · exact (clean_write _).notBool rfl
    · exact clean_mismatch _
  · exact (clean_writeAtField _).notBool rfl
  · split
    · exact (clean_write _).notBool rfl
    · exact clean_mismatch _
  iterate 3 exact (clean_writeNbt _).notBool rfl
  · split
    · exact (clean_write _).notBool rfl
    · exact clean_mismatch _
  · exact clean_mismatch _

/-- Encoding by an accepted codec, where its condition refers to a bool. -/
def EncodesClean (codec : FieldCodec) : Prop :=
  ∀ depth bools value prior field, validateCodec codec depth bools = .ok () →
    (∀ name ∈ bools, Sees prior name) →
    Clean (encodeValue layout codec value prior field depth) fun _ =>
      codec.isBool → ∃ b, value = .bool b

/-- The values before the rest are those of the fields that are done. -/
theorem encodeFieldsFrom_clean (fields : List PacketField)
    (hfields : ∀ f ∈ fields, EncodesClean layout f.2) :
    ∀ depth names bools done rest, validateFieldsFrom fields depth names bools = .ok () →
      (∀ value ∈ done, value.1 ∈ names) → (∀ name ∈ bools, Sees (done ++ rest) name) →
      Clean (encodeFieldsFrom layout fields rest (done ++ rest) depth) fun _ => True := by
  induction fields with
  | nil =>
    intro depth names bools done rest _ _ _
    rw [encodeFieldsFrom.eq_def]
    exact clean_pure trivial
  | cons f fields ih =>
    intro depth names bools done rest h hnames hbools
    obtain ⟨name, codec⟩ := f
    obtain ⟨hfresh, hcodec, hrest⟩ := validateFieldsFrom_cons h
    obtain ⟨hf, hfields⟩ := List.forall_mem_cons.mp hfields
    cases rest with
    | nil => exact clean_pure trivial
    | cons value rest =>
      obtain ⟨name', value⟩ := value
      rw [encodeFieldsFrom]
      split
      · exact clean_valueMismatch (by decide)
      rename_i hname
      have hname := not_not.mp hname
      subst hname
      refine (hf (depth + 1) bools value _ name hcodec hbools).bind fun _ hvalue => ?_
      have hsplit : done ++ (name, value) :: rest = (done ++ [(name, value)]) ++ rest := by
        rw [List.append_assoc, List.singleton_append]
      have hseen := sees_cons hbools fun hbool => by
        obtain ⟨b, rfl⟩ := hvalue hbool
        exact sees_fresh hfresh hnames rest
      rw [hsplit] at hseen ⊢
      refine ih hfields depth _ _ _ rest hrest ?_ hseen
      intro value' hmem
      rcases List.mem_append.mp hmem with hold | hnew
      · exact List.mem_cons_of_mem name (hnames value' hold)
      · rw [List.mem_singleton.mp hnew]
        exact List.mem_cons_self

theorem clean_checkCount {definitions values : Nat} {loop : EncodeM Unit}
    (h : Clean loop fun _ => True) : Clean (checkCount definitions values loop) fun _ => True := by
  unfold checkCount
  split
  · exact clean_valueMismatch (by decide)
  · exact h

theorem encodeValue_clean (codec : FieldCodec) : EncodesClean layout codec := by
  have hnil : ∀ name ∈ ([] : List String), Sees [] name := fun _ hmem => absurd hmem List.not_mem_nil
  induction codec using FieldCodec.induct with
  | list max element ih =>
    intro depth bools value prior field h _
    have hdepth := validateCodec_depth h
    have helement := fun item => ih (depth + 1) [] item [] field (validateCodec_list h) hnil
    rw [encodeValue.eq_def, if_neg (Nat.not_lt.mpr hdepth)]
    cases value with
    | list items =>
      refine Clean.notBool rfl ?_
      dsimp only
      split
      · refine (clean_writeCount _).bind fun _ _ => ?_
        exact clean_forM fun item _ => (helement item).mono fun _ _ => trivial
      · exact clean_mismatch _
    | _ => exact encodeScalar_clean layout _ _ field
  | optional inner ih =>
    intro depth bools value prior field h _
    have hdepth := validateCodec_depth h
    have hinner := fun value => ih (depth + 1) [] value [] field (validateCodec_optional h) hnil
    rw [encodeValue.eq_def, if_neg (Nat.not_lt.mpr hdepth)]
    cases value with
    | optional value =>
      refine Clean.notBool rfl ((clean_write _).bind fun _ _ => ?_)
      cases value with
      | some value => exact (hinner value).mono fun _ _ => trivial
      | none => exact clean_pure trivial
    | _ => exact encodeScalar_clean layout _ _ field
  | struct fields ih =>
    intro depth bools value prior field h _
    have hdepth := validateCodec_depth h
    have hfields := fun values => encodeFieldsFrom_clean layout fields ih (depth + 1) [] [] [] values
      (validateCodec_struct h) (fun _ hmem => absurd hmem List.not_mem_nil)
      fun _ hmem => absurd hmem List.not_mem_nil
    rw [encodeValue.eq_def, if_neg (Nat.not_lt.mpr hdepth)]
    cases value with
    | struct values => exact Clean.notBool rfl (clean_checkCount (hfields values))
    | _ => exact encodeScalar_clean layout _ _ field
  | conditional reference equals inner ih =>
    intro depth bools value prior field h hbools
    have hdepth := validateCodec_depth h
    obtain ⟨hreference, hvalid⟩ := validateCodec_conditional h
    have hinner := fun value => ih (depth + 1) [] value [] field hvalid hnil
    have hcondition : Clean (Mut.ofExcept (priorBool prior reference field) : EncodeM Bool)
        fun _ => True := clean_priorBool (hbools reference hreference)
    rw [encodeValue.eq_def, if_neg (Nat.not_lt.mpr hdepth)]
    refine Clean.notBool rfl ?_
    cases value with
    | absent =>
      refine hcondition.bind fun condition _ => ?_
      split
      · exact clean_pure trivial
      · exact (hinner .absent).mono fun _ _ => trivial
    | _ =>
      refine hcondition.bind fun condition _ => ?_
      split
      · exact (hinner _).mono fun _ _ => trivial
      · exact clean_mismatch _
  | _ =>
    intro depth bools value prior field h _
    have hdepth := validateCodec_depth h
    rw [encodeValue.eq_def, if_neg (Nat.not_lt.mpr hdepth)]
    exact encodeScalar_clean layout _ value field

theorem encodeFields_clean {fields : List PacketField} (h : validateFields fields 0 = .ok ())
    (values : List NamedPacketValue) : Clean (encodeFields layout fields values 0) fun _ => True :=
  clean_checkCount (encodeFieldsFrom_clean layout fields (fun f _ => encodeValue_clean layout f.2) 0
    [] [] [] values (checkFields_eq_ok h) (fun _ hmem => absurd hmem List.not_mem_nil)
    fun _ hmem => absurd hmem List.not_mem_nil)

/-! ### The registry -/

variable {artifact : PacketSchemaArtifact} {registry : PacketRegistry}

theorem clean_definitionAt {σ : Type} (index : Option Nat) :
    Clean (registry.definitionAt index : Mut σ PacketSchemaError (Option PacketDefinition))
      fun definition => ∀ packet, definition = some packet → packet ∈ registry.artifact.packets := by
  unfold PacketRegistry.definitionAt
  cases index with
  | none =>
    refine clean_pure fun packet h => ?_
    cases h
  | some index =>
    have hindex : Clean (Mut.index registry.artifact.packets index : Mut σ PacketSchemaError _)
        fun packet => packet ∈ registry.artifact.packets := by
      unfold Mut.index
      split
      · rename_i packet hget
        exact clean_pure (List.mem_of_getElem? hget)
      · exact fun _ => trivial
    refine hindex.bind fun packet hmem => clean_pure fun other h => ?_
    cases h
    exact hmem

theorem accepted_fields (h : validateArtifact artifact = .ok ()) {packet : PacketDefinition}
    {fields : List PacketField} (hmem : packet ∈ artifact.packets) (hlayout : packet.layout = .fields fields) :
    validateFields fields 0 = .ok () := by
  have hvalid := validateLayout_of_validateArtifact h packet hmem
  rw [hlayout] at hvalid
  exact hvalid

theorem decodeFrom_clean (h : validateArtifact registry.artifact = .ok ()) (state : ProtocolState)
    (direction : PacketDirection) (packetId : UInt32) :
    Clean (registry.decodeFrom layout state direction packetId) fun _ => True := by
  refine (clean_definitionAt _).bind fun definition hdefinition => ?_
  cases definition with
  | none => exact clean_fail id
  | some definition =>
    have hmem := hdefinition definition rfl
    cases hlayout : definition.layout with
    | unsupported reason =>
      simp only [hlayout]
      exact clean_fail id
    | fields fields =>
      simp only [hlayout]
      refine (decodeFields_clean layout (accepted_fields h hmem hlayout)).bind fun decoded _ => ?_
      refine clean_get.bind fun r _ => ?_
      split
      · exact clean_fail id
      · exact clean_pure trivial

theorem unknown_identity_ne (identity state direction : String) :
    "unknown packet identity " ++ identity ++ " in " ++ state ++ "/" ++ direction ≠
      "runtime field nesting exceeds the limit" := by
  intro h
  have hhead := congrArg (fun s => s.toList.head?) h
  simp only [String.toList_append] at hhead
  change some 'u' = some 'r' at hhead
  exact absurd hhead (by decide)

theorem encodeTo_clean (h : validateArtifact registry.artifact = .ok ()) (state : ProtocolState)
    (direction : PacketDirection) (identity : MinecraftIdentifier) (fields : List NamedPacketValue) :
    Clean (registry.encodeTo layout state direction identity fields) fun _ => True := by
  refine (clean_definitionAt _).bind fun definition hdefinition => ?_
  cases definition with
  | none => exact clean_invalid (unknown_identity_ne _ _ _)
  | some definition =>
    have hmem := hdefinition definition rfl
    cases hlayout : definition.layout with
    | unsupported reason =>
      simp only [hlayout]
      exact clean_fail id
    | fields definitions =>
      simp only [hlayout]
      split
      · exact clean_invalid (by decide)
      · refine (clean_write _).bind fun _ _ => ?_
        refine (encodeFields_clean layout (accepted_fields h hmem hlayout) fields).bind fun _ _ => ?_
        exact clean_get

theorem new_of_validateArtifact (h : validateArtifact artifact = .ok ()) :
    ∃ registry, PacketRegistry.new artifact = .ok registry ∧ registry.artifact = artifact := by
  unfold PacketRegistry.new
  rw [h]
  exact ⟨_, rfl, rfl⟩

/-- The registry of an accepted schema reports neither the nesting limit nor a condition without
its bool. -/
theorem registry_not_structural (h : validateArtifact artifact = .ok ()) :
    ∃ registry, PacketRegistry.new artifact = .ok registry ∧
      (∀ state direction id payload e r,
        registry.decode layout state direction id payload = .err e r → ¬ Structural e) ∧
      ∀ state direction identity fields e output,
        registry.encode layout state direction identity fields = .err e output → ¬ Structural e := by
  obtain ⟨registry, hnew, rfl⟩ := new_of_validateArtifact h
  refine ⟨registry, hnew, ?_, ?_⟩
  · intro state direction id payload e r herr
    exact Mut.err_of_wp (decodeFrom_clean layout h state direction id _) herr
  · intro state direction identity fields e output herr
    exact Mut.err_of_wp (encodeTo_clean layout h state direction identity fields _) herr

end Layout

/-- A list of numbers that a flag announces. -/
def announcedArtifact : PacketSchemaArtifact where
  schemaVersion := 1
  supplemental := none
  packets := [{
    state := .play
    direction := .clientbound
    identity := ⟨"minecraft:numbers", by decide⟩
    id := 7
    layout := .fields [("present", .bool),
      ("numbers", .conditional "present" true (.list 4 (.optional .varInt)))] }]

theorem registry_not_structural_announced :
    ∃ registry, PacketRegistry.new announcedArtifact = .ok registry ∧
      (∀ state direction id payload e r,
        registry.decode ⟨24, 32⟩ state direction id payload = .err e r → ¬ Structural e) ∧
      ∀ state direction identity fields e output,
        registry.encode ⟨24, 32⟩ state direction identity fields = .err e output → ¬ Structural e :=
  registry_not_structural ⟨24, 32⟩ (by rfl)

end Cubic.Schema
