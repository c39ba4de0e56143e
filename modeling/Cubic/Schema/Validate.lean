import Cubic.Schema.Definition

/-!
# The validation of packet schemas (`packet_schema.rs`)

A set that a loop fills is the list of what it has met.
-/

namespace Cubic.Schema

set_option autoImplicit false

def invalid {α : Type} (reason : String) : Except PacketSchemaError α :=
  .error (.invalidSchema reason)

def validFieldName (name : String) : Bool :=
  !name.isEmpty && name.utf8ByteSize ≤ 128 &&
    name.toList.all fun c => isAsciiLowercase c || isAsciiDigit c || c = '_'

def validateFieldName (name : String) : Except PacketSchemaError Unit :=
  if validFieldName name then .ok ()
  else invalid "field name is empty, overlong, or contains unsupported characters"

def validateUnsupportedReason : UnsupportedLayoutReason → Except PacketSchemaError Unit
  | .noStructuralSourceEntry => .ok ()
  | .ambiguousIdentityMapping detail
  | .unsupportedCodecConstruct detail
  | .unsupportedConditionalConstruct detail =>
    if detail.isEmpty || detail.utf8ByteSize > 128 || detail.toList.any isControl then
      invalid "unsupported-layout reason contains invalid detail"
    else .ok ()

/-! ### Fields and codecs -/

/-- The head of `validate_fields`, before its loop. -/
def checkFields (count depth : Nat) (loop : Except PacketSchemaError Unit) :
    Except PacketSchemaError Unit :=
  if depth > maxFieldNesting then invalid "field schema nesting exceeds the limit"
  else if count > maxFieldsPerPacket then invalid "packet/structure has too many fields"
  else loop

def checkText (maxUtf16Units maxBytes : Nat) : Except PacketSchemaError Unit :=
  if maxUtf16Units = 0 ∨ maxBytes = 0 ∨ maxBytes > maxPacketSchemaBytes then
    invalid "string/identifier requires finite non-zero bounds"
  else .ok ()

def checkBytes (maxBytes : Nat) : Except PacketSchemaError Unit :=
  if maxBytes > maxPacketSchemaBytes then invalid "byte field bound exceeds packet-schema limit"
  else .ok ()

def checkEnum (labels : List String) : Except PacketSchemaError Unit :=
  if labels = [] ∨ labels.length > 4096 then invalid "enum has an invalid discriminant count"
  else if labels.any (fun label => !validFieldName label) ∨ ¬ labels.Nodup then
    invalid "enum labels are invalid or duplicated"
  else .ok ()

mutual
def validateCodec (codec : FieldCodec) (depth : Nat) (priorBools : List String) :
    Except PacketSchemaError Unit :=
  if depth > maxFieldNesting then invalid "field schema nesting exceeds the limit"
  else
    match codec with
    | .string maxUtf16Units maxBytes => checkText maxUtf16Units maxBytes
    | .identifier maxUtf16Units maxBytes => checkText maxUtf16Units maxBytes
    | .byteArray maxBytes => checkBytes maxBytes
    | .remainingBytes maxBytes => checkBytes maxBytes
    | .fixedBytes length =>
      if length > maxPacketSchemaBytes then invalid "fixed byte field is too large" else .ok ()
    | .bitSet maxWords maxBits =>
      if maxWords = 0 ∨ maxBits = 0 ∨ maxWords > maxPacketSchemaBytes / 8 then
        invalid "BitSet requires finite non-zero bounds"
      else .ok ()
    | .list maxItems element =>
      if maxItems > 1048576 then invalid "list bound exceeds the schema safety limit"
      else validateCodec element (depth + 1) []
    | .optional value => validateCodec value (depth + 1) []
    | .enum values => checkEnum (values.entries.map (·.2))
    | .struct fields =>
      checkFields fields.length (depth + 1) (validateFieldsFrom fields (depth + 1) [] [])
    | .conditional field _ value =>
      if field ∉ priorBools then
        invalid "conditional field must reference a preceding bool field in the same structure"
      else validateCodec value (depth + 1) []
    | _ => .ok ()

/-- The loop of `validate_fields`. -/
def validateFieldsFrom (fields : List PacketField) (depth : Nat) (names priorBools : List String) :
    Except PacketSchemaError Unit :=
  match fields with
  | [] => .ok ()
  | (name, codec) :: rest => do
    validateFieldName name
    if name ∈ names then invalid "duplicate field name"
    else do
      validateCodec codec (depth + 1) priorBools
      validateFieldsFrom rest depth (name :: names)
        (if codec.isBool then name :: priorBools else priorBools)
end

def validateFields (fields : List PacketField) (depth : Nat) : Except PacketSchemaError Unit :=
  checkFields fields.length depth (validateFieldsFrom fields depth [] [])

/-! ### What validation establishes -/

section Accepted
variable {depth : Nat} {names bools : List String}

theorem checkFields_eq_ok {count : Nat} {loop : Except PacketSchemaError Unit}
    (h : checkFields count depth loop = .ok ()) : loop = .ok () := by
  unfold checkFields at h
  split at h
  · cases h
  split at h
  · cases h
  · exact h

/-! The equations of the nested forms. -/

theorem validateCodec_list_eq (max : Nat) (element : FieldCodec) :
    validateCodec (.list max element) depth bools =
      if depth > maxFieldNesting then invalid "field schema nesting exceeds the limit"
      else if max > 1048576 then invalid "list bound exceeds the schema safety limit"
      else validateCodec element (depth + 1) [] := rfl

theorem validateCodec_optional_eq (value : FieldCodec) :
    validateCodec (.optional value) depth bools =
      if depth > maxFieldNesting then invalid "field schema nesting exceeds the limit"
      else validateCodec value (depth + 1) [] := rfl

theorem validateCodec_struct_eq (fields : List PacketField) :
    validateCodec (.struct fields) depth bools =
      if depth > maxFieldNesting then invalid "field schema nesting exceeds the limit"
      else checkFields fields.length (depth + 1)
        (validateFieldsFrom fields (depth + 1) [] []) := rfl

theorem validateCodec_conditional_eq (field : String) (equals : Bool) (value : FieldCodec) :
    validateCodec (.conditional field equals value) depth bools =
      if depth > maxFieldNesting then invalid "field schema nesting exceeds the limit"
      else if field ∉ bools then
        invalid "conditional field must reference a preceding bool field in the same structure"
      else validateCodec value (depth + 1) [] := rfl

theorem validateFieldsFrom_cons_eq (name : String) (codec : FieldCodec) (rest : List PacketField) :
    validateFieldsFrom ((name, codec) :: rest) depth names bools = (do
      validateFieldName name
      if name ∈ names then invalid "duplicate field name"
      else do
        validateCodec codec (depth + 1) bools
        validateFieldsFrom rest depth (name :: names)
          (if codec.isBool then name :: bools else bools)) := rfl

theorem validateCodec_depth {codec : FieldCodec} (h : validateCodec codec depth bools = .ok ()) :
    depth ≤ maxFieldNesting := by
  rw [validateCodec.eq_def] at h
  split at h
  · cases h
  · omega

theorem validateCodec_list {max : Nat} {element : FieldCodec}
    (h : validateCodec (.list max element) depth bools = .ok ()) :
    validateCodec element (depth + 1) [] = .ok () := by
  have hdepth := validateCodec_depth h
  rw [validateCodec_list_eq, if_neg (Nat.not_lt.mpr hdepth)] at h
  split at h
  · cases h
  · exact h

theorem validateCodec_optional {value : FieldCodec}
    (h : validateCodec (.optional value) depth bools = .ok ()) :
    validateCodec value (depth + 1) [] = .ok () := by
  have hdepth := validateCodec_depth h
  rw [validateCodec_optional_eq, if_neg (Nat.not_lt.mpr hdepth)] at h
  exact h

theorem validateCodec_struct {fields : List PacketField}
    (h : validateCodec (.struct fields) depth bools = .ok ()) :
    validateFieldsFrom fields (depth + 1) [] [] = .ok () := by
  have hdepth := validateCodec_depth h
  rw [validateCodec_struct_eq, if_neg (Nat.not_lt.mpr hdepth)] at h
  exact checkFields_eq_ok h

theorem validateCodec_conditional {field : String} {equals : Bool} {value : FieldCodec}
    (h : validateCodec (.conditional field equals value) depth bools = .ok ()) :
    field ∈ bools ∧ validateCodec value (depth + 1) [] = .ok () := by
  have hdepth := validateCodec_depth h
  rw [validateCodec_conditional_eq, if_neg (Nat.not_lt.mpr hdepth)] at h
  split at h
  · cases h
  · rename_i hmem
    exact ⟨not_not.mp hmem, h⟩

theorem validateFieldsFrom_cons {name : String} {codec : FieldCodec} {rest : List PacketField}
    (h : validateFieldsFrom ((name, codec) :: rest) depth names bools = .ok ()) :
    name ∉ names ∧ validateCodec codec (depth + 1) bools = .ok () ∧
      validateFieldsFrom rest depth (name :: names)
        (if codec.isBool then name :: bools else bools) = .ok () := by
  rw [validateFieldsFrom_cons_eq] at h
  obtain ⟨_, _, h⟩ := Mut.except_bind_eq_ok.mp h
  split at h
  · cases h
  · rename_i hfresh
    obtain ⟨_, hcodec, hrest⟩ := Mut.except_bind_eq_ok.mp h
    exact ⟨hfresh, hcodec, hrest⟩

end Accepted

/-! ### Artifacts -/

/-- `PacketSchemaFormatVersion::CURRENT` -/
def currentFormatVersion : UInt32 := 1

def validateSupplemental : Option SupplementalPacketSchemaProvenance → Except PacketSchemaError Unit
  | none => .ok ()
  | some source =>
    if [source.source, source.revision, source.sourceSchema, source.license].any fun value =>
        value.isEmpty || value.utf8ByteSize > 512 || value.toList.any isControl then
      invalid "supplemental provenance contains invalid text"
    else if source.contentSha256.utf8ByteSize ≠ 64 ∨
        ¬ source.contentSha256.toList.all isAsciiHexdigit then
      invalid "supplemental provenance SHA-256 is invalid"
    else .ok ()

def ProtocolState.ordinal : ProtocolState → Nat
  | handshake => 0
  | status => 1
  | login => 2
  | configuration => 3
  | play => 4

def PacketDirection.ordinal : PacketDirection → Nat
  | serverbound => 0
  | clientbound => 1

namespace PacketDefinition

/-- The order of the keys: state, direction, ID, identity. -/
def keyLt (a b : PacketDefinition) : Bool :=
  a.state.ordinal < b.state.ordinal || (a.state = b.state && (
    a.direction.ordinal < b.direction.ordinal || (a.direction = b.direction && (
      a.id < b.id || (a.id = b.id && a.identity < b.identity)))))

end PacketDefinition

def validateLayout : PacketLayout → Except PacketSchemaError Unit
  | .fields fields => validateFields fields 0
  | .unsupported reason => validateUnsupportedReason reason

/-- The loop over the packets, with those before it, the last one first. -/
def validatePackets : List PacketDefinition → List PacketDefinition → Except PacketSchemaError Unit
  | [], _ => .ok ()
  | packet :: rest, seen =>
    if seen.head?.any fun prior => !prior.keyLt packet then
      invalid "packet definitions are not in deterministic order"
    else if packet.id.toNat > i32Max then invalid "packet ID exceeds non-negative VarInt range"
    else if seen.any fun prior => prior.state = packet.state && prior.direction = packet.direction &&
        prior.id = packet.id then
      invalid "duplicate packet ID in one state/direction"
    else if seen.any fun prior => prior.state = packet.state && prior.direction = packet.direction &&
        prior.identity = packet.identity then
      invalid "duplicate packet identity in one state/direction"
    else do
      validateLayout packet.layout
      validatePackets rest (packet :: seen)

def validateArtifact (artifact : PacketSchemaArtifact) : Except PacketSchemaError Unit :=
  if artifact.schemaVersion ≠ currentFormatVersion then
    .error (.unsupportedSchemaVersion artifact.schemaVersion currentFormatVersion)
  else if artifact.packets.length > maxPackets then
    invalid "artifact has too many packet definitions"
  else do
    validateSupplemental artifact.supplemental
    validatePackets artifact.packets []

/-- The layouts of an accepted artifact are accepted. -/
theorem validateLayout_of_validatePackets {packets : List PacketDefinition} :
    ∀ {seen : List PacketDefinition}, validatePackets packets seen = .ok () →
      ∀ packet ∈ packets, validateLayout packet.layout = .ok () := by
  induction packets with
  | nil => exact fun _ _ hmem => absurd hmem List.not_mem_nil
  | cons packet rest ih =>
    intro seen h
    rw [validatePackets] at h
    split at h
    · cases h
    split at h
    · cases h
    split at h
    · cases h
    split at h
    · cases h
    obtain ⟨_, hlayout, hrest⟩ := Mut.except_bind_eq_ok.mp h
    exact List.forall_mem_cons.mpr ⟨hlayout, ih hrest⟩

theorem validateLayout_of_validateArtifact {artifact : PacketSchemaArtifact}
    (h : validateArtifact artifact = .ok ()) :
    ∀ packet ∈ artifact.packets, validateLayout packet.layout = .ok () := by
  unfold validateArtifact at h
  split at h
  · cases h
  split at h
  · cases h
  obtain ⟨_, _, hpackets⟩ := Mut.except_bind_eq_ok.mp h
  exact validateLayout_of_validatePackets hpackets

end Cubic.Schema
