import Cubic.Codec.Frame
import Cubic.Codec.Recovery
import Cubic.Nbt.RoundTrip
import Cubic.Schema.Structural

/-!
# Decoding what was encoded by a schema

A field of remaining bytes is read to the end of the payload, and the validation lets it stand
anywhere. The values come back just where nothing was written after such a field.
-/

namespace Cubic.Schema

set_option autoImplicit false

mutual
/-- What a value is written as. -/
def portionsOf (codec : FieldCodec) (value : PacketValue) : List Portion :=
  match codec, value with
  | .fixedBytes _, .bytes bytes => [⟨false, bytes.isEmpty⟩]
  | .remainingBytes _, .bytes bytes => [⟨true, bytes.isEmpty⟩]
  | .list _ element, .list items => .delimited :: items.flatMap fun item => portionsOf element item
  | .optional inner, .optional (some value) => .delimited :: portionsOf inner value
  | .struct fields, .struct values => portionsFrom fields values
  | .conditional _ _ _, .absent => []
  | .conditional _ _ inner, value => portionsOf inner value
  | _, _ => [.delimited]

def portionsFrom (fields : List PacketField) (values : List NamedPacketValue) : List Portion :=
  match fields, values with
  | (_, codec) :: fields, value :: values => portionsOf codec value.2 ++ portionsFrom fields values
  | _, _ => []
end

/-- Nothing is written after remaining bytes. -/
def RestLast (fields : List PacketField) (values : List NamedPacketValue) : Prop :=
  Portion.Ends (portionsFrom fields values) []

instance (fields : List PacketField) (values : List NamedPacketValue) :
    Decidable (RestLast fields values) := inferInstanceAs (Decidable (Portion.Ends _ _))

/-! ### The writer -/

section Writer
variable {field : String} {bytes out out' : Bytes}

theorem write_eq_ok : write bytes out = .ok () out' ↔ out' = out ++ bytes := by
  constructor
  · intro h
    cases h
    rfl
  · intro h
    rw [h]
    rfl

theorem writeAtField_eq_ok {r : Except CodecError Bytes} :
    writeAtField field r out = .ok () out' ↔ ∃ bytes, r = .ok bytes ∧ out' = out ++ bytes := by
  constructor
  · intro h
    obtain ⟨bytes, s, hbytes, hwrite⟩ := Mut.bind_eq_ok.mp h
    obtain ⟨hr, rfl⟩ := Mut.ofExcept_eq_ok.mp (Mut.mapErr_eq_ok.mp hbytes)
    exact ⟨bytes, hr, write_eq_ok.mp hwrite⟩
  · intro ⟨bytes, hr, hout⟩
    rw [hr, hout]
    rfl

theorem writeNbt_eq_ok {outcome : Outcome NbtError Budget Bytes}
    (h : writeNbt field outcome out = .ok () out') :
    ∃ bytes b, outcome = .ok bytes b ∧ out' = out ++ bytes := by
  unfold writeNbt at h
  split at h
  · rename_i bytes b
    exact ⟨bytes, b, rfl, write_eq_ok.mp h⟩
  · cases h
  · cases h

theorem writeCount_eq_ok {count : Nat} (h : writeCount count field out = .ok () out') :
    count ≤ i32Max ∧ out' = out ++ writeVarInt (.ofNat count) := by
  unfold writeCount at h
  split at h
  · rename_i hcount
    exact ⟨hcount, write_eq_ok.mp h⟩
  · cases h

/-- An identifier is checked before it is written and after it is read. -/
theorem checkIdentifier_eq_ok {text : String} (h : checkIdentifier field text out = .ok () out') :
    out' = out ∧ Reads (checkIdentifier field text : DecodeM Unit) [] () := by
  unfold checkIdentifier at h ⊢
  cases hnew : MinecraftIdentifier.new text with
  | ok identifier =>
    rw [hnew] at h
    cases h
    exact ⟨rfl, reads_pure ()⟩
  | error e =>
    rw [hnew] at h
    cases h

theorem reads_readCount {count max : Nat} (hmax : count ≤ max) (hcount : count ≤ i32Max) :
    Reads (readCount max field) (writeVarInt (.ofNat count)) count := by
  have hint := toInt_ofNat_i32 hcount
  have hneg : ¬ Int32.ofNat count < 0 := by
    rw [Int32.lt_iff_toInt_lt, hint]
    exact not_lt.mpr (Int.natCast_nonneg count)
  unfold readCount
  refine ((reads_varInt (.ofNat count)).mapErr _).bindNil ?_
  rw [if_neg hneg, hint, Int.toNat_natCast, if_neg (not_lt.mpr hmax)]
  exact reads_pure count

theorem reads_uuid (value : Chat.ProtocolUuid) : Reads readUuid value.toList value := by
  have hread := (reads_readBytes value.toList "UUID").map fun bytes =>
    (.ofFn fun i => bytes.getD i 0 : Chat.ProtocolUuid)
  have hvalue : (.ofFn fun i => value.toList.getD i 0 : Chat.ProtocolUuid) = value := by
    apply Vector.ext
    intro i hi
    have hlength : i < value.toList.length := by
      rw [Vector.length_toList]
      exact hi
    rw [Vector.getElem_ofFn, List.getD_eq_getElem?_getD, List.getElem?_eq_getElem hlength,
      Vector.getElem_toList]
    rfl
  rw [hvalue, Vector.length_toList] at hread
  exact hread

/-- A reader of NBT reads back what was encoded. -/
theorem reads_onReader {α : Type} {g : NbtError → PacketSchemaError} {decode : NbtM α} {value : α}
    (h : ∀ before rest, ∃ c, decode (.new ⟨before, bytes ++ rest⟩) = .ok value c ∧
      c.reader = ⟨before ++ bytes, rest⟩) : Reads (onReader g decode) bytes value := by
  intro before rest
  obtain ⟨c, hdecode, hreader⟩ := h before rest
  unfold onReader
  rw [hdecode]
  exact congrArg (Outcome.ok value) hreader

end Writer

/-! ### Codecs without a codec inside -/

section Layout
variable (layout : NbtLayout)

/-- What is written of a value, and how it is read back. -/
def Recovered (codec : FieldCodec) (value : PacketValue) (prior : List NamedPacketValue)
    (field : String) (depth : Nat) (out out' : Bytes) : Prop :=
  ∃ bytes, out' = out ++ bytes ∧
    Recovers (decodeValue layout codec prior field depth) bytes value (portionsOf codec value)

variable {codec : FieldCodec} {value : PacketValue} {prior : List NamedPacketValue} {field : String}
  {bytes out out' : Bytes} {depth : Nat}

theorem recovered_delimited {α : Type} {m : ReaderM α} {v : α} {g : α → PacketValue}
    (hportions : portionsOf codec (g v) = [.delimited])
    (hdecode : decodeValue layout codec prior field depth =
      atField field m >>= fun a => pure (g a))
    (hread : Reads m bytes v) (hempty : (m ⟨[], []⟩).value? = none) (hout : out' = out ++ bytes) :
    Recovered layout codec (g v) prior field depth out out' := by
  refine ⟨bytes, hout, ?_⟩
  rw [hdecode, hportions]
  have hnil := iff_of_false (hread.ne_nil hempty) Bool.false_ne_true
  exact ((hread.mapErr _).map g).recovers hnil

theorem recovered_nbt {α : Type} {encode : α → Outcome NbtError Budget Bytes} {decode : NbtM α}
    {decodeComplete : Bytes → Outcome NbtError DecodeContext α} {v : α} {g : α → PacketValue}
    (htrip : RoundTrips encode decode decodeComplete)
    (hportions : portionsOf codec (g v) = [.delimited])
    (hdecode : decodeValue layout codec prior field depth =
      onReader (.nbt field) decode >>= fun a => pure (g a))
    (hempty : (onReader (PacketSchemaError.nbt field) decode ⟨[], []⟩).value? = none)
    (h : writeNbt field (encode v) out = .ok () out') :
    Recovered layout codec (g v) prior field depth out out' := by
  obtain ⟨bytes, b, hencode, hout⟩ := writeNbt_eq_ok h
  have hread : Reads (onReader (PacketSchemaError.nbt field) decode) bytes v :=
    reads_onReader (htrip v bytes b hencode).2
  refine ⟨bytes, hout, ?_⟩
  rw [hdecode, hportions]
  exact (hread.map g).recovers (iff_of_false (hread.ne_nil hempty) Bool.false_ne_true)

/-- Remaining bytes come back where nothing is left after them. -/
theorem recovers_remainingBytes {max : Nat} (hdepth : depth ≤ maxFieldNesting)
    (hmax : bytes.length ≤ max) :
    Recovers (decodeValue layout (.remainingBytes max) prior field depth) bytes (.bytes bytes)
      [⟨true, bytes.isEmpty⟩] where
  empty := by
    rw [List.forall_mem_singleton]
    exact List.isEmpty_iff.symm
  reads before after r := by
    have hread : atField field readRemaining ⟨before, bytes ++ after⟩ =
        .ok (bytes ++ after) ⟨before ++ (bytes ++ after), []⟩ :=
      Mut.mapErr_eq_ok.mpr (reads_readRemaining before (bytes ++ after))
    rw [decodeValue, if_neg (Nat.not_lt.mpr hdepth), Mut.get_bind]
    constructor
    · intro h
      split at h
      · cases h
      · rw [Mut.bind_of_ok hread, Mut.ret_apply] at h
        obtain ⟨hvalue, hr⟩ := Outcome.ok.inj h
        have hafter : after = [] := List.append_right_eq_self.mp (PacketValue.bytes.inj hvalue)
        rw [hafter, List.append_nil] at hr
        refine ⟨⟨fun _ => ⟨?_, hafter⟩, trivial⟩, ?_⟩
        · exact fun _ hmem => absurd hmem List.not_mem_nil
        · rw [← hr, hafter]
    · rintro ⟨⟨hlast, -⟩, hr⟩
      obtain ⟨-, hafter⟩ := hlast rfl
      have hroom : ¬ (⟨before, bytes ++ after⟩ : CodecReader).remaining > max := by
        rw [CodecReader.remaining, hafter, List.append_nil]
        exact not_lt.mpr hmax
      rw [if_neg hroom, Mut.bind_of_ok hread, hr, hafter, List.append_nil]
      rfl

theorem encodeScalar_recovered (hdepth : depth ≤ maxFieldNesting) (prior : List NamedPacketValue)
    (h : encodeScalar layout codec value field out = .ok () out') :
    Recovered layout codec value prior field depth out out' := by
  have hdeep := Nat.not_lt.mpr hdepth
  obtain ⟨-, hroot, htag⟩ := nbt_roundTrips .default layout
  unfold encodeScalar at h
  split at h
  · exact recovered_delimited layout rfl (by rw [decodeValue, if_neg hdeep]) (reads_bool _) rfl
      (write_eq_ok.mp h)
  · exact recovered_delimited layout rfl (by rw [decodeValue, if_neg hdeep]) (reads_i8 _) rfl
      (write_eq_ok.mp h)
  · exact recovered_delimited layout rfl (by rw [decodeValue, if_neg hdeep]) (reads_u8 _) rfl
      (write_eq_ok.mp h)
  · exact recovered_delimited layout rfl (by rw [decodeValue, if_neg hdeep]) (reads_i16 _) rfl
      (write_eq_ok.mp h)
  · exact recovered_delimited layout rfl (by rw [decodeValue, if_neg hdeep]) (reads_u16 _) rfl
      (write_eq_ok.mp h)
  · exact recovered_delimited layout rfl (by rw [decodeValue, if_neg hdeep]) (reads_i32 _) rfl
      (write_eq_ok.mp h)
  · exact recovered_delimited layout rfl (by rw [decodeValue, if_neg hdeep]) (reads_u32 _) rfl
      (write_eq_ok.mp h)
  · exact recovered_delimited layout rfl (by rw [decodeValue, if_neg hdeep]) (reads_i64 _) rfl
      (write_eq_ok.mp h)
  · exact recovered_delimited layout rfl (by rw [decodeValue, if_neg hdeep]) (reads_u64 _) rfl
      (write_eq_ok.mp h)
  · exact recovered_delimited layout rfl (by rw [decodeValue, if_neg hdeep, readF32]) (reads_u32 _)
      rfl (write_eq_ok.mp h)
  · exact recovered_delimited layout rfl (by rw [decodeValue, if_neg hdeep, readF64]) (reads_u64 _)
      rfl (write_eq_ok.mp h)
  · exact recovered_delimited layout rfl (by rw [decodeValue, if_neg hdeep]) (reads_varInt _) rfl
      (write_eq_ok.mp h)
  · exact recovered_delimited layout rfl (by rw [decodeValue, if_neg hdeep]) (reads_varLong _) rfl
      (write_eq_ok.mp h)
  · obtain ⟨bytes, hbytes, hout⟩ := writeAtField_eq_ok.mp h
    exact recovered_delimited layout rfl (by rw [decodeValue, if_neg hdeep]) (reads_string hbytes) rfl
      hout
  · rename_i units max text
    obtain ⟨_, s, hcheck, hwrite⟩ := Mut.bind_eq_ok.mp h
    obtain ⟨rfl, hchecked⟩ := checkIdentifier_eq_ok hcheck
    obtain ⟨bytes, hbytes, hout⟩ := writeAtField_eq_ok.mp hwrite
    have hread := reads_string hbytes
    refine ⟨bytes, hout, ?_⟩
    rw [decodeValue, if_neg hdeep]
    refine Reads.recovers ((hread.mapErr _).bindNil (hchecked.nilBind (reads_pure _))) ?_
    exact iff_of_false (hread.ne_nil rfl) Bool.false_ne_true
  · exact recovered_delimited layout rfl (by rw [decodeValue, if_neg hdeep]) (reads_uuid _) rfl
      (write_eq_ok.mp h)
  · rename_i position
    obtain ⟨bytes, hbytes, hout⟩ := writeAtField_eq_ok.mp h
    rw [writeBlockPosition, BlockPosition.new_eq_ok position.x_fits position.y_fits position.z_fits]
      at hbytes
    cases hbytes
    exact recovered_delimited layout rfl (by rw [decodeValue, if_neg hdeep])
      (reads_blockPosition position) rfl hout
  · obtain ⟨bytes, hbytes, hout⟩ := writeAtField_eq_ok.mp h
    exact recovered_delimited layout rfl (by rw [decodeValue, if_neg hdeep]) (reads_byteArray hbytes)
      rfl hout
  · rename_i length bytes
    split at h
    · rename_i hlength
      have hread := reads_readBytes bytes "generated fixed bytes"
      rw [hlength] at hread
      refine ⟨bytes, write_eq_ok.mp h, ?_⟩
      rw [decodeValue, if_neg hdeep]
      exact Reads.recovers ((hread.mapErr _).map _) List.isEmpty_iff.symm
    · cases h
  · obtain ⟨bytes, hbytes, hout⟩ := writeAtField_eq_ok.mp h
    exact recovered_delimited layout rfl (by rw [decodeValue, if_neg hdeep]) (reads_bitSet hbytes)
      rfl hout
  · rename_i values value
    split at h
    · rename_i hvalue
      have hread := reads_varInt value
      refine ⟨_, write_eq_ok.mp h, ?_⟩
      rw [decodeValue, if_neg hdeep]
      refine Reads.recovers ((hread.mapErr _).bindNil ?_) ?_
      · have hsome : ¬ (values.lookup value).isNone := by
          rw [Option.isNone_iff_eq_none]
          exact Option.isSome_iff_ne_none.mp hvalue
        rw [if_neg hsome]
        exact reads_pure _
      · exact iff_of_false (hread.ne_nil rfl) Bool.false_ne_true
    · cases h
  · exact recovered_nbt layout hroot rfl (by rw [decodeValue, if_neg hdeep]) rfl h
  · exact recovered_nbt layout htag rfl (by rw [decodeValue, if_neg hdeep]) rfl h
  · exact recovered_nbt layout htag rfl (by rw [decodeValue, if_neg hdeep]) rfl h
  · rename_i max bytes
    split at h
    · rename_i hmax
      exact ⟨bytes, write_eq_ok.mp h, recovers_remainingBytes layout hdepth hmax⟩
    · cases h
  · cases h

/-! ### Codecs with codecs inside -/

/-- Whatever is encoded by an accepted codec is recovered, where its condition refers to a bool that
was met before. -/
def Recoverable (codec : FieldCodec) : Prop :=
  ∀ depth bools value all prior field out out', validateCodec codec depth bools = .ok () →
    (∀ name ∈ bools, Sees prior name) → prior <+: all →
    encodeValue layout codec value all field depth out = .ok () out' →
    Recovered layout codec value prior field depth out out'

variable (field) in
/-- A condition does not change when more values are there. -/
theorem priorBool_of_sees {all : List NamedPacketValue} {name : String} (h : Sees prior name)
    (hstart : prior <+: all) :
    ∃ b, priorBool prior name field = .ok b ∧ priorBool all name field = .ok b := by
  obtain ⟨more, rfl⟩ := hstart
  obtain ⟨b, hfind⟩ := h
  refine ⟨b, ?_, ?_⟩
  · unfold priorBool
    rw [hfind]
  · unfold priorBool
    rw [List.find?_append, hfind]
    rfl

theorem encodeItems_recovered {element : FieldCodec} {items : List PacketValue}
    (h : ∀ item ∈ items, ∀ out out', encodeValue layout element item [] field depth out = .ok () out' →
      Recovered layout element item [] field depth out out')
    (hitems : (items.forM fun item => encodeValue layout element item [] field depth) out =
      .ok () out') :
    ∃ encodings : List Bytes, out' = out ++ encodings.flatten ∧
      List.Forall₂ (fun item bytes => Recovers (decodeValue layout element [] field depth) bytes item
        (portionsOf element item)) items encodings := by
  induction items generalizing out with
  | nil =>
    cases hitems
    exact ⟨[], (List.append_nil _).symm, .nil⟩
  | cons item items ih =>
    obtain ⟨hitem, hrest⟩ := List.forall_mem_cons.mp h
    obtain ⟨_, s, hfirst, hlater⟩ := Mut.bind_eq_ok.mp hitems
    obtain ⟨bytes, rfl, hrecovers⟩ := hitem out s hfirst
    obtain ⟨encodings, hout, hrecovered⟩ := ih hrest hlater
    refine ⟨bytes :: encodings, ?_, .cons hrecovers hrecovered⟩
    rw [hout, List.flatten_cons, List.append_assoc]

/-- The values so far stay. -/
theorem decodeFieldsFrom_prefix (fields : List PacketField) :
    ∀ {values result : List NamedPacketValue} {depth : Nat} {s r : CodecReader},
      decodeFieldsFrom layout fields values depth s = .ok result r → values <+: result := by
  induction fields with
  | nil =>
    intro values result depth s r h
    cases h
    exact List.prefix_refl values
  | cons f fields ih =>
    obtain ⟨name, codec⟩ := f
    intro values result depth s r h
    rw [decodeFieldsFrom] at h
    obtain ⟨value, t, _, hrest⟩ := Mut.bind_eq_ok.mp h
    exact (List.prefix_append values [(name, value)]).trans (ih hrest)

theorem encodeFieldsFrom_recovered (fields : List PacketField)
    (hfields : ∀ f ∈ fields, Recoverable layout f.2) :
    ∀ depth names bools done rest out out', validateFieldsFrom fields depth names bools = .ok () →
      (∀ value ∈ done, value.1 ∈ names) → (∀ name ∈ bools, Sees done name) →
      fields.length = rest.length →
      encodeFieldsFrom layout fields rest (done ++ rest) depth out = .ok () out' →
      ∃ bytes, out' = out ++ bytes ∧ Recovers (decodeFieldsFrom layout fields done depth) bytes
        (done ++ rest) (portionsFrom fields rest) := by
  induction fields with
  | nil =>
    intro depth names bools done rest out out' _ _ _ hlength h
    obtain rfl := List.length_eq_zero_iff.mp hlength.symm
    cases h
    refine ⟨[], (List.append_nil _).symm, ?_⟩
    rw [List.append_nil]
    exact (reads_pure done).nothing
  | cons f fields ih =>
    intro depth names bools done rest out out' hvalid hnames hbools hlength h
    obtain ⟨name, codec⟩ := f
    obtain ⟨hfresh, hcodec, hrest⟩ := validateFieldsFrom_cons hvalid
    obtain ⟨hf, hfields⟩ := List.forall_mem_cons.mp hfields
    cases rest with
    | nil => cases hlength
    | cons value rest =>
      obtain ⟨name', value⟩ := value
      rw [encodeFieldsFrom] at h
      split at h
      · cases h
      rename_i hname
      have hname := not_not.mp hname
      subst hname
      obtain ⟨_, s, hvalue, hlater⟩ := Mut.bind_eq_ok.mp h
      have hall : ∀ other ∈ bools, Sees (done ++ (name, value) :: rest) other :=
        fun other hmem => (hbools other hmem).append _
      have hbool := encodeValue_clean layout codec (depth + 1) bools value _ name hcodec hall out
      rw [Mut.wp_of_ok hvalue] at hbool
      obtain ⟨bytes, rfl, hfirst⟩ := hf (depth + 1) bools value _ done name out s hcodec hbools
        (List.prefix_append _ _) hvalue
      have hsplit : done ++ (name, value) :: rest = (done ++ [(name, value)]) ++ rest := by
        rw [List.append_assoc, List.singleton_append]
      have hseen : ∀ other ∈ (if codec.isBool then name :: bools else bools),
          Sees (done ++ [(name, value)]) other := by
        refine sees_cons (fun other hmem => (hbools other hmem).append _) fun hisBool => ?_
        obtain ⟨b, rfl⟩ := hbool hisBool
        exact sees_fresh hfresh hnames []
      have hmet : ∀ value' ∈ done ++ [(name, value)], value'.1 ∈ name :: names := by
        intro value' hmem
        rcases List.mem_append.mp hmem with hold | hnew
        · exact List.mem_cons_of_mem name (hnames value' hold)
        · rw [List.mem_singleton.mp hnew]
          exact List.mem_cons_self
      rw [hsplit] at hlater ⊢
      obtain ⟨bytes', hout, hlast⟩ := ih hfields depth _ _ _ rest _ out' hrest hmet hseen
        (Nat.succ.inj hlength) hlater
      refine ⟨bytes ++ bytes', by rw [hout, List.append_assoc], ?_⟩
      rw [decodeFieldsFrom, portionsFrom]
      refine hfirst.bind hlast ?_
      intro value' t r hdecode
      obtain ⟨more, hmore⟩ := decodeFieldsFrom_prefix layout fields hdecode
      rw [List.append_assoc, List.append_assoc] at hmore
      have hhead := List.append_cancel_left hmore
      exact (Prod.mk.inj (List.cons.inj hhead).1).2

theorem encodeValue_absent {codec : FieldCodec} {all : List NamedPacketValue}
    (h : encodeValue layout codec .absent all field depth out = .ok () out') :
    ∃ reference equals inner, codec = .conditional reference equals inner := by
  rw [encodeValue.eq_def] at h
  split at h
  · cases h
  cases codec with
  | conditional reference equals inner => exact ⟨reference, equals, inner, rfl⟩
  | _ => cases h

/-- A value that is there is written as the codec inside writes it. -/
theorem portionsOf_conditional {reference : String} {equals : Bool} {inner : FieldCodec}
    {value : PacketValue} (hvalue : value ≠ .absent) :
    portionsOf (.conditional reference equals inner) value = portionsOf inner value := by
  cases value with
  | absent => exact absurd rfl hvalue
  | _ => rw [portionsOf]; nofun

/-- Without its condition only an absent value is encoded, as nothing. -/
theorem encodeValue_conditional {reference : String} {equals condition : Bool} {inner : FieldCodec}
    {value : PacketValue} {all : List NamedPacketValue} (hdepth : depth ≤ maxFieldNesting)
    (hall : priorBool all reference field = .ok condition)
    (h : encodeValue layout (.conditional reference equals inner) value all field depth out =
      .ok () out') :
    (value = .absent ∧ condition ≠ equals ∧ out' = out) ∨
      (condition = equals ∧ encodeValue layout inner value [] field (depth + 1) out = .ok () out') := by
  rw [encodeValue.eq_def, if_neg (Nat.not_lt.mpr hdepth)] at h
  cases value with
  | absent =>
    dsimp only at h
    rw [hall] at h
    replace h : (if condition ≠ equals then (pure () : EncodeM Unit)
      else encodeValue layout inner .absent [] field (depth + 1)) out = .ok () out' := h
    split at h
    · rename_i hne
      cases h
      exact Or.inl ⟨rfl, hne, rfl⟩
    · rename_i heq
      exact Or.inr ⟨not_not.mp heq, h⟩
  | _ =>
    obtain ⟨_, s, hcondition, hinner⟩ := Mut.bind_eq_ok.mp h
    obtain ⟨hread, rfl⟩ := Mut.ofExcept_eq_ok.mp hcondition
    obtain rfl := Except.ok.inj (hall.symm.trans hread)
    split at hinner
    · rename_i heq
      exact Or.inr ⟨heq, hinner⟩
    · cases hinner

/-- A condition that holds. -/
theorem conditional_recovered {reference : String} {equals : Bool} {inner : FieldCodec}
    {value : PacketValue} {bools : List String} (ih : Recoverable layout inner)
    (hvalid : validateCodec (.conditional reference equals inner) depth bools = .ok ())
    (hprior : priorBool prior reference field = .ok equals)
    (hinner : encodeValue layout inner value [] field (depth + 1) out = .ok () out') :
    Recovered layout (.conditional reference equals inner) value prior field depth out out' := by
  have hdepth := validateCodec_depth hvalid
  obtain ⟨_, hinnerValid⟩ := validateCodec_conditional hvalid
  have hvalue : value ≠ .absent := by
    rintro rfl
    obtain ⟨_, _, _, rfl⟩ := encodeValue_absent layout hinner
    exact absurd (validateCodec_conditional hinnerValid).1 List.not_mem_nil
  obtain ⟨bytes, hout, hrecovers⟩ := ih (depth + 1) [] value [] [] field out out' hinnerValid
    (fun _ hmem => absurd hmem List.not_mem_nil) (List.prefix_refl []) hinner
  refine ⟨bytes, hout, ?_⟩
  rw [decodeValue, if_neg (Nat.not_lt.mpr hdepth), hprior, portionsOf_conditional hvalue]
  change Recovers (if equals = equals then _ else _) _ _ _
  rw [if_pos rfl]
  exact hrecovers

theorem encodeValue_recovered (codec : FieldCodec) : Recoverable layout codec := by
  have hnil : ∀ name ∈ ([] : List String), Sees [] name := fun _ hmem => absurd hmem List.not_mem_nil
  induction codec using FieldCodec.induct with
  | list max element ih =>
    intro depth bools value all prior field out out' hvalid _ _ h
    have hdepth := validateCodec_depth hvalid
    rw [encodeValue.eq_def, if_neg (Nat.not_lt.mpr hdepth)] at h
    cases value with
    | list items =>
      dsimp only at h
      split at h
      · rename_i hmax
        obtain ⟨_, s, hcount, hitems⟩ := Mut.bind_eq_ok.mp h
        obtain ⟨hsize, rfl⟩ := writeCount_eq_ok hcount
        obtain ⟨encodings, hout, hrecovered⟩ := encodeItems_recovered layout
          (fun item _ out out' => ih (depth + 1) [] item [] [] field out out'
            (validateCodec_list hvalid) hnil (List.prefix_refl [])) hitems
        refine ⟨writeVarInt (.ofNat items.length) ++ encodings.flatten, ?_, ?_⟩
        · rw [hout, List.append_assoc]
        · rw [decodeValue, if_neg (Nat.not_lt.mpr hdepth), portionsOf]
          refine ((reads_readCount hmax hsize).delimited rfl).bind
            ((recovers_repeat hrecovered).map fun _ heq => PacketValue.list.inj heq) ?_
          intro count s r hdecode
          obtain ⟨decoded, t, hdecoded, hpure⟩ := Mut.bind_eq_ok.mp hdecode
          cases hpure
          exact (Mut.repeatCall_length count hdecoded).symm
      · cases h
    | _ => exact encodeScalar_recovered layout hdepth prior h
  | optional inner ih =>
    intro depth bools value all prior field out out' hvalid _ _ h
    have hdepth := validateCodec_depth hvalid
    rw [encodeValue.eq_def, if_neg (Nat.not_lt.mpr hdepth)] at h
    cases value with
    | optional value =>
      obtain ⟨_, s, hpresent, hinner⟩ := Mut.bind_eq_ok.mp h
      obtain rfl := write_eq_ok.mp hpresent
      cases value with
      | none =>
        cases hinner
        refine ⟨writeBool false, rfl, ?_⟩
        rw [decodeValue, if_neg (Nat.not_lt.mpr hdepth)]
        have hread := (reads_bool false).mapErr (PacketSchemaError.codec field)
        exact Reads.delimited (hread.bindNil (reads_pure _)) rfl
      | some value =>
        obtain ⟨bytes, rfl, hrecovers⟩ := ih (depth + 1) [] value [] [] field _ out'
          (validateCodec_optional hvalid) hnil (List.prefix_refl []) hinner
        refine ⟨writeBool true ++ bytes, by rw [List.append_assoc]; rfl, ?_⟩
        rw [decodeValue, if_neg (Nat.not_lt.mpr hdepth), portionsOf]
        have hread := (reads_bool true).mapErr (PacketSchemaError.codec field)
        refine (hread.delimited rfl).bind (hrecovers.map fun _ heq => ?_) ?_
        · exact Option.some.inj (PacketValue.optional.inj heq)
        · intro present s r hdecode
          cases present with
          | true => rfl
          | false => cases hdecode
    | _ => exact encodeScalar_recovered layout hdepth prior h
  | struct fields ih =>
    intro depth bools value all prior field out out' hvalid _ _ h
    have hdepth := validateCodec_depth hvalid
    rw [encodeValue.eq_def, if_neg (Nat.not_lt.mpr hdepth)] at h
    cases value with
    | struct values =>
      dsimp only [checkCount] at h
      split at h
      · cases h
      · rename_i hlength
        obtain ⟨bytes, hout, hrecovers⟩ := encodeFieldsFrom_recovered layout fields ih (depth + 1) [] []
          [] values out out' (validateCodec_struct hvalid) (fun _ hmem => absurd hmem List.not_mem_nil)
          hnil (not_not.mp hlength) h
        refine ⟨bytes, hout, ?_⟩
        rw [decodeValue, if_neg (Nat.not_lt.mpr hdepth), portionsOf]
        exact hrecovers.map fun _ heq => PacketValue.struct.inj heq
    | _ => exact encodeScalar_recovered layout hdepth prior h
  | conditional reference equals inner ih =>
    intro depth bools value all prior field out out' hvalid hbools hstart h
    have hdepth := validateCodec_depth hvalid
    obtain ⟨hreference, _⟩ := validateCodec_conditional hvalid
    obtain ⟨condition, hprior, hall⟩ := priorBool_of_sees field
      (hbools reference hreference) hstart
    rcases encodeValue_conditional layout hdepth hall h with ⟨rfl, hne, rfl⟩ | ⟨rfl, hinner⟩
    · refine ⟨[], (List.append_nil _).symm, ?_⟩
      have hread : Reads (if condition = equals then decodeValue layout inner [] field (depth + 1)
          else pure PacketValue.absent) [] .absent := by
        rw [if_neg hne]
        exact reads_pure _
      rw [decodeValue, if_neg (Nat.not_lt.mpr hdepth), hprior]
      exact hread.nothing
    · exact conditional_recovered layout ih hvalid hprior hinner
  | _ =>
    intro depth bools value all prior field out out' hvalid _ _ h
    have hdepth := validateCodec_depth hvalid
    rw [encodeValue.eq_def, if_neg (Nat.not_lt.mpr hdepth)] at h
    exact encodeScalar_recovered layout hdepth prior h

theorem encodeFields_recovered {fields : List PacketField} {values : List NamedPacketValue}
    (hvalid : validateFields fields 0 = .ok ())
    (h : encodeFields layout fields values 0 out = .ok () out') :
    ∃ bytes, out' = out ++ bytes ∧
      Recovers (decodeFields layout fields 0) bytes values (portionsFrom fields values) := by
  unfold encodeFields checkCount at h
  split at h
  · cases h
  · rename_i hlength
    exact encodeFieldsFrom_recovered layout fields (fun f _ => encodeValue_recovered layout f.2) 0 [] []
      [] values out out' (checkFields_eq_ok hvalid) (fun _ hmem => absurd hmem List.not_mem_nil)
      (fun _ hmem => absurd hmem List.not_mem_nil) (not_not.mp hlength) h

/-! ### The registry -/

section Index
variable {κ : Type} [DecidableEq κ] {key : PacketDefinition → κ}

theorem indexBy_of_not_mem (packets : List PacketDefinition) {k : κ} :
    ∀ {index : Nat} {map : κ → Option Nat}, (∀ packet ∈ packets, key packet ≠ k) →
      indexBy key packets index map k = map k := by
  induction packets with
  | nil => exact fun _ => rfl
  | cons packet rest ih =>
    intro index map h
    obtain ⟨hpacket, hrest⟩ := List.forall_mem_cons.mp h
    rw [indexBy, ih hrest, if_neg hpacket.symm]

variable (key) in
/-- A packet is found under its key, if no other has it. -/
theorem indexBy_of_distinct (packets : List PacketDefinition) :
    ∀ (index : Nat) (map : κ → Option Nat) {i : Nat} {packet : PacketDefinition},
      packets.Pairwise (fun a b => key a ≠ key b) → packets[i]? = some packet →
      indexBy key packets index map (key packet) = some (index + i) := by
  induction packets with
  | nil =>
    intro index map i packet _ hget
    cases hget
  | cons first rest ih =>
    intro index map i packet hdistinct hget
    obtain ⟨hfirst, hrest⟩ := List.pairwise_cons.mp hdistinct
    rw [indexBy]
    cases i with
    | zero =>
      obtain rfl := Option.some.inj hget
      rw [indexBy_of_not_mem rest fun other hmem => (hfirst other hmem).symm, if_pos rfl]
      rfl
    | succ i =>
      rw [ih _ _ hrest hget, Nat.add_assoc, Nat.add_comm 1]

end Index

/-- No two packets share an id or an identity in one state and direction. -/
structure Distinct (a b : PacketDefinition) : Prop where
  id : (a.state, a.direction, a.id) ≠ (b.state, b.direction, b.id)
  identity : (a.state, a.direction, a.identity) ≠ (b.state, b.direction, b.identity)

theorem validatePackets_distinct {packets : List PacketDefinition} :
    ∀ {seen : List PacketDefinition}, validatePackets packets seen = .ok () →
      packets.Pairwise Distinct ∧ (∀ packet ∈ packets, packet.id.toNat ≤ i32Max) ∧
        ∀ prior ∈ seen, ∀ packet ∈ packets, Distinct prior packet := by
  induction packets with
  | nil =>
    intro seen _
    refine ⟨.nil, ?_, ?_⟩
    · exact fun _ hmem => absurd hmem List.not_mem_nil
    · exact fun _ _ _ hmem => absurd hmem List.not_mem_nil
  | cons packet rest ih =>
    intro seen h
    rw [validatePackets] at h
    split at h
    · cases h
    split at h
    · cases h
    rename_i hid
    split at h
    · cases h
    rename_i hids
    split at h
    · cases h
    rename_i hidentities
    obtain ⟨_, _, hrest⟩ := Mut.except_bind_eq_ok.mp h
    obtain ⟨hdistinct, hsize, hseen⟩ := ih hrest
    obtain ⟨hpacket, hprior⟩ := List.forall_mem_cons.mp hseen
    refine ⟨.cons hpacket hdistinct, List.forall_mem_cons.mpr ⟨not_lt.mp hid, hsize⟩, ?_⟩
    intro prior hmem
    refine List.forall_mem_cons.mpr ⟨⟨?_, ?_⟩, hprior prior hmem⟩
    · intro heq
      apply hids
      apply List.any_eq_true.mpr
      obtain ⟨hstate, hrest⟩ := Prod.mk.inj heq
      obtain ⟨hdirection, hsame⟩ := Prod.mk.inj hrest
      exact ⟨prior, hmem, by rw [hstate, hdirection, hsame]; simp⟩
    · intro heq
      apply hidentities
      apply List.any_eq_true.mpr
      obtain ⟨hstate, hrest⟩ := Prod.mk.inj heq
      obtain ⟨hdirection, hsame⟩ := Prod.mk.inj hrest
      exact ⟨prior, hmem, by rw [hstate, hdirection, hsame]; simp⟩

theorem packets_distinct {artifact : PacketSchemaArtifact} (h : validateArtifact artifact = .ok ()) :
    artifact.packets.Pairwise Distinct ∧ ∀ packet ∈ artifact.packets, packet.id.toNat ≤ i32Max := by
  unfold validateArtifact at h
  split at h
  · cases h
  split at h
  · cases h
  obtain ⟨_, _, hpackets⟩ := Mut.except_bind_eq_ok.mp h
  obtain ⟨hdistinct, hsize, -⟩ := validatePackets_distinct hpackets
  exact ⟨hdistinct, hsize⟩

variable {artifact : PacketSchemaArtifact} {registry : PacketRegistry} {definition : PacketDefinition}
  {fields : List PacketField}

theorem definitionAt_some {σ : Type} {i : Nat} {state : σ}
    (hget : registry.artifact.packets[i]? = some definition) :
    registry.definitionAt (some i) state = .ok (some definition) state := by
  have hindex : (Mut.index registry.artifact.packets i : Mut σ PacketSchemaError _) state =
      .ok definition state := by
    unfold Mut.index
    rw [hget]
    rfl
  exact Mut.bind_of_ok hindex

/-- Both maps of the registry lead to the definition. -/
theorem registry_finds (hvalid : validateArtifact artifact = .ok ())
    (hnew : PacketRegistry.new artifact = .ok registry) (hmem : definition ∈ artifact.packets) :
    ∃ i, registry.artifact.packets[i]? = some definition ∧
      registry.byId (definition.state, definition.direction, definition.id) = some i ∧
      registry.byIdentity (definition.state, definition.direction, definition.identity) = some i := by
  obtain ⟨hdistinct, -⟩ := packets_distinct hvalid
  unfold PacketRegistry.new at hnew
  rw [hvalid] at hnew
  cases hnew
  obtain ⟨i, hget⟩ := List.mem_iff_getElem?.mp hmem
  refine ⟨i, hget, ?_, ?_⟩
  · have hfound := indexBy_of_distinct (fun packet => (packet.state, packet.direction, packet.id))
      artifact.packets 0 (fun _ => none) (hdistinct.imp Distinct.id) hget
    rw [Nat.zero_add] at hfound
    exact hfound
  · have hfound := indexBy_of_distinct
      (fun packet => (packet.state, packet.direction, packet.identity)) artifact.packets 0
      (fun _ => none) (hdistinct.imp Distinct.identity) hget
    rw [Nat.zero_add] at hfound
    exact hfound

theorem encode_eq_ok {values : List NamedPacketValue} {i : Nat}
    (hlayout : definition.layout = .fields fields)
    (hget : registry.artifact.packets[i]? = some definition)
    (hidentity : registry.byIdentity (definition.state, definition.direction, definition.identity) =
      some i)
    (h : registry.encode layout definition.state definition.direction definition.identity values =
      .ok bytes out) :
    encodeFields layout fields values 0 (writeVarInt (.ofNat definition.id.toNat)) = .ok () bytes := by
  unfold PacketRegistry.encode PacketRegistry.encodeTo at h
  rw [hidentity, Mut.bind_of_ok (definitionAt_some hget)] at h
  dsimp only at h
  rw [hlayout] at h
  dsimp only at h
  split at h
  · cases h
  · obtain ⟨_, s, hid, hrest⟩ := Mut.bind_eq_ok.mp h
    obtain rfl := write_eq_ok.mp hid
    obtain ⟨_, t, hfields, hget⟩ := Mut.bind_eq_ok.mp hrest
    cases hget
    exact hfields

theorem decode_eq_ok {values : List NamedPacketValue} {i : Nat} {payload : Bytes} {r : CodecReader}
    (hlayout : definition.layout = .fields fields)
    (hget : registry.artifact.packets[i]? = some definition)
    (hid : registry.byId (definition.state, definition.direction, definition.id) = some i) :
    registry.decode layout definition.state definition.direction definition.id payload =
        .ok ⟨definition, values⟩ r ↔
      decodeFields layout fields 0 (.new payload) = .ok values r ∧ r.remaining = 0 := by
  unfold PacketRegistry.decode PacketRegistry.decodeFrom
  rw [hid, Mut.bind_of_ok (definitionAt_some hget)]
  dsimp only
  rw [hlayout]
  dsimp only
  rw [Mut.bind_eq_ok]
  constructor
  · intro ⟨decoded, s, hdecoded, h⟩
    rw [Mut.get_bind] at h
    split at h
    · cases h
    · rename_i hremaining
      cases h
      exact ⟨hdecoded, not_not.mp hremaining⟩
  · intro ⟨hdecoded, hremaining⟩
    refine ⟨values, r, hdecoded, ?_⟩
    rw [Mut.get_bind, if_neg (not_not_intro hremaining)]
    rfl

/-- What was encoded is split into the id and a payload that is decoded to the same values. -/
def GivesBack (registry : PacketRegistry) (definition : PacketDefinition)
    (values : List NamedPacketValue) (bytes : Bytes) : Prop :=
  ∃ raw r, splitRawPacket bytes = .ok raw ∧ raw.id.toInt = definition.id.toNat ∧
    registry.decode layout definition.state definition.direction definition.id raw.payload =
      .ok ⟨definition, values⟩ r

theorem splitRawPacket_append {id : Int32} {payload : Bytes} :
    splitRawPacket (writeVarInt id ++ payload) = .ok ⟨id, payload⟩ := by
  have hread := reads_varInt id [] payload
  unfold splitRawPacket
  rw [show CodecReader.new (writeVarInt id ++ payload) = ⟨[], writeVarInt id ++ payload⟩ from rfl, hread]

/-- The packets of an accepted schema come back just where nothing is written after remaining
bytes. -/
theorem givesBack_iff_restLast (hvalid : validateArtifact artifact = .ok ()) :
    ∃ registry, PacketRegistry.new artifact = .ok registry ∧
      ∀ definition ∈ artifact.packets, ∀ fields, definition.layout = .fields fields →
        ∀ values bytes out,
          registry.encode layout definition.state definition.direction definition.identity values =
            .ok bytes out →
          (GivesBack layout registry definition values bytes ↔ RestLast fields values) := by
  obtain ⟨registry, hnew, -⟩ := new_of_validateArtifact hvalid
  refine ⟨registry, hnew, ?_⟩
  intro definition hmem fields hlayout values bytes out hencode
  obtain ⟨i, hget, hid, hidentity⟩ := registry_finds hvalid hnew hmem
  have hfields := encode_eq_ok layout hlayout hget hidentity hencode
  obtain ⟨payload, rfl, hrecovers⟩ :=
    encodeFields_recovered layout (accepted_fields hvalid hmem hlayout) hfields
  have hsize := (packets_distinct hvalid).2 definition hmem
  have hreads := hrecovers.reads [] []
  rw [List.append_nil] at hreads
  constructor
  · intro ⟨raw, r, hsplit, _, hdecode⟩
    rw [splitRawPacket_append] at hsplit
    cases hsplit
    obtain ⟨hdecoded, _⟩ := (decode_eq_ok layout hlayout hget hid).mp hdecode
    exact ((hreads r).mp hdecoded).1
  · intro hlast
    refine ⟨_, ⟨[] ++ payload, []⟩, splitRawPacket_append, toInt_ofNat_i32 hsize, ?_⟩
    exact (decode_eq_ok layout hlayout hget hid).mpr ⟨(hreads _).mpr ⟨hlast, rfl⟩, rfl⟩

end Layout

/-- Remaining bytes at the end, and not at the end. -/
def payloadPacket : PacketDefinition where
  state := .play
  direction := .serverbound
  identity := ⟨"minecraft:custom_payload", by decide⟩
  id := 7
  layout := .fields [("present", .bool), ("data", .conditional "present" true (.remainingBytes 4))]

def flaggedPacket : PacketDefinition where
  state := .play
  direction := .serverbound
  identity := ⟨"minecraft:flagged_payload", by decide⟩
  id := 9
  layout := .fields [("data", .remainingBytes 4), ("flag", .u8)]

def payloadArtifact : PacketSchemaArtifact where
  schemaVersion := 1
  supplemental := none
  packets := [payloadPacket, flaggedPacket]

theorem givesBack_payload : ∃ registry, PacketRegistry.new payloadArtifact = .ok registry ∧
    GivesBack ⟨24, 32⟩ registry payloadPacket [("present", .bool true), ("data", .bytes [5, 6])]
      [7, 1, 5, 6] := by
  obtain ⟨registry, hnew, hiff⟩ :=
    givesBack_iff_restLast ⟨24, 32⟩ (show validateArtifact payloadArtifact = .ok () from rfl)
  have hregistry : PacketRegistry.new payloadArtifact = .ok _ := rfl
  obtain rfl := Except.ok.inj (hregistry.symm.trans hnew)
  exact ⟨_, hnew, (hiff payloadPacket List.mem_cons_self _ rfl _ _ [7, 1, 5, 6] rfl).mpr (by decide)⟩

/-- The flag is read as the last of the remaining bytes. -/
theorem payload_swallows_flag : validateArtifact payloadArtifact = .ok () ∧
    ∃ registry, PacketRegistry.new payloadArtifact = .ok registry ∧
      registry.encode ⟨24, 32⟩ .play .serverbound flaggedPacket.identity
          [("data", .bytes [1]), ("flag", .u8 2)] = .ok [9, 1, 2] [9, 1, 2] ∧
      splitRawPacket [9, 1, 2] = .ok ⟨9, [1, 2]⟩ ∧
      (registry.decode ⟨24, 32⟩ .play .serverbound 9 [1, 2]).result? =
        some (.error (.codec "flag" (.unexpectedEnd "u8" 1 0))) := by
  refine ⟨rfl, _, rfl, ?_, ?_, ?_⟩
  · rfl
  · rfl
  · rfl

end Cubic.Schema
