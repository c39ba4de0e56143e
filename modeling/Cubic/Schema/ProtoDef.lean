import Cubic.Lib.Depth
import Cubic.Schema.Definition

/-!
# ProtoDef types (`packet_schema/protodef.rs`)

The source's recursion has no bound of its own. Here a call of `codec` is given how many calls may
nest in it, and panics where they are more.
-/

namespace Cubic.Schema

set_option autoImplicit false

def defaultStringUtf16Units : Nat := 32767
def defaultStringBytes : Nat := 131068
def defaultCollectionItems : Nat := 65535
def defaultRemainingBytes : Nat := 2 * 1024 * 1024

/-- A `serde_json::Number`. -/
inductive JsonNumber where
  | posInt (value : UInt64)
  | negInt (value : Int64)
  | float (bits : UInt64)

/-- The entries of an object are those of the map in the order of their keys. -/
inductive StrictJson where
  | null
  | bool
  | number (value : JsonNumber)
  | string (value : String)
  | array (values : List StrictJson)
  | object (entries : List (String × StrictJson))

abbrev JsonEntries := List (String × StrictJson)

/-- What the resolver reads types from. -/
structure TypeMaps where
  globalTypes : OrderedMap String StrictJson
  localTypes : OrderedMap String StrictJson

/-- The state of a resolver is the set of its active names. -/
abbrev Resolving := Mut (OrderedSet String) UnsupportedLayoutReason

def boundedSourceLabel (value : String) : String := String.ofList (value.toList.take 128)

def unsupported (value : String) : UnsupportedLayoutReason :=
  .unsupportedCodecConstruct (boundedSourceLabel value)

def unsupportedConditional (value : String) : UnsupportedLayoutReason :=
  .unsupportedConditionalConstruct (boundedSourceLabel value)

namespace StrictJson

def asStr : StrictJson → Option String
  | string value => some value
  | _ => none

def asU64 : StrictJson → Option UInt64
  | number (.posInt value) => some value
  | _ => none

def objectLayout (context : String) : StrictJson → Except UnsupportedLayoutReason JsonEntries
  | object entries => .ok entries
  | _ => .error (unsupported context)

def arrayLayout (context : String) : StrictJson → Except UnsupportedLayoutReason (List StrictJson)
  | array values => .ok values
  | _ => .error (unsupported context)

end StrictJson

def getStr (entries : JsonEntries) (key : String) : Option String :=
  (Entries.lookup key entries).bind StrictJson.asStr

def orUnsupported {α : Type} (o : Option α) (reason : UnsupportedLayoutReason) :
    Except UnsupportedLayoutReason α :=
  match o with
  | some a => .ok a
  | none => .error reason

/-! ### Names and numbers -/

/-- The loop of `snake_case`; `prior` is the byte before those left. -/
def snakeFrom (prior : Option Char) (output : List Char) : List Char → Option (List Char)
  | [] => some output
  | byte :: rest =>
    if byte.isUpper then
      let priorIsLowerOrDigit := prior.any fun c => c.isLower || c.isDigit
      let acronymBoundary := prior.any Char.isUpper && rest.head?.any Char.isLower
      let output :=
        if (priorIsLowerOrDigit || acronymBoundary) && output.getLast? ≠ some '_' then
          output ++ ['_']
        else output
      snakeFrom (some byte) (output ++ [byte.toLower]) rest
    else if byte.isLower || byte.isDigit || byte = '_' then
      snakeFrom (some byte) (output ++ [byte]) rest
    else none

def snakeCase (value : String) : Except UnsupportedLayoutReason String :=
  if value.isEmpty ∨ 128 < value.utf8ByteSize ∨ ¬ value.toList.all fun c => c.toNat < 128 then
    .error (unsupported "field or enum name")
  else match snakeFrom none [] value.toList with
    | some output => .ok (String.ofList output)
    | none => .error (unsupported "field or enum name")

/-- `char::to_digit` -/
def toDigit (radix : Nat) (c : Char) : Option Nat :=
  let digit :=
    if c.isDigit then c.toNat - '0'.toNat
    else if c.isLower then c.toNat - 'a'.toNat + 10
    else if c.isUpper then c.toNat - 'A'.toNat + 10
    else radix
  if digit < radix then some digit else none

/-- `i32::from_str_radix` -/
def i32FromStrRadix (radix : Nat) (value : List Char) : Option Int32 :=
  let negative := value.head? = some '-'
  let digits := if negative ∨ value.head? = some '+' then value.tail else value
  if digits.isEmpty then none
  else match digits.mapM (toDigit radix) with
    | none => none
    | some digits =>
      let n : Int := digits.foldl (fun n digit => n * radix + digit) 0
      let n := if negative then -n else n
      if Int32.minValue.toInt ≤ n ∧ n ≤ Int32.maxValue.toInt then some (.ofInt n) else none

def parseI32 (value : String) : Option Int32 :=
  match value.toList with
  | '0' :: 'x' :: hex => i32FromStrRadix 16 hex
  | digits => i32FromStrRadix 10 digits

/-! ### Codecs without a type of their own -/

/-- The names that `named_codec` knows. -/
def primitives : List (String × FieldCodec) :=
  [("bool", .bool), ("i8", .i8), ("u8", .u8), ("i16", .i16), ("u16", .u16), ("i32", .i32),
    ("u32", .u32), ("i64", .i64), ("u64", .u64), ("f32", .f32), ("f64", .f64),
    ("varint", .varInt), ("optvarint", .varInt), ("varlong", .varLong),
    ("string", .string defaultStringUtf16Units defaultStringBytes),
    ("pstring", .string defaultStringUtf16Units defaultStringBytes), ("UUID", .uuid),
    ("position", .position), ("anonymousNbt", .nbtTag),
    ("restBuffer", .remainingBytes defaultRemainingBytes)]

def bufferCodec (payload : StrictJson) : Except UnsupportedLayoutReason FieldCodec := do
  let options ← payload.objectLayout "buffer options"
  if getStr options "countType" = some "varint" then .ok (.byteArray defaultRemainingBytes)
  else match (Entries.lookup "count" options).bind StrictJson.asU64 with
    | some length => .ok (.fixedBytes length.toNat)
    | none => .error (unsupported "buffer length")

def mapperValues : JsonEntries → OrderedMap Int32 String →
    Except UnsupportedLayoutReason (OrderedMap Int32 String)
  | [], values => .ok values
  | (raw, label) :: rest, values => do
    let discriminant ← orUnsupported (parseI32 raw) (unsupported "mapper discriminant")
    let text ← orUnsupported label.asStr (unsupported "non-string mapper label")
    let label ← snakeCase text
    if (values.lookup discriminant).isSome then .error (unsupported "duplicate mapper discriminant")
    else mapperValues rest (values.insert discriminant label)

def mapperCodec (payload : StrictJson) : Except UnsupportedLayoutReason FieldCodec := do
  let options ← payload.objectLayout "mapper options"
  if getStr options "type" ≠ some "varint" then .error (unsupported "non-VarInt mapper")
  else do
    let value ← orUnsupported (Entries.lookup "mappings" options)
      (unsupported "mapper without mappings")
    let mappings ← value.objectLayout "mapper mappings"
    let values ← mapperValues mappings .empty
    if values.entries.isEmpty then .error (unsupported "empty mapper") else .ok (.enum values)

/-- The one case of a switch that is not void, and for which value it is. -/
def switchCase (cases : JsonEntries) : Except UnsupportedLayoutReason (Bool × StrictJson) :=
  match Entries.lookup "true" cases, Entries.lookup "false" cases with
  | some value, none => .ok (true, value)
  | none, some value => .ok (false, value)
  | some value, some other =>
    if other.asStr = some "void" then .ok (true, value)
    else if value.asStr = some "void" then .ok (false, other)
    else .error (unsupportedConditional "non-Boolean or two-valued switch")
  | none, none => .error (unsupportedConditional "non-Boolean or two-valued switch")

/-- `value.rsplit('/').next()` -/
def lastSegment (value : String) : String :=
  String.ofList (value.toList.reverse.takeWhile (· ≠ '/')).reverse

/-- What a switch compares, and its case. -/
def switchOptions (payload : StrictJson) :
    Except UnsupportedLayoutReason (String × Bool × StrictJson) := do
  let options ← payload.objectLayout "switch options"
  if (Entries.lookup "default" options).isSome then
    .error (unsupportedConditional "switch with default")
  else do
    let compared ← orUnsupported (getStr options "compareTo")
      (unsupportedConditional "switch without compareTo")
    let field ← snakeCase (lastSegment compared)
    let cases ← orUnsupported (Entries.lookup "fields" options)
      (unsupportedConditional "switch without fields")
    let cases ← cases.objectLayout "switch fields"
    let (equals, value) ← switchCase cases
    .ok (field, equals, value)

/-! ### Codecs with types of their own -/

def TypeMaps.get (types : TypeMaps) (name : String) : Option StrictJson :=
  (types.localTypes.lookup name).or (types.globalTypes.lookup name)

section
variable (types : TypeMaps) (resolve : StrictJson → Resolving FieldCodec)

/-- The loop of `fields`. -/
def fieldsFrom : List StrictJson → OrderedSet String → List PacketField →
    Resolving (List PacketField)
  | [], _, fields => pure fields
  | value :: rest, names, fields => do
    let object ← Mut.ofExcept (value.objectLayout "container field")
    let rawName ← Mut.okOr (getStr object "name") (unsupported "field without a string name")
    let name ← Mut.ofExcept (snakeCase rawName)
    if (names.lookup name).isSome then Mut.fail (unsupported "duplicate normalized field name")
    else do
      let type ← Mut.okOr (Entries.lookup "type" object) (unsupported "field without a type")
      let codec ← resolve type
      fieldsFrom rest (names.insert name ()) (fields ++ [(name, codec)])

def arrayCodec (payload : StrictJson) : Resolving FieldCodec := do
  let options ← Mut.ofExcept (payload.objectLayout "array options")
  if getStr options "countType" ≠ some "varint" then Mut.fail (unsupported "non-VarInt array length")
  else do
    let element ← Mut.okOr (Entries.lookup "type" options) (unsupported "array without element type")
    let codec ← resolve element
    pure (.list defaultCollectionItems codec)

def switchCodec (payload : StrictJson) : Resolving FieldCodec := do
  let (field, equals, value) ← Mut.ofExcept (switchOptions payload)
  let codec ← resolve value
  pure (.conditional field equals codec)

/-- The name is active while its definition is resolved; where it has none, it stays so. -/
def namedCodec (name : String) : Resolving FieldCodec :=
  if name = "void" then Mut.fail (unsupported "void field")
  else match primitives.lookup name with
    | some codec => pure codec
    | none => do
      let active ← Mut.get
      if (active.lookup name).isSome then Mut.fail (unsupported "recursive named codec")
      else do
        Mut.set (active.insert name ())
        let definition ← Mut.okOr (types.get name) (unsupported name)
        let result ← Mut.attempt (resolve definition)
        Mut.modify fun active => active.remove name
        Mut.ofExcept result

def containerCodec (payload : StrictJson) : Resolving FieldCodec := do
  let values ← Mut.ofExcept (payload.arrayLayout "nested container")
  let fields ← fieldsFrom resolve values .empty []
  pure (.struct fields)

def optionCodec (payload : StrictJson) : Resolving FieldCodec := do
  let codec ← resolve payload
  pure (.optional codec)

def taggedCodec (tag : String) (payload : StrictJson) : Resolving FieldCodec :=
  if tag = "container" then containerCodec resolve payload
  else if tag = "option" then optionCodec resolve payload
  else if tag = "array" then arrayCodec resolve payload
  else if tag = "buffer" then Mut.ofExcept (bufferCodec payload)
  else if tag = "mapper" then Mut.ofExcept (mapperCodec payload)
  else if tag = "switch" then switchCodec resolve payload
  else Mut.fail (unsupported tag)

/-- The tag and the payload of `["tag", payload]`. -/
def taggedParts : StrictJson → Except UnsupportedLayoutReason (String × StrictJson)
  | .array [tag, payload] => do
    let tag ← orUnsupported tag.asStr (unsupported "non-string codec tag")
    .ok (tag, payload)
  | .array _ => .error (unsupported "malformed tagged codec")
  | _ => .error (unsupported "tagged codec")

def codecStep (value : StrictJson) : Resolving FieldCodec :=
  match value.asStr with
  | some name => namedCodec types resolve name
  | none => do
    let (tag, payload) ← Mut.ofExcept (taggedParts value)
    taggedCodec resolve tag payload

end

/-- `codec`, with so many calls of it nested at most. -/
def codec (types : TypeMaps) : Nat → StrictJson → Resolving FieldCodec
  | 0, _ => Mut.fault
  | depth + 1, value => codecStep types (codec types depth) value

def taggedPayloadLayout (value : StrictJson) (expected : String) :
    Except UnsupportedLayoutReason StrictJson :=
  match value with
  | .array [tag, payload] =>
    if tag.asStr = some expected then .ok payload else .error (unsupported expected)
  | .array _ => .error (unsupported expected)
  | _ => .error (unsupported "tagged source codec")

def packetLayout (types : TypeMaps) (depth : Nat) (value : StrictJson) :
    Resolving (List PacketField) :=
  if value.asStr = some "void" then pure []
  else do
    let payload ← Mut.ofExcept (taggedPayloadLayout value "container")
    let values ← Mut.ofExcept (payload.arrayLayout "packet container")
    fieldsFrom (codec types depth) values .empty []

end Cubic.Schema
