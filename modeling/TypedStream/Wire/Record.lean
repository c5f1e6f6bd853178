import TypedStream.Wire.Primitive
import TypedStream.Wire.Schema

namespace TypedStream.Wire

inductive Error where
  | size (fields values : Nat)
  | unsupported (name : Text)
  | unexpectedNull (name : Text)
  | mismatch (value : Value) (kind : Kind) (name : Text)
  | tag (e : ParseError)
  | skipped (number : Nat) (e : ParseError)
  | form (name : Text) (actual expected : Nat)
  | field (name : Text) (e : ParseError)
  | range (value : Int) (name : Text)
  | missing (name : Text)
  | defect (d : Defect)

def Error.message : Error → Text
  | size fields values =>
    utf8 "record has " ++ Text.ofNat fields ++ utf8 " fields, got " ++ Text.ofNat values ++
      utf8 " values"
  | unsupported name => utf8 "field " ++ name ++ utf8 " has no wire representation"
  | unexpectedNull name => utf8 "null value for non-nullable field " ++ name
  | mismatch v kind name =>
    utf8 "value " ++ v.shown ++ utf8 " doesn't match " ++ kind.name ++ utf8 " field " ++ name
  | tag e => utf8 "couldn't parse field tag: " ++ e.message
  | skipped number e =>
    utf8 "couldn't skip unknown field " ++ Text.ofNat number ++ utf8 ": " ++ e.message
  | form name actual expected =>
    utf8 "field " ++ name ++ utf8 " has wire type " ++ Text.ofNat actual ++ utf8 ", expected " ++
      Text.ofNat expected
  | field name e => utf8 "couldn't parse field " ++ name ++ utf8 ": " ++ e.message
  | range i name =>
    utf8 "value " ++ Text.ofInt i ++ utf8 " of field " ++ name ++ utf8 " is out of int32 range"
  | missing name => utf8 "missing value of non-nullable field " ++ name
  | defect d => d.message

/-- The form of the values of a kind. -/
def Kind.form? : Kind → Option Form
  | bool | int32 | int64 => some .varint
  | float32 => some .fixed32
  | float64 => some .fixed64
  | string => some .bytes
  | unsupported | unknown _ => none

/-- The bytes of a value without its tag. -/
def encodeValue : Value → Text
  | .boolean b => encodeVarint (if b then 1 else 0)
  | .int i => encodeVarint (zigzag i)
  | .bigint i => encodeVarint (zigzag i)
  | .float x => littleEndian 4 x.narrow.bits.toNat
  | .double x => littleEndian 8 x.bits.toNat
  | .string t => encodeVarint t.length.toUInt64 ++ t
  | _ => []

/-- The bytes of one value, nothing for null. -/
def encodeField (number : Nat) (field : FieldSchema) (v : Value) : Except Error Text :=
  if field.kind = .unsupported then .error (.unsupported field.name)
  else if v.isNull then
    if field.nullable then .ok [] else .error (.unexpectedNull field.name)
  else if v.kind ≠ .scalar field.kind.scalar then .error (.mismatch v field.kind field.name)
  else match field.kind.form? with
    | some form => .ok (encodeTag number form ++ encodeValue v)
    | none => .error (.defect .unknownWireKind)

def encodeFrom (number : Nat) : List FieldSchema → List Value → Except Error Text
  | field :: fields, v :: vs => do
    let first ← encodeField number field v
    let others ← encodeFrom (number + 1) fields vs
    return first ++ others
  | _, _ => .ok []

def encode (fields : List FieldSchema) (values : List Value) : Except Error Text :=
  if fields.length ≠ values.length then .error (.size fields.length values.length)
  else encodeFrom 1 fields values

/-- Reads a value of a kind, after its tag. -/
def readValue (name : Text) (kind : Kind) (data : Text) : Except Error (Value × Text) := do
  let parsed {α : Type} (x : Except ParseError α) : Except Error α := x.mapError (.field name)
  match kind with
  | .bool =>
    let (n, rest) ← parsed (readVarint data)
    return (.boolean (n != 0), rest)
  | .int32 =>
    let (n, rest) ← parsed (readVarint data)
    let i := unzigzag n
    if i < -2147483648 ∨ 2147483647 < i then throw (.range i name)
    return (.int (Int64.ofInt i), rest)
  | .int64 =>
    let (n, rest) ← parsed (readVarint data)
    return (.bigint (Int64.ofInt (unzigzag n)), rest)
  | .float32 =>
    let (n, rest) ← parsed (readFixed 4 data)
    return (.float (Single.ofNat n).widen, rest)
  | .float64 =>
    let (n, rest) ← parsed (readFixed 8 data)
    return (.double (Double.ofNat n), rest)
  | .string =>
    let (t, rest) ← parsed (readBytes data)
    return (.string t, rest)
  | .unsupported | .unknown _ => throw (.defect .unknownWireKind)

/-- Reads one field. The first part says what it sets: nothing if the field is not in the
schema. -/
def readField (fields : List FieldSchema) (data : Text) :
    Except Error (Option (Nat × Value) × Text) := do
  let (number, form, rest) ← (readTag data).mapError .tag
  match fields[number - 1]? with
  | none =>
    let rest ← (skipValue number form rest).mapError (.skipped number)
    return (none, rest)
  | some field =>
    match field.kind.form? with
    | none => throw (.defect .unknownWireKind)
    | some expected =>
      if form ≠ expected then throw (.form field.name form.code expected.code)
      let (v, rest) ← readValue field.name field.kind rest
      return (some (number - 1, v), rest)

def fill (slots : List (Option Value)) : Option (Nat × Value) → List (Option Value)
  | none => slots
  | some (i, v) => slots.set i (some v)

/-- Reads fields to the end of the data; each takes at least one byte. -/
def readFields (fields : List FieldSchema) :
    (fuel : Nat) → (slots : List (Option Value)) → Text → Except Error (List (Option Value))
  | _, slots, [] => .ok slots
  | 0, _, _ :: _ => .error (.tag .truncated)
  | fuel + 1, slots, b :: bs => do
    let (found, rest) ← readField fields (b :: bs)
    readFields fields fuel (fill slots found) rest

/-- Missing values are null where null is allowed. -/
def complete : List FieldSchema → List (Option Value) → Except Error (List Value)
  | field :: fields, slot :: slots => do
    let v ← match slot with
      | some v => .ok v
      | none => if field.nullable then .ok .null else .error (.missing field.name)
    let vs ← complete fields slots
    return v :: vs
  | _, _ => .ok []

def checkSupported : List FieldSchema → Except Error Unit
  | [] => .ok ()
  | field :: fields =>
    if field.kind = .unsupported then .error (.unsupported field.name) else checkSupported fields

def decode (fields : List FieldSchema) (data : Text) : Except Error (List Value) := do
  checkSupported fields
  let slots ← readFields fields data.length (List.replicate fields.length none) data
  complete fields slots

end TypedStream.Wire
