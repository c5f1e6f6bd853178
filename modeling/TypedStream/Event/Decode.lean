import TypedStream.Event.Number
import TypedStream.Failure
import TypedStream.Time.Read

namespace TypedStream.Event

inductive Error where
  | notRecord (e : TypeError)
  | syntaxError
  | notObject (found : Text)
  | field (name : Text) (type : DataType)

def Error.message : Error → Text
  | notRecord e => (Failure.type e).message
  | syntaxError => utf8 "couldn't parse json"
  | notObject found => utf8 "expected JSON object, got " ++ found
  | field name t => utf8 "invalid value for field " ++ name ++ utf8 " of type " ++ t.text

/-- A value of a scalar type. Numbers of a floating-point type that cannot be read are zero. -/
def scalar? : Scalar → Json → Option Value
  | .boolean, .true => some (.boolean true)
  | .boolean, .false => some (.boolean false)
  | .int, .number token => do
    let i ← integer? token
    if -2147483648 ≤ i ∧ i ≤ 2147483647 then return .int (Int64.ofInt i) else none
  | .bigint, .number token => (integer? token).map fun i => .bigint (Int64.ofInt i)
  | .float, .number token => some (.float ((real? token).getD Double.zero).narrow.widen)
  | .double, .number token => some (.double ((real? token).getD Double.zero))
  | .string, .string raw => some (.string (Json.unescape raw))
  | .timestamp, .string raw => (Instant.read? (Json.unescape raw)).map .timestamp
  | .timespan, .string raw => (Span.read? (Json.unescape raw)).map .timespan
  | _, _ => none

mutual

/-- A value of a type; null, or a member that is not there, only for nullable types. -/
def value? : DataType → Option Json → Option Value
  | t, none => if t.isNullable then some .null else none
  | t, some .null => if t.isNullable then some .null else none
  | .scalar s, some j => scalar? s j
  | .nullable s, some j => scalar? s j
  | .record fs, some (.object entries) => (fields? fs ⟨entries, false⟩).map .record
  | _, some _ => none

def fields? : List (Text × DataType) → Json.Members → Option (List Value)
  | [], _ => some []
  | (name, t) :: fs, ms =>
    match ms.lookup name with
    | (found, ms) => do
      let v ← value? t found
      let vs ← fields? fs ms
      return v :: vs

end

/-- The values of the fields, or the first field that has none. -/
def decodeFields : List (Text × DataType) → Json.Members → Except Error (List Value)
  | [], _ => .ok []
  | (name, t) :: fs, ms =>
    match ms.lookup name with
    | (found, ms) =>
      match value? t found with
      | none => .error (.field name t)
      | some v => do
        let vs ← decodeFields fs ms
        return v :: vs

/-- The values of a record type's fields in an event. -/
def decode (t : DataType) (data : Text) : Except Error (List Value) :=
  match t with
  | .record fs =>
    match Json.parse? data with
    | none => .error .syntaxError
    | some (.object entries) => decodeFields fs ⟨entries, false⟩
    | some j => .error (.notObject j.kindName)
  | t => .error (.notRecord (.notRecord t))

end TypedStream.Event
