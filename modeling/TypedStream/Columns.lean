import TypedStream.Wire.Schema

namespace TypedStream.Columns

inductive Storage where
  | boolean
  | int32
  | int64
  | float
  | double
  | bytes
  deriving DecidableEq

def Storage.name : Storage → Text
  | boolean => utf8 "BOOLEAN"
  | int32 => utf8 "INT32"
  | int64 => utf8 "INT64"
  | float => utf8 "FLOAT"
  | double => utf8 "DOUBLE"
  | bytes => utf8 "BYTE_ARRAY"

structure Column where
  name : Text
  storage : Storage
  nullable : Bool

/-- The table that a record type is stored in. -/
structure Table where
  name : Text
  columns : List Column

inductive Error where
  | notRecord (e : TypeError)
  | noColumns (t : DataType)

def storage? : Wire.Kind → Option Storage
  | .bool => some .boolean
  | .int32 => some .int32
  | .int64 => some .int64
  | .float32 => some .float
  | .float64 => some .double
  | .string => some .bytes
  | .unsupported | .unknown _ => none

def ofField (field : Wire.FieldSchema) : Option Column :=
  (storage? field.kind).map fun s => ⟨field.name, s, field.nullable⟩

/-- Puts a column among columns in the order of their names. -/
def insert (c : Column) : List Column → List Column
  | [] => [c]
  | d :: ds =>
    match Text.compare c.name d.name with
    | .gt => d :: insert c ds
    | _ => c :: d :: ds

/-- One column for each field that has a representation, in the order of their names. -/
def ofRecord (name : Text) (t : DataType) : Except Error Table :=
  match Wire.schemaOf t with
  | .error e => .error (.notRecord e)
  | .ok fields =>
    let columns := (fields.filterMap ofField).foldr insert []
    if columns.isEmpty then .error (.noColumns t) else .ok ⟨name, columns⟩

def Error.message : Error → Text
  | notRecord e => (Failure.type e).message
  | noColumns t =>
    utf8 "record type " ++ t.text ++ utf8 " has no fields with a columnar representation"

end TypedStream.Columns
