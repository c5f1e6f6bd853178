import TypedStream.Failure

namespace TypedStream.Wire

inductive Kind where
  | unsupported
  | bool
  | int32
  | int64
  | float32
  | float64
  | string
  /-- A kind of no known representation. -/
  | unknown (code : Int)
  deriving DecidableEq

structure Schema where
  kind : Kind
  nullable : Bool
  deriving DecidableEq

structure FieldSchema extends Schema where
  name : Text

namespace Kind

def name : Kind → Text
  | unsupported => utf8 "unsupported"
  | bool => utf8 "bool"
  | int32 => utf8 "int32"
  | int64 => utf8 "int64"
  | float32 => utf8 "float32"
  | float64 => utf8 "float64"
  | string => utf8 "string"
  | unknown code => utf8 "WireKind(" ++ Text.ofInt code ++ utf8 ")"

/-- Times have no representation. -/
def ofScalar : Scalar → Kind
  | .boolean => bool
  | .int => int32
  | .bigint => int64
  | .float => float32
  | .double => float64
  | .string => string
  | .timestamp | .timespan => unsupported

/-- The scalar that a kind represents; for a kind that represents none it is not consulted or the
caller is at fault. -/
def scalar : Kind → Scalar
  | int32 => .int
  | int64 => .bigint
  | float32 => .float
  | float64 => .double
  | string => .string
  | bool | unsupported | unknown _ => .boolean

end Kind

namespace Schema

def text (s : Schema) : Text :=
  if s.nullable then utf8 "nullable " ++ s.kind.name else s.kind.name

def isSupported (s : Schema) : Bool := s.kind != .unsupported

def ofType : DataType → Schema
  | .scalar s => ⟨Kind.ofScalar s, false⟩
  | .nullable s => ⟨Kind.ofScalar s, true⟩
  | .nullableAny => ⟨.unsupported, true⟩
  | .record _ | .function _ _ => ⟨.unsupported, false⟩

/-- The lines that looking up a type's schema leaves in the log. -/
def complaints (t : DataType) : List Text :=
  if (ofType t).isSupported then []
  else [utf8 "no wire schema available for type " ++ t.text]

end Schema

/-- The schemas of the fields of a record type, in order. -/
def schemaOf : DataType → Except TypeError (List FieldSchema)
  | .record fs => .ok (fs.map fun (name, t) => { Schema.ofType t with name := name })
  | t => .error (.notRecord t)

/-- The lines that looking up a record's schema leaves in the log. -/
def schemaComplaints (t : DataType) : List Text :=
  t.fields.flatMap fun (_, u) => Schema.complaints u

end TypedStream.Wire
