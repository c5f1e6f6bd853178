import TypedStream.Text

namespace TypedStream

inductive Scalar where
  | boolean | int | bigint | float | double | string | timestamp | timespan
  deriving DecidableEq

inductive DataType where
  | scalar (s : Scalar)
  | nullable (s : Scalar)
  /-- The type of the null literal. -/
  | nullableAny
  | record (fields : List (Text × DataType))
  | function (result : Option DataType) (parameters : List (Option DataType))

/-- The outermost form of a type, or of a value. -/
inductive Kind where
  | scalar (s : Scalar)
  | any
  | nullable
  | record
  | function
  deriving DecidableEq

namespace Scalar

def all : List Scalar := [boolean, int, bigint, float, double, string, timestamp, timespan]

def code : Scalar → Nat
  | boolean => 0
  | int => 1
  | bigint => 2
  | float => 3
  | double => 4
  | string => 5
  | timestamp => 6
  | timespan => 7

def name : Scalar → Text
  | boolean => utf8 "BOOLEAN"
  | int => utf8 "INT"
  | bigint => utf8 "BIGINT"
  | float => utf8 "FLOAT"
  | double => utf8 "DOUBLE"
  | string => utf8 "STRING"
  | timestamp => utf8 "TIMESTAMP"
  | timespan => utf8 "TIMESPAN"

def isNumeric : Scalar → Bool
  | int | bigint | float | double => true
  | _ => false

def isComparable (s : Scalar) : Bool := s.isNumeric || s == boolean || s == string

end Scalar

namespace Kind

def code : Kind → Nat
  | scalar s => s.code
  | any => 8
  | nullable => 9
  | record => 10
  | function => 11

def name : Kind → Text
  | scalar s => s.name
  | any => utf8 "ANY"
  | nullable => utf8 "NULLABLE"
  | record => utf8 "RECORD"
  | function => utf8 "FUNCTION"

def all : List Kind := Scalar.all.map scalar ++ [any, nullable, record, function]

def ofCode? (code : Int) : Option Kind := all.find? fun k => (k.code : Int) == code

/-- The name of the kind with this code, or a text that shows the code. -/
def nameOfCode (code : Int) : Text :=
  match ofCode? code with
  | some k => k.name
  | none => utf8 "TypeID(" ++ Text.ofInt code ++ utf8 ")"

end Kind

namespace DataType

def kind : DataType → Kind
  | scalar s => .scalar s
  | nullable _ | nullableAny => .nullable
  | record _ => .record
  | function _ _ => .function

/-- Scalars and their nullable versions. -/
def isPrimitive : DataType → Bool
  | scalar _ | nullable _ | nullableAny => true
  | record _ | function _ _ => false

def isNullable : DataType → Bool
  | nullable _ | nullableAny => true
  | _ => false

def isNumeric : DataType → Bool
  | scalar s => s.isNumeric
  | _ => false

def isComparable : DataType → Bool
  | scalar s => s.isComparable
  | _ => false

/-- The scalar inside a nullable type. The null literal's type has none; all others stay. -/
def nonNullable : DataType → Option DataType
  | nullable s => some (scalar s)
  | nullableAny => none
  | t => some t

/-- Records and functions have no nullable version. -/
def asNullable : DataType → Option DataType
  | scalar s => some (nullable s)
  | nullable s => some (nullable s)
  | nullableAny => some nullableAny
  | record _ | function _ _ => none

def fields : DataType → List (Text × DataType)
  | record fs => fs
  | _ => []

def fieldIndex (t : DataType) (name : Text) : Option Nat := t.fields.findIdx? (·.1 == name)

mutual

/-- Structural equality: the same names in the same order, and equal components. -/
def equals : DataType → DataType → Bool
  | scalar s, scalar t => s == t
  | nullable s, nullable t => s == t
  | nullableAny, nullableAny => true
  | record fs, record gs => equalFields fs gs
  | function r ps, function q qs => equalMissing r q && equalAll ps qs
  | _, _ => false

def equalFields : List (Text × DataType) → List (Text × DataType) → Bool
  | [], [] => true
  | (m, s) :: fs, (n, t) :: gs => m == n && equals s t && equalFields fs gs
  | _, _ => false

/-- Equality where a type may be missing. -/
def equalMissing : Option DataType → Option DataType → Bool
  | none, none => true
  | some s, some t => equals s t
  | _, _ => false

def equalAll : List (Option DataType) → List (Option DataType) → Bool
  | [], [] => true
  | s :: ss, t :: ts => equalMissing s t && equalAll ss ts
  | _, _ => false

end

instance : BEq DataType := ⟨equals⟩

def unresolved : Text := utf8 "<unresolved>"

mutual

def text : DataType → Text
  | scalar s => s.name
  | nullable s => utf8 "NULLABLE(" ++ s.name ++ utf8 ")"
  | nullableAny => utf8 "NULLABLE(ANY)"
  | record fs => utf8 "RECORD" ++ Text.tuple (fieldTexts fs)
  | function r ps => utf8 "FUNCTION" ++ Text.tuple (allTexts ps) ++ utf8 " " ++ textMissing r

def fieldTexts : List (Text × DataType) → List Text
  | [] => []
  | (name, t) :: fs => (name ++ utf8 " " ++ text t) :: fieldTexts fs

/-- The text where a type may be missing. -/
def textMissing : Option DataType → Text
  | none => unresolved
  | some t => text t

def allTexts : List (Option DataType) → List Text
  | [] => []
  | t :: ts => textMissing t :: allTexts ts

end

/-- The text of a list of argument types. -/
def listText (ts : List (Option DataType)) : Text := Text.tuple (allTexts ts)

end DataType

end TypedStream
