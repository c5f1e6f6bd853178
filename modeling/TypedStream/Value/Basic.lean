import TypedStream.Binary.Shortest
import TypedStream.DataType.Basic
import TypedStream.Time.Basic

namespace TypedStream

/-- The kinds of types that no value has. A value may still bear one of them by mistake. -/
inductive Misnomer where
  | nullable
  | function
  deriving DecidableEq

inductive Value where
  | null
  | boolean (b : Bool)
  | int (i : Int64)
  | bigint (i : Int64)
  /-- Held in double precision. Conversions to FLOAT round to single precision, but nothing checks
  that a value has been rounded. -/
  | float (x : Double)
  | double (x : Double)
  | string (t : Text)
  | timestamp (t : Instant)
  | timespan (s : Span)
  | record (fields : List Value)
  /-- A value that has the name of a kind and no content. -/
  | malformed (kind : Misnomer)

namespace Value

def kind : Value → Kind
  | null => .any
  | boolean _ => .scalar .boolean
  | int _ => .scalar .int
  | bigint _ => .scalar .bigint
  | float _ => .scalar .float
  | double _ => .scalar .double
  | string _ => .scalar .string
  | timestamp _ => .scalar .timestamp
  | timespan _ => .scalar .timespan
  | record _ => .record
  | malformed .nullable => .nullable
  | malformed .function => .function

def isNull : Value → Bool
  | null => true
  | _ => false

/-- The truth value; only `true` itself is true. -/
def truth : Value → Bool
  | boolean b => b
  | _ => false

/-- The integer content, zero where there is none. -/
def integer : Value → Int64
  | int i | bigint i => i
  | _ => 0

/-- The floating-point content, zero where there is none. -/
def real : Value → Double
  | float x | double x => x
  | _ => Double.zero

def text : Value → Text
  | string t => t
  | _ => []

def fitsInt (i : Int64) : Bool := -2147483648 ≤ i.toInt && i.toInt ≤ 2147483647

def conformsToScalar : Value → Scalar → Bool
  | int i, .int => fitsInt i
  | v, s => v.kind == .scalar s

mutual

/-- Whether the value has the shape that the type asks for. Null has only nullable types, and
nothing has a function type. -/
def conforms : Value → DataType → Bool
  | v, .scalar s => v.conformsToScalar s
  | v, .nullable s => v.isNull || v.conformsToScalar s
  | v, .nullableAny => v.isNull
  | record vs, .record fs => conformsFields vs fs
  | _, _ => false

def conformsFields : List Value → List (Text × DataType) → Bool
  | [], [] => true
  | v :: vs, (_, t) :: fs => v.conforms t && conformsFields vs fs
  | _, _ => false

end

/-- No value conforms to a missing type. -/
def conformsMissing (v : Value) : Option DataType → Bool
  | none => false
  | some t => v.conforms t

end Value

namespace Value

def compareInt (a b : Int64) : Ordering :=
  if a < b then .lt else if b < a then .gt else .eq

def compareBool : Bool → Bool → Ordering
  | false, true => .lt
  | true, false => .gt
  | _, _ => .eq

def compareKinds (a b : Kind) : Ordering := Ord.compare a.code b.code

mutual

def compare? : Value → Value → Option Ordering
  | null, null => some .eq
  | boolean a, boolean b => some (compareBool a b)
  | int a, int b => some (compareInt a b)
  | bigint a, bigint b => some (compareInt a b)
  | float a, float b => some (Double.compare a b)
  | double a, double b => some (Double.compare a b)
  | string a, string b => some (Text.compare a b)
  | timestamp a, timestamp b => some (Instant.compare a b)
  | timespan a, timespan b => some (compareInt a.nanos b.nanos)
  | record as, record bs => compareAll? as bs
  | malformed a, malformed b =>
    if a = b then none else some (compareKinds (malformed a).kind (malformed b).kind)
  | a, b => some (compareKinds a.kind b.kind)

/-- Field by field, the shorter record first; later fields count only if the earlier ones are
alike. -/
def compareAll? : List Value → List Value → Option Ordering
  | [], [] => some .eq
  | [], _ :: _ => some .lt
  | _ :: _, [] => some .gt
  | a :: as, b :: bs =>
    match compare? a b with
    | some .eq => compareAll? as bs
    | other => other

end

mutual

def display? : Value → Option Text
  | null => some (utf8 "null")
  | boolean b => some (Text.ofBool b)
  | int i => some (Text.ofInt i.toInt)
  | bigint i => some (Text.ofInt i.toInt)
  | float x => some x.text
  | double x => some x.text
  | string t => some (utf8 "'" ++ t ++ utf8 "'")
  | timestamp t => some t.text
  | timespan s => some s.text
  | record vs =>
    (displayAll? vs).map fun ts => utf8 "\x7b" ++ Text.join (utf8 ", ") ts ++ utf8 "\x7d"
  | malformed _ => none

def displayAll? : List Value → Option (List Text)
  | [] => some []
  | v :: vs => do
    let t ← display? v
    let ts ← displayAll? vs
    return t :: ts

end

/-- The text inside a message, where a malformed value is reported in place. -/
def shown (v : Value) : Text :=
  (display? v).getD (utf8 "%!s(PANIC=String method: impossible, type switch bug)")

/-- The string that a value is promoted to: bare text, and the fewest digits for its own
precision. -/
def toText? : Value → Option Text
  | string t => some t
  | float x => some x.narrow.text
  | double x => some x.text
  | v => display? v

end Value

end TypedStream
