import TypedStream.Function.Arithmetic
import TypedStream.Function.Pattern
import TypedStream.Function.Registry
import TypedStream.Text.Case
import TypedStream.Value.Basic

namespace TypedStream.Builtin

def numericTypes : List Scalar := Scalar.all.filter Scalar.isNumeric

def comparableTypes : List Scalar := Scalar.all.filter Scalar.isComparable

def strict (result : Scalar) (parameters : List Scalar) (description : String)
    (body : List Value → Except Failure Value) : ScalarFunction where
  result := some (.scalar result)
  parameters := parameters.map fun s => some (.scalar s)
  strict := true
  description := utf8 description
  body := body

def unary (f : Value → Except Failure Value) : List Value → Except Failure Value
  | [a] => f a
  | _ => .error (.defect .missingArgument)

def binary (f : Value → Value → Except Failure Value) : List Value → Except Failure Value
  | [a, b] => f a b
  | _ => .error (.defect .missingArgument)

def numericBinary (description : String) (types : List Scalar)
    (f : Scalar → Value → Value → Except Failure Value) : List ScalarFunction :=
  types.map fun s => strict s [s, s] description (binary (f s))

def numericUnary (description : String) (f : Scalar → Value → Except Failure Value) :
    List ScalarFunction :=
  numericTypes.map fun s => strict s [s] description (unary (f s))

def comparing (predicate : Ordering → Bool) (a b : Value) : Except Failure Value :=
  match a.compare? b with
  | some o => .ok (.boolean (predicate o))
  | none => .error (.defect .malformedValue)

def comparison (types : List Scalar) (predicate : Ordering → Bool) : List ScalarFunction :=
  types.map fun s => strict .boolean [s, s] "Compares the arguments." (binary (comparing predicate))

def length (a : Value) : Except Failure Value :=
  let count := a.text.runes.length
  if 2147483647 < count then Arithmetic.fails .stringTooLong else .ok (.int (Int64.ofNat count))

def like (a b : Value) : Except Failure Value :=
  match Regexp.ofPattern? b.text.runes with
  | some items => .ok (.boolean (Regexp.occurs items a.text.runes))
  | none => Arithmetic.fails (.openEscape b.text)

/-- Not strict: this is the function that asks for null. -/
def ifNull (s : Scalar) : ScalarFunction where
  result := some (.scalar s)
  parameters := [some (.nullable s), some (.scalar s)]
  strict := false
  description := utf8 "Returns the first argument if it isn't null, the second one otherwise."
  body := binary fun a b => .ok (if a.isNull then b else a)

/-- The overloads of each name, in the order in which they are tried. -/
def table : List (String × List ScalarFunction) := [
  ("+", numericBinary "Adds the arguments." numericTypes Arithmetic.add),
  ("-", numericBinary "Subtracts the second argument from the first." numericTypes
      Arithmetic.subtract ++
    numericUnary "Negates the argument." Arithmetic.negate),
  ("*", numericBinary "Multiplies the arguments." numericTypes Arithmetic.multiply),
  ("/", numericBinary "Divides the first argument by the second." numericTypes Arithmetic.divide),
  ("%", numericBinary "Returns the remainder of dividing the first argument by the second."
      [.int, .bigint] Arithmetic.modulo),
  ("=", comparison Scalar.all (· == .eq)),
  ("!=", comparison Scalar.all (· != .eq)),
  ("<", comparison comparableTypes (· == .lt)),
  ("<=", comparison comparableTypes (· != .gt)),
  (">", comparison comparableTypes (· == .gt)),
  (">=", comparison comparableTypes (· != .lt)),
  ("not", [strict .boolean [.boolean] "Negates the argument."
      (unary fun a => .ok (.boolean !a.truth))]),
  ("concat", [strict .string [.string, .string] "Concatenates the arguments."
      (binary fun a b => .ok (.string (a.text ++ b.text)))]),
  ("length", [strict .int [.string] "Returns the number of characters in the argument."
      (unary length)]),
  ("upper", [strict .string [.string] "Returns the argument in upper case."
      (unary fun a => .ok (.string a.text.upper))]),
  ("lower", [strict .string [.string] "Returns the argument in lower case."
      (unary fun a => .ok (.string a.text.lower))]),
  ("like", [strict .boolean [.string, .string]
      ("Returns whether the first argument matches the pattern in the second one. " ++
        "'_' matches a single character, '%' any number of characters, '\\' escapes.")
      (binary like)]),
  ("abs", numericUnary "Returns the absolute value of the argument." Arithmetic.absolute),
  ("ifnull", Scalar.all.map ifNull)]

end TypedStream.Builtin

namespace TypedStream

/-- The registry of all builtin functions. -/
def Registry.builtin : Registry :=
  ⟨Builtin.table.flatMap fun (name, fs) => fs.map fun f => (utf8 name, f)⟩

end TypedStream
