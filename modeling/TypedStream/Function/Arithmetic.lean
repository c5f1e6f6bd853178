import TypedStream.Failure

namespace TypedStream.Arithmetic

/-- The sum, unless it wraps: then it lies on the wrong side of the first term. -/
def sum? (a b : Int64) : Option Int64 :=
  let sum := a + b
  if (0 < b && sum < a) || (b < 0 && a < sum) then none else some sum

/-- The difference, unless it wraps. -/
def difference? (a b : Int64) : Option Int64 :=
  let difference := a - b
  if (b < 0 && difference < a) || (0 < b && a < difference) then none else some difference

/-- The product, unless it wraps: then dividing it does not give the second factor back. The one
quotient that wraps itself is told apart. -/
def product? (a b : Int64) : Option Int64 :=
  let product := a * b
  if a != 0 && (product / a != b || (a == -1 && b == Int64.minValue)) then none else some product

/-- The quotient by a divisor that is not zero, cut toward zero, unless it wraps. -/
def quotient? (a b : Int64) : Option Int64 :=
  if a == Int64.minValue && b == -1 then none else some (a / b)

/-- The remainder of a divisor that is not zero; it has the sign of the dividend. -/
def remainder (a b : Int64) : Int64 := if b == -1 then 0 else a % b

def fails {α : Type} (e : EvalError) : Except Failure α := .error (.evaluation e)

/-- An integer as a value of an integer type, if there is one and it is in range. -/
def ofInteger (s : Scalar) : Option Int64 → Except Failure Value
  | none => fails (.overflow s)
  | some i =>
    match s with
    | .int => if Value.fitsInt i then .ok (.int i) else fails (.overflow .int)
    | _ => .ok (.bigint i)

/-- A double as a value of a floating-point type. -/
def ofReal (s : Scalar) (x : Double) : Value :=
  match s with
  | .float => .float x.narrow.widen
  | _ => .double x

def isInteger : Scalar → Bool
  | .int | .bigint => true
  | _ => false

def binary (integer : Int64 → Int64 → Option Int64) (real : Double → Double → Double) (s : Scalar)
    (a b : Value) : Except Failure Value :=
  if isInteger s then ofInteger s (integer a.integer b.integer)
  else .ok (ofReal s (real a.real b.real))

def add : Scalar → Value → Value → Except Failure Value := binary sum? Double.add

def subtract : Scalar → Value → Value → Except Failure Value := binary difference? Double.sub

def multiply : Scalar → Value → Value → Except Failure Value := binary product? Double.mul

def divide (s : Scalar) (a b : Value) : Except Failure Value :=
  if isInteger s then
    if b.integer = 0 then fails .divisionByZero
    else ofInteger s (quotient? a.integer b.integer)
  else if b.real.isZero then fails .divisionByZero
  else .ok (ofReal s (a.real.div b.real))

def modulo (s : Scalar) (a b : Value) : Except Failure Value :=
  if b.integer = 0 then fails .divisionByZero
  else ofInteger s (some (remainder a.integer b.integer))

/-- The difference from zero, so a zero is never negative. -/
def negate (s : Scalar) (a : Value) : Except Failure Value :=
  if isInteger s then ofInteger s (difference? 0 a.integer)
  else .ok (ofReal s (Double.zero.sub a.real))

def absolute (s : Scalar) (a : Value) : Except Failure Value :=
  if isInteger s then
    if 0 ≤ a.integer then .ok a else ofInteger s (difference? 0 a.integer)
  else .ok (ofReal s a.real.abs)

end TypedStream.Arithmetic
