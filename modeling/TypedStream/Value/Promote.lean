import TypedStream.DataType.Promotion
import TypedStream.Failure

namespace TypedStream

namespace DataType

/-- Promotion where types may be missing. Nothing promotes to a missing type, and asking it of a
missing type is a defect. -/
def promotes (source target : Option DataType) : Except Failure Bool :=
  match source, target with
  | _, none => .ok false
  | none, some _ => .error (.defect .missingType)
  | some s, some t => .ok (s.promotesTo t)

end DataType

namespace Value

/-- The value as one of a scalar type. Types that nothing else promotes to leave it as it is. -/
def convert (v : Value) : Scalar → Except Failure Value
  | .string =>
    match v.toText? with
    | some t => .ok (string t)
    | none => .error (.defect .malformedValue)
  | .bigint => .ok (bigint v.integer)
  | .float =>
    match v with
    | int i | bigint i => .ok (float (Single.ofInt i.toInt).widen)
    | _ => .ok (float v.real.narrow.widen)
  | .double =>
    match v with
    | int i | bigint i => .ok (double (Double.ofInt i.toInt))
    | _ => .ok (double v.real)
  | _ => .ok v

/-- Converts a value of the first type into one of the second. Null stays null. -/
def promote (v : Value) (source target : Option DataType) : Except Failure Value := do
  if ← DataType.promotes source target then
    if DataType.equalMissing source target || v.isNull then return v
    match target with
    | some (.scalar s) | some (.nullable s) => v.convert s
    | some .nullableAny => throw (.defect .missingType)
    | _ => return v
  else throw (.type (.noPromotion source target))

end Value

end TypedStream
