import TypedStream.Failure
import TypedStream.Text.Case

namespace TypedStream

namespace DataType

/-- Checks fields from the given index on, after fields with the names `seen`. -/
def checkFields (index : Nat) (seen : List Text) :
    List (Text × Option DataType) → Except TypeError (List (Text × DataType))
  | [] => .ok []
  | (name, type) :: rest =>
    if name.isEmpty then .error (.emptyFieldName index)
    else if seen.contains name then .error (.duplicateFieldName name)
    else match type with
      | none => .error (.untypedField name)
      | some t => do
        let fs ← checkFields (index + 1) (name :: seen) rest
        return (name, t) :: fs

/-- A record type; its fields have types and distinct names that are not empty. -/
def ofFields (fields : List (Text × Option DataType)) : Except TypeError DataType :=
  (checkFields 0 [] fields).map record

def ofCode (code : Int) : Except Defect DataType :=
  match Kind.ofCode? code with
  | some (.scalar s) => .ok (scalar s)
  | _ => .error (.noPrimitive code)

/-- The nullable type whose inner type has a code. -/
def nullableOfCode (code : Int) : Except Defect DataType :=
  match Kind.ofCode? code with
  | some (.scalar s) => .ok (nullable s)
  | some .any => .ok nullableAny
  | _ => .error (.noNullable code)

end DataType

def Scalar.ofName? (name : Text) : Option Scalar := Scalar.all.find? (·.name == name)

namespace DataType

/-- The type that may stand between the brackets of a nullable one. -/
def innerOfName? (name : Text) : Option DataType :=
  if name == utf8 "ANY" then some nullableAny else (Scalar.ofName? name).map nullable

/-- What stands between an opening bracket in front and a closing one at the end. Of a lone
opening bracket nothing is left, and it does not close. -/
def bracketed? (text : Text) : Option Text :=
  match text with
  | 40 :: rest => if rest.getLast? == some 41 then some rest.dropLast else none
  | _ => none

/-- Upper and lower case are the same, and white space may stand around every part. -/
def parse (text : Text) : Except TypeError DataType :=
  let name := text.trim.upper
  match Text.dropFront (utf8 "NULLABLE") name with
  | some rest =>
    match bracketed? rest.trim with
    | none => .error (.invalidNullable text)
    | some inner =>
      match innerOfName? inner.trim with
      | some t => .ok t
      | none => .error (.unknownInnerType inner.trim text)
  | none =>
    match Scalar.ofName? name with
    | some s => .ok (scalar s)
    | none => .error (.unknownType text)

end DataType

end TypedStream
