import TypedStream.Plan.Kind
import TypedStream.Value.Basic

namespace TypedStream

/-- Why an expression or a plan has no type. -/
inductive TypeError where
  | emptyFieldName (index : Nat)
  | duplicateFieldName (name : Text)
  | untypedField (name : Text)
  | invalidNullable (text : Text)
  | unknownInnerType (inner text : Text)
  | unknownType (text : Text)
  | noPromotion (source target : Option DataType)
  | unknownFunction (name : Text)
  | noOverload (name : Text) (arguments : List (Option DataType))
  | unknownVariable (name : Text)
  | unsupportedConstant (kind : Kind)
  | unfitConstant (value : Value) (type : DataType)
  | incompatibleOperands (name : Text) (left right : Option DataType)
  | nullableArguments (name : Text)
  | fewArguments (c : Connective) (count : Nat)
  | notBoolean (c : Connective) (index : Nat) (type : Option DataType)
  | unresolvedNode (kind : Plan.Kind)
  | unboundCall (name : Text)
  | unlabeled
  | emptyProjection
  | duplicateLabel (label : Text)
  | notRecord (type : DataType)
  /-- A function's own complaint. -/
  | reported (message : Text)

/-- Why a function has no result for its arguments. -/
inductive EvalError where
  | arity (expected actual : Nat)
  | argument (index : Nat) (value : Value) (type : Option DataType)
  | overflow (type : Scalar)
  | divisionByZero
  | stringTooLong
  | openEscape (pattern : Text)
  | result (value : Value) (type : Option DataType)
  /-- A function's own complaint. -/
  | reported (message : Text)

inductive EvalError.Kind where
  | arity
  | value
  | computation
  deriving DecidableEq

/-- A fault of the caller, who promised better. -/
inductive Defect where
  /-- A type is missing where one is needed. -/
  | missingType
  /-- A call has no function. -/
  | missingFunction
  /-- A function reads an argument that it does not have. -/
  | missingArgument
  | malformedValue
  | noPrimitive (code : Int)
  | noNullable (code : Int)
  | unknownWireKind
  /-- The default of a setting has another kind than the setting. -/
  | defaultKind

inductive Place where
  | argument (index : Nat)
  | callArguments (name : Text)
  | operands (name : Text)
  | logicArguments (c : Connective)
  | unification (index : Nat) (name : Text)
  | promotion (index : Nat) (name : Text)
  | logicPromotion (c : Connective) (index : Nat)
  | child (kind : Plan.Kind) (index : Nat)
  | evaluatedArgument (index : Nat) (name : Text)
  | evaluatedFunction (name : Text)
  | evaluatedLogic (index : Nat)
  | evaluatedField (label : Text)
  | field (index : Nat)
  | frozenField (index : Nat)
  | outputType
  | fieldType (name : Text)
  | streamSchema (name : Text)

inductive Failure where
  | type (e : TypeError)
  | evaluation (e : EvalError)
  | variableRange (name : Text) (index : Int) (size : Nat)
  | registered (name : Text) (parameters : List (Option DataType))
  | finalized
  | duplicateStream (name : Text)
  | defect (d : Defect)
  | inPlace (place : Place) (cause : Failure)

def quoted (t : Text) : Text := utf8 "'" ++ t ++ utf8 "'"

namespace TypeError

def message : TypeError → Text
  | emptyFieldName i =>
    utf8 "record field with index " ++ Text.ofNat i ++ utf8 " has an empty name"
  | duplicateFieldName name => utf8 "duplicate record field name " ++ quoted name
  | untypedField name => utf8 "record field " ++ quoted name ++ utf8 " has no type"
  | invalidNullable text => utf8 "invalid nullable type " ++ quoted text
  | unknownInnerType inner text =>
    utf8 "unknown type " ++ quoted inner ++ utf8 " in " ++ quoted text
  | unknownType text => utf8 "unknown type " ++ quoted text
  | noPromotion s t =>
    DataType.textMissing s ++ utf8 " doesn't promote to " ++ DataType.textMissing t
  | unknownFunction name => utf8 "unknown function " ++ name
  | noOverload name ts =>
    utf8 "no overload of function " ++ name ++ utf8 " accepts arguments " ++ DataType.listText ts
  | unknownVariable name => utf8 "unknown variable: " ++ quoted name
  | unsupportedConstant kind =>
    utf8 "constants of type " ++ kind.name ++ utf8 " aren't supported"
  | unfitConstant v t => utf8 "constant " ++ v.shown ++ utf8 " doesn't fit " ++ t.text
  | incompatibleOperands name s t =>
    utf8 "operands of " ++ name ++ utf8 " have incompatible types " ++ DataType.textMissing s ++
      utf8 " and " ++ DataType.textMissing t
  | nullableArguments name =>
    utf8 "function " ++ name ++ utf8 " doesn't accept nullable arguments"
  | fewArguments c count =>
    c.keyword ++ utf8 " requires at least two arguments, got " ++ Text.ofNat count
  | notBoolean c i t =>
    c.keyword ++ utf8 " argument with index " ++ Text.ofNat i ++ utf8 " must be a boolean, is " ++
      DataType.textMissing t
  | unresolvedNode kind => kind.name ++ utf8 " expression has an unresolved type"
  | unboundCall name => utf8 "call of function " ++ name ++ utf8 " isn't bound"
  | unlabeled => utf8 "labeled expression has no serialization label"
  | emptyProjection => utf8 "projection has no fields"
  | duplicateLabel label => utf8 "duplicate serialization label " ++ quoted label
  | notRecord t => utf8 "expected a record type, got " ++ t.text
  | reported m => m

end TypeError

namespace EvalError

def kind : EvalError → Kind
  | arity .. => .arity
  | argument .. => .value
  | _ => .computation

def Kind.name : Kind → Text
  | .arity => utf8 "arity"
  | .value => utf8 "value"
  | .computation => utf8 "computation"

def message : EvalError → Text
  | arity expected actual =>
    utf8 "expected " ++ Text.ofNat expected ++ utf8 " arguments, got " ++ Text.ofNat actual
  | argument i v t =>
    utf8 "argument with index " ++ Text.ofNat i ++ utf8 ": value " ++ v.shown ++
      utf8 " doesn't conform to " ++ DataType.textMissing t
  | overflow s => s.name ++ utf8 " overflow"
  | divisionByZero => utf8 "division by zero"
  | stringTooLong => utf8 "string too long"
  | openEscape pattern =>
    utf8 "invalid like pattern " ++ quoted pattern ++
      utf8 ": pattern ends with an escape character"
  | result v t =>
    utf8 "result " ++ v.shown ++ utf8 " doesn't conform to " ++ DataType.textMissing t
  | reported m => m

end EvalError

def Defect.message : Defect → Text
  | malformedValue => utf8 "impossible, type switch bug"
  | noPrimitive code => utf8 "no primitive type for type id " ++ Kind.nameOfCode code
  | noNullable code => utf8 "no nullable type for type id " ++ Kind.nameOfCode code
  | unknownWireKind => utf8 "unexhaustive wire kind match"
  | missingType | missingFunction | missingArgument | defaultKind => utf8 "runtime error"

def Place.text : Place → Text
  | argument i => utf8 "argument with index " ++ Text.ofNat i
  | callArguments name => utf8 "couldn't typecheck arguments of function " ++ name
  | operands name => utf8 "couldn't typecheck operands of " ++ name
  | logicArguments c => utf8 "couldn't typecheck " ++ c.keyword ++ utf8 " arguments"
  | unification i name =>
    utf8 "couldn't unify operand with index " ++ Text.ofNat i ++ utf8 " of " ++ name
  | promotion i name =>
    utf8 "couldn't promote argument with index " ++ Text.ofNat i ++ utf8 " of " ++ name
  | logicPromotion c i => c.keyword ++ utf8 " argument with index " ++ Text.ofNat i
  | child kind i => kind.name ++ utf8 " expression argument with index " ++ Text.ofNat i
  | evaluatedArgument i name =>
    utf8 "couldn't evaluate argument with index " ++ Text.ofNat i ++ utf8 " of " ++ name
  | evaluatedFunction name => utf8 "couldn't evaluate function " ++ name
  | evaluatedLogic i => utf8 "couldn't evaluate logic argument with index " ++ Text.ofNat i
  | evaluatedField label => utf8 "couldn't evaluate field " ++ label
  | field i => utf8 "field with index " ++ Text.ofNat i
  | frozenField i => utf8 "couldn't finalize field with index " ++ Text.ofNat i
  | outputType => utf8 "couldn't build output record type"
  | fieldType name => utf8 "invalid type of field " ++ name
  | streamSchema name => utf8 "invalid schema of stream " ++ name

namespace Failure

def message : Failure → Text
  | type e => utf8 "type error: " ++ e.message
  | evaluation e => e.kind.name ++ utf8 " evaluation error: " ++ e.message
  | variableRange name i size =>
    utf8 "variable " ++ name ++ utf8 " index " ++ Text.ofInt i ++
      utf8 " out of range for record with " ++ Text.ofNat size ++ utf8 " fields"
  | registered name ps =>
    utf8 "function " ++ name ++ DataType.listText ps ++ utf8 " is already registered"
  | finalized => utf8 "labeled expression is already finalized"
  | duplicateStream name => utf8 "stream " ++ name ++ utf8 " is declared more than once"
  | defect d => d.message
  | inPlace place cause => place.text ++ utf8 ": " ++ cause.message

/-- The failure without the places it was reported from. -/
def cause : Failure → Failure
  | inPlace _ f => f.cause
  | f => f

/-- Reports a failure from a place. A defect is not reported: it ends everything. -/
def within (place : Place) : Failure → Failure
  | defect d => defect d
  | f => inPlace place f

end Failure

/-- Reports the failure of a computation, if it fails, from a place. -/
def inside {α : Type} (place : Place) (x : Except Failure α) : Except Failure α :=
  match x with
  | .ok a => .ok a
  | .error f => .error (f.within place)

end TypedStream
