import TypedStream.Plan.Basic

namespace TypedStream

inductive Expr where
  | variable (name : Text)
  | constant (value : Value)
  | null
  | call (name : Text) (arguments : List Expr)
  /-- Two operands are brought to a common type first. -/
  | operator (name : Text) (arguments : List Expr)
  | logic (c : Connective) (arguments : List Expr)

/-- What expressions are checked against. -/
structure Environment where
  /-- The type of the input records, whose fields are the variables. -/
  record : Option DataType
  functions : Option Registry
  /-- Refuses nullable arguments where a function has no use for null. -/
  strictNulls : Bool

namespace Expr

/-- Applies a conversion to each plan, with its index. -/
def mapIndexed (f : Nat → Plan → Except Failure Plan) (index : Nat) :
    List Plan → Except Failure (List Plan)
  | [] => .ok []
  | p :: ps => do
    let q ← f index p
    let qs ← mapIndexed f (index + 1) ps
    return q :: qs

/-- The type that a bound argument is converted to: the parameter's, or its nullable version where
the call lets null through. -/
def argumentTarget (propagates : Bool) (p : Plan) (parameter : Option DataType) :
    Except Failure (Option DataType) :=
  if propagates then
    match p.type with
    | none => .error (.defect .missingType)
    | some t =>
      if t.isNullable then
        match parameter with
        | none => .error (.defect .missingType)
        | some u => .ok u.asNullable
      else .ok parameter
  else .ok parameter

/-- Converts the arguments of a bound call to what its parameters ask for. -/
def promoteArguments (name : Text) (propagates : Bool) (index : Nat) :
    List Plan → List (Option DataType) → Except Failure (List Plan)
  | p :: ps, t :: ts => do
    let target ← argumentTarget propagates p t
    let q ← inside (.promotion index name) (p.promoteTo target)
    let qs ← promoteArguments name propagates (index + 1) ps ts
    return q :: qs
  | _, _ => .ok []

def bindCall (env : Environment) (name : Text) (arguments : List Plan) : Except Failure Plan :=
  match env.functions with
  | none => .error (.type (.unknownFunction name))
  | some registry => do
    let binding ← registry.resolve name (arguments.map Plan.type)
    if binding.propagatesNulls && env.strictNulls then throw (.type (.nullableArguments name))
    let promoted ← promoteArguments name binding.propagatesNulls 0 arguments
      binding.function.parameters
    return Plan.ofBinding binding promoted

/-- The common type of two operands, whose types may be missing. -/
def commonMissing : Option DataType → Option DataType → Except Failure (Option DataType)
  | some s, some t => .ok (s.commonType t)
  | none, none => .ok none
  | _, _ => .error (.defect .missingType)

/-- Brings two operands to their common type; any other number stays as it is. -/
def unify (name : Text) : List Plan → Except Failure (List Plan)
  | [a, b] => do
    match ← commonMissing a.type b.type with
    | none => throw (.type (.incompatibleOperands name a.type b.type))
    | some t => mapIndexed (fun i p => inside (.unification i name) (p.promoteTo (some t))) 0 [a, b]
  | ps => .ok ps

def nullableBoolean : DataType := .nullable .boolean

/-- Whether one of the arguments is nullable; all must be booleans. -/
def checkBooleans (c : Connective) (index : Nat) : List Plan → Except Failure Bool
  | [] => .ok false
  | p :: ps => do
    if ← DataType.promotes p.type (some nullableBoolean) then
      let rest ← checkBooleans c (index + 1) ps
      return (p.type.map DataType.isNullable).getD false || rest
    else throw (.type (.notBoolean c index p.type))

def connect (c : Connective) (arguments : List Plan) : Except Failure Plan := do
  if ← checkBooleans c 0 arguments then
    let promoted ← mapIndexed (fun i p =>
      if DataType.equalMissing p.type (some (.scalar .boolean)) then .ok p
      else inside (.logicPromotion c i) (p.promoteTo (some nullableBoolean))) 0 arguments
    return .logic c (some nullableBoolean) promoted
  else return .logic c (some (.scalar .boolean)) arguments

def checkVariable (env : Environment) (name : Text) : Except Failure Plan :=
  let fields := (env.record.map DataType.fields).getD []
  match fields.findIdx? (·.1 == name) with
  | some i => .ok (.variable name i ((fields[i]?).map Prod.snd))
  | none => .error (.type (.unknownVariable name))

def checkConstant (v : Value) : Except Failure Plan :=
  match v.kind with
  | .any => .ok (.constant v (some .nullableAny))
  | .scalar s =>
    if v.conforms (.scalar s) then .ok (.constant v (some (.scalar s)))
    else .error (.type (.unfitConstant v (.scalar s)))
  | k => .error (.type (.unsupportedConstant k))

mutual

def check (env : Environment) : Expr → Except Failure Plan
  | .variable name => checkVariable env name
  | .constant v => checkConstant v
  | .null => .ok (.constant .null (some .nullableAny))
  | .call name args => do
    let ps ← inside (.callArguments name) (checkAll env 0 args)
    bindCall env name ps
  | .operator name args => do
    let ps ← inside (.operands name) (checkAll env 0 args)
    let qs ← unify name ps
    bindCall env name qs
  | .logic c args =>
    if args.length < 2 then .error (.type (.fewArguments c args.length))
    else do
      let ps ← inside (.logicArguments c) (checkAll env 0 args)
      connect c ps

def checkAll (env : Environment) (index : Nat) : List Expr → Except Failure (List Plan)
  | [] => .ok []
  | e :: es => do
    let p ← inside (.argument index) (check env e)
    let ps ← checkAll env (index + 1) es
    return p :: ps

end

end Expr

end TypedStream
