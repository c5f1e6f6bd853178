import TypedStream.Function.Registry
import TypedStream.Value.Promote

namespace TypedStream

inductive Plan where
  /-- The field of the input record with the given index. -/
  | variable (name : Text) (index : Int) (type : Option DataType)
  | constant (value : Value) (type : Option DataType)
  | call (name : Text) (function : Option ScalarFunction) (propagatesNulls : Bool)
      (type : Option DataType) (arguments : List Plan)
  | promotion (source : Plan) (target : DataType)
  | logic (c : Connective) (type : Option DataType) (arguments : List Plan)

namespace Plan

def type : Plan → Option DataType
  | .variable _ _ t => t
  | .constant _ t => t
  | .call _ _ _ t _ => t
  | .promotion _ t => some t
  | .logic _ t _ => t

def kind : Plan → Kind
  | .variable .. => .variable
  | .constant .. => .constant
  | .call .. => .call
  | .promotion .. => .promotion
  | .logic c .. => .logic c

def children : Plan → List Plan
  | .variable .. => []
  | .constant .. => []
  | .call _ _ _ _ args => args
  | .promotion p _ => [p]
  | .logic _ _ args => args

def ofBinding (b : Binding) (arguments : List Plan) : Plan :=
  .call b.name (some b.function) b.propagatesNulls b.result arguments

/-- Converts to a type. Nothing is added if the expression has it already. -/
def promoteTo (p : Plan) (target : Option DataType) : Except Failure Plan :=
  if DataType.equalMissing p.type target then .ok p
  else match p.type, target with
    | some s, some t =>
      if s.promotesTo t then .ok (.promotion p t)
      else .error (.type (.noPromotion (some s) (some t)))
    | s, t => .error (.type (.noPromotion s t))

def typed (kind : Kind) (t : Option DataType) : Except Failure Unit :=
  if t.isNone then .error (.type (.unresolvedNode kind)) else .ok ()

mutual

/-- Checks that every node has a type and every call a function. -/
def resolved : Plan → Except Failure Unit
  | .variable _ _ t => typed .variable t
  | .constant _ t => typed .constant t
  | .call name f _ t args => do
    typed .call t
    if f.isNone then throw (.type (.unboundCall name))
    resolvedFrom .call 0 args
  | .promotion p _ => inside (.child .promotion 0) (resolved p)
  | .logic c t args => do
    typed (.logic c) t
    resolvedFrom (.logic c) 0 args

def resolvedFrom (kind : Kind) (index : Nat) : List Plan → Except Failure Unit
  | [] => .ok ()
  | p :: ps => do
    inside (.child kind index) (resolved p)
    resolvedFrom kind (index + 1) ps

end

/-- The result of a connective none of whose arguments was decisive. -/
def undecided (c : Connective) (sawNull : Bool) : Value :=
  if sawNull then .null else .boolean !c.decisive

mutual

def evaluate (record : List Value) : Plan → Except Failure Value
  | .variable name index _ =>
    match index with
    | .ofNat i =>
      match record[i]? with
      | some v => .ok v
      | none => .error (.variableRange name index record.length)
    | .negSucc _ => .error (.variableRange name index record.length)
  | .constant v _ => .ok v
  | .call name f propagates _ args => do
    match ← evaluateArguments record name propagates 0 args with
    | none => return .null
    | some vs =>
      match f with
      | none => throw (.defect .missingFunction)
      | some f => inside (.evaluatedFunction name) (f.call vs)
  | .promotion p target => do
    let v ← evaluate record p
    v.promote p.type (some target)
  | .logic c _ args => evaluateLogic record c false 0 args

/-- The arguments of a call from an index on; none if the call propagates nulls and meets one. -/
def evaluateArguments (record : List Value) (name : Text) (propagates : Bool) (index : Nat) :
    List Plan → Except Failure (Option (List Value))
  | [] => .ok (some [])
  | p :: ps => do
    let v ← inside (.evaluatedArgument index name) (evaluate record p)
    if propagates && v.isNull then return none
    let vs ← evaluateArguments record name propagates (index + 1) ps
    return vs.map (v :: ·)

/-- Three-valued logic from an index on: a decisive argument ends it, a null one is remembered. -/
def evaluateLogic (record : List Value) (c : Connective) (sawNull : Bool) (index : Nat) :
    List Plan → Except Failure Value
  | [] => .ok (undecided c sawNull)
  | p :: ps => do
    let v ← inside (.evaluatedLogic index) (evaluate record p)
    if v.isNull then evaluateLogic record c true (index + 1) ps
    else if v.truth == c.decisive then return .boolean c.decisive
    else evaluateLogic record c sawNull (index + 1) ps

end

end Plan

end TypedStream
