import TypedStream.DataType.Promotion
import TypedStream.Failure

namespace TypedStream

structure ScalarFunction where
  result : Option DataType
  parameters : List (Option DataType)
  /-- A strict function has a null result when an argument is null. -/
  strict : Bool
  description : Text
  body : List Value → Except Failure Value

namespace ScalarFunction

def type (f : ScalarFunction) : DataType := .function f.result f.parameters

/-- The first argument, counted from `index`, that does not conform to its parameter. -/
def unfit? (index : Nat) : List Value → List (Option DataType) → Option EvalError
  | v :: vs, p :: ps =>
    if v.conformsMissing p then unfit? (index + 1) vs ps else some (.argument index v p)
  | _, _ => none

/-- Runs the body between checks of the arguments and of the result. -/
def call (f : ScalarFunction) (arguments : List Value) : Except Failure Value :=
  if arguments.length ≠ f.parameters.length then
    .error (.evaluation (.arity f.parameters.length arguments.length))
  else match unfit? 0 arguments f.parameters with
    | some e => .error (.evaluation e)
    | none => do
      let out ← f.body arguments
      if out.conformsMissing f.result then return out
      else throw (.evaluation (.result out f.result))

end ScalarFunction

/-- Functions with their names, in the order of registration. -/
structure Registry where
  entries : List (Text × ScalarFunction)

/-- The outcome of resolving a call. -/
structure Binding where
  name : Text
  function : ScalarFunction
  /-- The type of the call. -/
  result : Option DataType
  /-- Whether a null argument makes the result null without a call. -/
  propagatesNulls : Bool

namespace Registry

def empty : Registry := ⟨[]⟩

def overloads (self : Registry) (name : Text) : List ScalarFunction :=
  (self.entries.filter (·.1 == name)).map Prod.snd

/-- Overloads of a name differ in their parameters. -/
def register (self : Registry) (name : Text) (f : ScalarFunction) : Except Failure Registry :=
  if (self.overloads name).any fun g => DataType.equalAll g.parameters f.parameters then
    .error (.registered name f.parameters)
  else .ok ⟨self.entries ++ [(name, f)]⟩

/-- Puts a name into ascending names, unless it is there. -/
def insertName (name : Text) : List Text → List Text
  | [] => [name]
  | n :: ns =>
    match Text.compare name n with
    | .lt => name :: n :: ns
    | .eq => n :: ns
    | .gt => n :: insertName name ns

def names (self : Registry) : List Text :=
  self.entries.foldl (fun ns e => insertName e.1 ns) []

/-- The number of promoted arguments if all fit their parameters. An argument without a type, which
is always null, fits every parameter. -/
def cost? : (arguments parameters : List (Option DataType)) → Option Nat
  | [], [] => some 0
  | a :: as, p :: ps =>
    let one := match a, p with
      | none, _ => some 1
      | some s, some t =>
        if s.equals t then some 0 else if s.promotesTo t then some 1 else none
      | some _, none => none
    one.bind fun c => (cost? as ps).map (c + ·)
  | _, _ => none

/-- Replaces the best choice so far by one that costs less. -/
def cheaper {α : Type} (cost : α → Option Nat) (best : Option (α × Nat)) (a : α) :
    Option (α × Nat) :=
  match cost a, best with
  | none, _ => best
  | some c, none => some (a, c)
  | some c, some (b, d) => if c < d then some (a, c) else some (b, d)

/-- The choice that costs least, the earliest of equals. -/
def cheapest {α : Type} (cost : α → Option Nat) (choices : List α) : Option α :=
  (choices.foldl (cheaper cost) none).map Prod.fst

/-- The overload with the fewest promoted arguments. -/
def bestOverload (fs : List ScalarFunction) (arguments : List (Option DataType)) :
    Option ScalarFunction :=
  cheapest (fun f => cost? arguments f.parameters) fs

/-- The types without nullability, or `none` if one is missing. -/
def unwrapped? : List (Option DataType) → Option (List (Option DataType))
  | [] => some []
  | none :: _ => none
  | some t :: ts => (unwrapped? ts).map (t.nonNullable :: ·)

def hasNullable (ts : List (Option DataType)) : Bool :=
  ts.any fun t => (t.map DataType.isNullable).getD false

/-- Binds to a strict overload as if no argument were nullable; the result is nullable then. -/
def resolveNullable (name : Text) (fs : List ScalarFunction)
    (arguments bare : List (Option DataType)) : Except Failure Binding :=
  let failure := Failure.type (.noOverload name arguments)
  if hasNullable arguments then
    match bestOverload (fs.filter (·.strict)) bare with
    | none => .error failure
    | some f =>
      match f.result with
      | none => .error (.defect .missingType)
      | some r =>
        match r.asNullable with
        | some t => .ok ⟨name, f, some t, true⟩
        | none => .error failure
  else .error failure

/-- The overload for a call with arguments of the given types, found without looking at earlier
calls. -/
def resolve (self : Registry) (name : Text) (arguments : List (Option DataType)) :
    Except Failure Binding :=
  let fs := self.overloads name
  if fs.isEmpty then .error (.type (.unknownFunction name))
  else match bestOverload fs arguments with
    | some f => .ok ⟨name, f, f.result, false⟩
    | none =>
      match unwrapped? arguments with
      | none => .error (.defect .missingType)
      | some bare => resolveNullable name fs arguments bare

end Registry

/-- A store of bindings that may forget. Whenever it is asked, it gives back a binding that was put
in under the key, or nothing. -/
structure Cache where
  get : (moment : Nat) → (kept : List (Text × Binding)) → (key : Text) → Option Binding
  get_mem : ∀ {moment kept key b}, get moment kept key = some b → (key, b) ∈ kept

/-- Gives back whatever was put in last under the key. -/
def Cache.lasting : Cache where
  get _ kept key := kept.lookup key
  get_mem h := by
    obtain ⟨early, late, rfl, _⟩ := List.lookup_eq_some_iff.mp h
    simp

/-- A registry in use. -/
structure Resolver where
  registry : Registry
  /-- The bindings that were put into the cache, the last one first. -/
  kept : List (Text × Binding)
  /-- How often the cache was asked. -/
  moment : Nat

namespace Resolver

def ofRegistry (registry : Registry) : Resolver := ⟨registry, [], 0⟩

/-- What a binding is kept under: the number of registrations so far, and the name and the types as
they are written one after the other. -/
def key (self : Resolver) (name : Text) (arguments : List (Option DataType)) : Text :=
  Text.ofNat self.registry.entries.length ++ utf8 ":" ++ (name ++ DataType.listText arguments)

def register (self : Resolver) (name : Text) (f : ScalarFunction) : Except Failure Resolver :=
  (self.registry.register name f).map fun next => { self with registry := next }

/-- The binding in the cache, or else the overload for the call, which is put into the cache. -/
def bind (cache : Cache) (self : Resolver) (name : Text) (arguments : List (Option DataType)) :
    Except Failure Binding × Resolver :=
  let key := self.key name arguments
  let asked := { self with moment := self.moment + 1 }
  match cache.get self.moment self.kept key with
  | some b => (.ok b, asked)
  | none =>
    match self.registry.resolve name arguments with
    | .ok b => (.ok b, { asked with kept := (key, b) :: self.kept })
    | .error e => (.error e, asked)

end Resolver

end TypedStream
