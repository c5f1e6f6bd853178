import TypedStream.DataType.Basic

namespace TypedStream

namespace Scalar

def widen : Scalar → Option Scalar
  | int => some bigint
  | bigint => some float
  | float => some double
  | _ => none

/-- A scalar with all wider ones, ascending. -/
def chain : Scalar → List Scalar
  | int => [int, bigint, float, double]
  | bigint => [bigint, float, double]
  | float => [float, double]
  | s => [s]

/-- Every scalar promotes to itself, to the wider ones and to strings. -/
def promotesTo (s t : Scalar) : Bool := t == string || s.chain.contains t

end Scalar

namespace DataType

/-- Whether a value of the first type may stand where the second is expected. -/
def promotesTo : DataType → DataType → Bool
  | scalar s, scalar t => s.promotesTo t
  | scalar s, nullable t => s.promotesTo t
  | nullable s, nullable t => s.promotesTo t
  | nullableAny, nullable _ => true
  | nullableAny, nullableAny => true
  | record fs, t => equals (record fs) t
  | function r ps, t => equals (function r ps) t
  | _, _ => false

def widen : DataType → Option DataType
  | scalar s => s.widen.map scalar
  | nullable s => s.widen.map nullable
  | _ => none

/-- A type with all wider ones, ascending. -/
def chain : DataType → List DataType
  | scalar s => s.chain.map scalar
  | nullable s => s.chain.map nullable
  | t => [t]

/-- The types passed when widening towards a target that the source promotes to. -/
def wideningPath (source target : DataType) : Option (List DataType) :=
  if source.promotesTo target then
    let numeric := (target.nonNullable.map isNumeric).getD false
    let steps := if numeric then (source.chain.drop 1).takeWhile (·.promotesTo target) else []
    let path := source :: steps
    if (path.getLast?.map (·.equals target)).getD false then some path
    else some (path ++ [target])
  else none

/-- The types that a common type is chosen from, in order of preference. -/
def candidates (a b : DataType) : List DataType :=
  let chains := a.chain ++ b.chain
  chains ++ chains.filterMap asNullable

/-- Replaces the best candidate so far by a strictly narrower one. -/
def narrower (best : Option DataType) (candidate : DataType) : Option DataType :=
  match best with
  | none => some candidate
  | some current =>
    if candidate.promotesTo current && !current.promotesTo candidate then some candidate
    else some current

/-- The narrowest of the candidates that both types promote to. -/
def commonType (a b : DataType) : Option DataType :=
  ((candidates a b).filter fun c => a.promotesTo c && b.promotesTo c).foldl narrower none

end DataType

end TypedStream
