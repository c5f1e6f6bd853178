import TypedStream.Text

namespace TypedStream

inductive Connective where
  | conjunction
  | disjunction
  deriving DecidableEq

namespace Connective

/-- The argument that settles the result by itself. -/
def decisive : Connective → Bool
  | conjunction => false
  | disjunction => true

def keyword : Connective → Text
  | conjunction => utf8 "AND"
  | disjunction => utf8 "OR"

def label : Connective → Text
  | conjunction => utf8 "and"
  | disjunction => utf8 "or"

end Connective

namespace Plan

inductive Kind where
  | variable
  | constant
  | call
  | promotion
  | logic (c : Connective)
  deriving DecidableEq

def Kind.name : Kind → Text
  | .variable => utf8 "Variable"
  | .constant => utf8 "Constant"
  | .call => utf8 "FunctionCall"
  | .promotion => utf8 "Promotion"
  | .logic .conjunction => utf8 "And"
  | .logic .disjunction => utf8 "Or"

end Plan

end TypedStream
