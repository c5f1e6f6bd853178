import TypedStream.Diagram
import TypedStream.Plan.Basic

namespace TypedStream

namespace Plan

def margin : Text := utf8 "  "

/-- What follows the kind of a node on its first line. -/
def heading? : Plan → Option Text
  | .variable name _ _ => some (utf8 " " ++ name)
  | .constant v _ => (v.display?).map (utf8 " " ++ ·)
  | .call name _ _ _ _ => some (utf8 " " ++ name)
  | _ => some []

def propagates : Plan → Bool
  | .call _ _ b _ _ => b
  | _ => false

def ownLines? (p : Plan) : Option Text :=
  p.heading?.map fun heading =>
    p.kind.name ++ heading ++ utf8 "\n" ++
      margin ++ utf8 "type=" ++ DataType.textMissing p.type ++ utf8 "\n" ++
      if p.propagates then margin ++ utf8 "propagatesNulls=true\n" else []

mutual

/-- The lines of a node, and those of its children further in. -/
def dump? : Plan → Option Text
  | .call name f b t args => do
    let own ← ownLines? (.call name f b t args)
    let below ← dumpAll? args
    return own ++ below
  | .promotion p t => do
    let own ← ownLines? (.promotion p t)
    let below ← dump? p
    return own ++ Text.indent margin below
  | .logic c t args => do
    let own ← ownLines? (.logic c t args)
    let below ← dumpAll? args
    return own ++ below
  | .variable name i t => ownLines? (.variable name i t)
  | .constant v t => ownLines? (.constant v t)

def dumpAll? : List Plan → Option Text
  | [] => some []
  | p :: ps => do
    let first ← dump? p
    let others ← dumpAll? ps
    return Text.indent margin first ++ others

end

def typeField (withTypes : Bool) (t : Option DataType) : List (Text × Text) :=
  if withTypes then [(utf8 "type", DataType.textMissing t)] else []

mutual

/-- One node for each node, with its type if asked for. -/
def explain? (withTypes : Bool) : Plan → Option Diagram
  | .variable name i t =>
    some (.node name ((utf8 "index", Text.ofInt i) :: typeField withTypes t) [])
  | .constant v t => (v.display?).map fun text => .node text (typeField withTypes t) []
  | .call name _ b t args =>
    (explainAll? withTypes 0 args).map fun children =>
      .node (name ++ utf8 "(...)")
        ((if b then [(utf8 "propagates nulls", utf8 "true")] else []) ++ typeField withTypes t)
        children
  | .promotion p t =>
    (explain? withTypes p).map fun child =>
      .node (utf8 "promote")
        ((utf8 "from", DataType.textMissing p.type) :: typeField withTypes (some t))
        [(utf8 "expression", child)]
  | .logic c t args =>
    (explainAll? withTypes 0 args).map fun children =>
      .node c.label (typeField withTypes t) children

def explainAll? (withTypes : Bool) (index : Nat) : List Plan → Option (List (Text × Diagram))
  | [] => some []
  | p :: ps => do
    let first ← explain? withTypes p
    let others ← explainAll? withTypes (index + 1) ps
    return (utf8 "arg_" ++ Text.ofNat index, first) :: others

end

end Plan

end TypedStream
