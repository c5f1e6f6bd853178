import TypedStream.Text

namespace TypedStream

inductive Diagram where
  | node (name : Text) (fields : List (Text × Text)) (children : List (Text × Diagram))

namespace Diagram

def name : Diagram → Text
  | node n _ _ => n

def fields : Diagram → List (Text × Text)
  | node _ fs _ => fs

def children : Diagram → List (Text × Diagram)
  | node _ _ cs => cs

/-- The bytes that mean something inside a label. -/
def isSpecial (b : UInt8) : Bool :=
  b == 92 || b == 34 || b == 60 || b == 62 || b == 123 || b == 125 || b == 124

/-- Puts a backslash before each special byte. -/
def escape : Text → Text
  | [] => []
  | b :: rest => if isSpecial b then 92 :: b :: escape rest else b :: escape rest

def outletText (index : Nat) : Text := utf8 "c" ++ Text.ofNat index

/-- The cells of the outlets, from the given one on. -/
def outletCells (index : Nat) : List (Text × Diagram) → List Text
  | [] => []
  | (name, _) :: rest =>
    (utf8 "<" ++ outletText index ++ utf8 "> " ++ escape name) :: outletCells (index + 1) rest

def fieldCells (fields : List (Text × Text)) : List Text :=
  fields.map fun (name, value) => escape name ++ utf8 ": " ++ escape value

/-- The rows of a label: the name, the fields if there are any, the outlets if there are any. -/
def labelRows : Diagram → List Text
  | node name fields children =>
    let row (cells : List Text) := if cells.isEmpty then [] else [Text.join (utf8 "|") cells]
    (utf8 "<f0> " ++ escape name) :: (row (fieldCells fields) ++ row (outletCells 0 children))

def label (d : Diagram) : Text :=
  utf8 "\"\x7b\x7b" ++ Text.join (utf8 "\x7d|\x7b") d.labelRows ++ utf8 "\x7d\x7d\""

end Diagram

/-- An edge from an outlet of one vertex to another vertex. -/
structure Edge where
  source : Nat
  outlet : Nat
  target : Nat
  deriving DecidableEq

/-- Numbered vertices with their labels, and edges. -/
structure Drawing where
  vertices : List (Nat × Text)
  edges : List Edge

namespace Drawing

def append (a b : Drawing) : Drawing := ⟨a.vertices ++ b.vertices, a.edges ++ b.edges⟩

mutual

/-- Draws a tree whose root gets the number `next`; the vertices are numbered in the order of a
walk from the root. -/
def ofTree (next : Nat) : Diagram → Drawing
  | .node name fields children =>
    let below := ofChildren next 0 (next + 1) children
    ⟨(next, Diagram.label (.node name fields children)) :: below.vertices, below.edges⟩

/-- Draws children of `parent` from the given outlet on. The edges inside a child's tree come before
the edge to the child. -/
def ofChildren (parent outlet next : Nat) : List (Text × Diagram) → Drawing
  | [] => ⟨[], []⟩
  | (_, child) :: rest =>
    let first := ofTree next child
    let others := ofChildren parent (outlet + 1) (next + first.vertices.length) rest
    ⟨first.vertices ++ others.vertices, first.edges ++ ⟨parent, outlet, next⟩ :: others.edges⟩

end

def ofDiagram (d : Diagram) : Drawing := ofTree 0 d

def vertexName (n : Nat) : Text := utf8 "node_" ++ Text.ofNat n

/-- Puts a vertex among vertices in the order of their names. -/
def insertVertex (v : Nat × Text) : List (Nat × Text) → List (Nat × Text)
  | [] => [v]
  | w :: ws =>
    match Text.compare (vertexName v.1) (vertexName w.1) with
    | .gt => w :: insertVertex v ws
    | _ => v :: w :: ws

def sortVertices (vs : List (Nat × Text)) : List (Nat × Text) := vs.foldr insertVertex []

def edgeText (e : Edge) : Text :=
  vertexName e.source ++ utf8 ":" ++ Diagram.outletText e.outlet ++ utf8 "->" ++ vertexName e.target

def vertexText (v : Nat × Text) : Text :=
  vertexName v.1 ++ utf8 " [ label=" ++ v.2 ++ utf8 ", shape=record ]"

/-- The drawing as a graph in dot: edges first, then the vertices by name. -/
def dot (d : Drawing) : Text :=
  let statements := utf8 "rankdir=LR" ::
    (d.edges.map edgeText ++ (sortVertices d.vertices).map vertexText)
  utf8 "digraph  \x7b\n" ++ statements.flatMap (fun s => utf8 "\t" ++ s ++ utf8 ";\n") ++
    utf8 "\n\x7d\n"

end Drawing

def Diagram.dot (d : Diagram) : Text := (Drawing.ofDiagram d).dot

end TypedStream
