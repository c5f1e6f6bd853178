import TypedStream.Yaml.Token.Queue

namespace TypedStream.Yaml

inductive Node where
  /-- A scalar; what is not plain is in quotes or a block of lines. -/
  | scalar (tag : Option Text) (plain : Bool) (text : Text)
  | list (items : List Node)
  | map (entries : List (Node × Node))
  /-- The name of a node that stands before; the node is missing if the name stands inside it. -/
  | reference (name : Text) (target : Option Node)

namespace Node

/-- What stands where nothing is written. -/
def empty : Node := scalar none true []

end Node

inductive Fault where
  | malformed
  /-- What follows a list item with a comment above it cannot be read, and reading breaks down. -/
  | breakdown

/-- A node that has a name, and its number among those. It is missing while it is being read. -/
structure Anchor where
  name : Text
  number : Nat
  target : Option Node

/-- How far the reading of a document has come. -/
structure Progress where
  queue : Queue
  /-- Whether there is a comment above what comes next, and whether an empty line follows it. -/
  header : Option Bool := none
  /-- The anchors, the last one first. -/
  anchors : List Anchor := []
  handles : List (Text × Text) := []

abbrev Reader := StateT Progress (Except Fault)

namespace Reader

def fail {α : Type} : Reader α := throw .malformed

/-- Takes notice of the comments that belong to a token. Those above it wait while blocks end. -/
def noticeComments (t : Token) (m : Mark) (header : Option Bool) :
    List Comment → Option Bool × List Comment
  | [] => (header, [])
  | c :: cs =>
    match t, c.above with
    | .blockEnd, true => (header, c :: cs)
    | _, above =>
      if m.index < c.index then (header, c :: cs)
      else noticeComments t m (if above then some c.closed else header) cs

def peek : Reader Token := do
  let p ← get
  match p.queue.ready with
  | none => fail
  | some q =>
    match q.tokens with
    | [] => fail
    | (t, m) :: _ =>
      let (header, comments) := noticeComments t m p.header q.comments
      set { p with queue := { q with comments := comments }, header := header }
      return t

def advance : Reader Unit := modify fun p => { p with queue := p.queue.take }

/-- The comment above belongs to what has been read. -/
def closeHeader : Reader Unit := modify fun p => { p with header := none }

/-- Goes past the dash of an item. A comment above it belongs to the block that the item starts, if
it starts one. -/
def advanceDash : Reader Unit := do
  let header := (← get).header
  advance
  if header.isSome then
    closeHeader
    let t ← tryCatch peek fun _ => throw .breakdown
    match t with
    | .listStart | .mapStart => return
    | _ => modify fun p => { p with header := p.header <|> header }

/-- The anchor and the tag in front of a node, in any order. -/
def properties : Reader (Option Text × Option (Text × Text)) := do
  match ← peek with
  | .anchor name =>
    advance
    match ← peek with
    | .tag handle suffix => advance; return (some name, some (handle, suffix))
    | _ => return (some name, none)
  | .tag handle suffix =>
    advance
    match ← peek with
    | .anchor name => advance; return (some name, some (handle, suffix))
    | _ => return (none, some (handle, suffix))
  | _ => return (none, none)

/-- The first part of the tags of the format itself, which is shortened to two marks. -/
def ownTags : Text := utf8 "tag:yaml.org,2002:"

/-- A tag in its short form. A lone mark is no tag. -/
def shortTag (tag : Text) : Option Text :=
  match Text.dropFront ownTags tag with
  | some name => some (utf8 "!!" ++ name)
  | none => if tag == utf8 "!" then none else some tag

def expandTag (handle suffix : Text) : Reader (Option Text) := do
  if handle.isEmpty then return shortTag suffix
  match (← get).handles.lookup handle with
  | some expansion => return shortTag (expansion ++ suffix)
  | none => fail

/-- Names a node that is about to be read. -/
def openAnchor (name : Option Text) : Reader Nat := do
  let p ← get
  let number := p.anchors.length
  match name with
  | some name => set { p with anchors := ⟨name, number, none⟩ :: p.anchors }
  | none => return number
  return number

/-- The node with the number has been read. -/
def closeAnchor (number : Nat) (n : Node) (name : Option Text) : Reader Node := do
  if name.isSome then
    modify fun p =>
      { p with anchors := p.anchors.map fun a =>
          if a.number = number then { a with target := some n } else a }
  return n

def referenceNode (name : Text) : Reader Node := do
  match (← get).anchors.find? fun a => a.name == name with
  | some a => return .reference name a.target
  | none => fail

/-- Whether an item of an indented list is missing before a token. -/
def endsItem : Token → Bool
  | .dash | .blockEnd => true
  | _ => false

/-- Whether a key or a value of an indented map is missing before a token. -/
def endsEntry : Token → Bool
  | .key | .value | .blockEnd => true
  | _ => false

/-- The next part of a collection in brackets, or the bracket that closes it. A comma has to come
before each part but the first. -/
def nextPart (first : Bool) : Reader Token := do
  match first, ← peek with
  | false, .comma => advance; peek
  | false, .listClose => return .listClose
  | false, .mapClose => return .mapClose
  | false, _ => fail
  | true, t => return t

mutual

/-- Reads a node. Each step takes one unit of fuel. Nodes in brackets are no `block`s; the items of
a list that is the value of a key may be `flush` with the key. -/
def readNode (block flush : Bool) : (fuel : Nat) → Reader Node
  | 0 => fail
  | fuel + 1 => do
    if let .reference name ← peek then
      closeHeader
      advance
      return ← referenceNode name
    let (name, written) ← properties
    let tag ← match written with
      | some (handle, suffix) => expandTag handle suffix
      | none => pure none
    match block, flush, ← peek with
    | _, true, .dash => do
      let number ← openAnchor name
      closeAnchor number (.list (← readFlushItems fuel)) name
    | _, _, .scalar plain text => do
      closeHeader
      advance
      let number ← openAnchor name
      closeAnchor number (.scalar tag plain text) name
    | _, _, .listOpen => do
      closeHeader
      advance
      let number ← openAnchor name
      closeAnchor number (.list (← readListParts true fuel)) name
    | _, _, .mapOpen => do
      closeHeader
      advance
      let number ← openAnchor name
      closeAnchor number (.map (← readMapParts true fuel)) name
    | true, _, .listStart => do
      advance
      let number ← openAnchor name
      closeAnchor number (.list (← readItems fuel)) name
    | true, _, .mapStart => do
      advance
      let number ← openAnchor name
      closeAnchor number (.map (← readEntries fuel)) name
    | _, _, _ =>
      if name.isNone && written.isNone then fail
      else do
        let number ← openAnchor name
        closeAnchor number (.scalar tag true []) name

/-- Reads the items of an indented list. -/
def readItems : (fuel : Nat) → Reader (List Node)
  | 0 => fail
  | fuel + 1 => do
    match ← peek with
    | .dash =>
      advanceDash
      let item ← if endsItem (← peek) then pure .empty else readNode true false fuel
      return item :: (← readItems fuel)
    | .blockEnd => advance; return []
    | _ => fail

/-- Reads the items of a list that are flush with the key before them. -/
def readFlushItems : (fuel : Nat) → Reader (List Node)
  | 0 => fail
  | fuel + 1 => do
    match ← peek with
    | .dash =>
      advanceDash
      let t ← peek
      let item ← if endsItem t || endsEntry t then pure .empty else readNode true false fuel
      return item :: (← readFlushItems fuel)
    | _ => return []

/-- Reads the entries of an indented map. A key or a value may be missing. -/
def readEntries : (fuel : Nat) → Reader (List (Node × Node))
  | 0 => fail
  | fuel + 1 => do
    match ← peek with
    | .key =>
      advance
      let key ← if endsEntry (← peek) then pure .empty else readNode true true fuel
      let value ← readEntryValue fuel
      return (key, value) :: (← readEntries fuel)
    | .blockEnd => closeHeader; advance; return []
    | _ => fail

def readEntryValue : (fuel : Nat) → Reader Node
  | 0 => fail
  | fuel + 1 => do
    match ← peek with
    | .value =>
      advance
      if endsEntry (← peek) then return .empty else readNode true true fuel
    | _ => return .empty

/-- Reads the items of a list in brackets; a comma comes before each but the first. -/
def readListParts (first : Bool) : (fuel : Nat) → Reader (List Node)
  | 0 => fail
  | fuel + 1 => do
    match ← nextPart first with
    | .listClose => closeHeader; advance; return []
    | .key =>
      advance
      let pair ← readPair fuel
      return pair :: (← readListParts false fuel)
    | _ =>
      let item ← readNode false false fuel
      return item :: (← readListParts false fuel)

/-- Reads a map of one entry in a list. A token is lost where the key is missing. -/
def readPair : (fuel : Nat) → Reader Node
  | 0 => fail
  | fuel + 1 => do
    let key ← match ← peek with
      | .value | .comma | .listClose => do advance; pure .empty
      | _ => readNode false false fuel
    let value ← match ← peek with
      | .value => do
        advance
        match ← peek with
        | .comma | .listClose => pure .empty
        | _ => readNode false false fuel
      | _ => pure .empty
    let _ ← peek
    return .map [(key, value)]

/-- Reads the entries of a map in brackets; what stands alone is a key without a value. -/
def readMapParts (first : Bool) : (fuel : Nat) → Reader (List (Node × Node))
  | 0 => fail
  | fuel + 1 => do
    match ← nextPart first with
    | .mapClose => closeHeader; advance; return []
    | .key =>
      advance
      let key ← match ← peek with
        | .value | .comma | .mapClose => pure .empty
        | _ => readNode false false fuel
      let value ← readPartValue fuel
      return (key, value) :: (← readMapParts false fuel)
    | _ =>
      let key ← readNode false false fuel
      let _ ← peek
      return (key, .empty) :: (← readMapParts false fuel)

def readPartValue : (fuel : Nat) → Reader Node
  | 0 => fail
  | fuel + 1 => do
    match ← peek with
    | .value =>
      advance
      match ← peek with
      | .comma | .mapClose => return .empty
      | _ => readNode false false fuel
    | _ => return .empty

end

/-- The handles that need not be declared. -/
def defaultHandles : List (Text × Text) := [(utf8 "!", utf8 "!"), (utf8 "!!", ownTags)]

/-- Reads the directives before a document. Only one version of the format is known. -/
def readDirectives : (fuel : Nat) → (versioned : Bool) → Reader Unit
  | 0, _ => fail
  | fuel + 1, versioned => do
    match ← peek with
    | .version major minor =>
      if versioned || major != 1 || minor != 1 then fail
      advance
      readDirectives fuel true
    | .handle name expansion =>
      if ((← get).handles.lookup name).isSome then fail
      advance
      modify fun p => { p with handles := (name, expansion) :: p.handles }
      readDirectives fuel versioned
    | _ => modify fun p => { p with handles := p.handles ++ defaultHandles }

def readDocument (fuel : Nat) : Reader Node := do
  let n ← match ← peek with
    | .textEnd => fail
    | .version .. | .handle .. | .documentStart => do
      readDirectives fuel false
      match ← peek with
      | .documentStart => advance
      | _ => fail
      match ← peek with
      | .version .. | .handle .. | .documentStart | .documentEnd | .textEnd => pure .empty
      | _ => readNode true false fuel
    | _ => do
      modify fun p =>
        { p with handles := defaultHandles, header := p.header.filter (!·) }
      readNode true false fuel
  let _ ← peek
  return n

end Reader

/-- The tree of the first document of a text. -/
def parse (text : Text) : Except Fault Node :=
  match readable text with
  | none => .error .malformed
  | some runes =>
    let start : Progress := { queue := .ofRunes runes }
    (Reader.readDocument (4 * runes.length + 16) start).map Prod.fst

end TypedStream.Yaml
