import TypedStream.DataType.Interner
import TypedStream.DataType.Construction
import TypedStream.Disk
import TypedStream.Yaml.Content

namespace TypedStream

/-- A field of a stream, with its type as it is written. -/
structure FieldDeclaration where
  name : Text := []
  type : Text := []

structure StreamDeclaration where
  name : Text := []
  fields : List FieldDeclaration := []

structure Config where
  streams : List StreamDeclaration := []
  typecheck : Settings := []
  logging : Settings := []

/-- Why there is no configuration, or not the setting that is needed. -/
inductive Config.Error where
  | unreadable
  | malformed
  /-- The text is malformed, and reading it breaks down. -/
  | defect
  | setting (e : Setting.Error)
  | foreignHome

def Config.Error.message : Config.Error → Text
  | unreadable => utf8 "couldn't open file"
  | malformed => utf8 "couldn't decode yaml configuration"
  | defect => utf8 "runtime error"
  | setting e => e.message
  | foreignHome => utf8 "cannot expand user-specific home dir"

namespace Yaml.Content

def field? (c : Content) : Option FieldDeclaration := do
  (← c.members?).foldlM (fun (f : FieldDeclaration) (name, value) =>
    if name == utf8 "name" then (value.text? f.name).map ({ f with name := · })
    else if name == utf8 "type" then (value.text? f.type).map ({ f with type := · })
    else some f) {}

def stream? (c : Content) : Option StreamDeclaration := do
  (← c.members?).foldlM (fun (s : StreamDeclaration) (name, value) =>
    if name == utf8 "name" then (value.text? s.name).map ({ s with name := · })
    else if name == utf8 "fields" then (value.list? field?).map ({ s with fields := · })
    else some s) {}

def config? (c : Content) : Option Config := do
  (← c.members?).foldlM (fun (c : Config) (name, value) =>
    if name == utf8 "streams" then (value.list? stream?).map ({ c with streams := · })
    else if name == utf8 "typecheck" then
      (value.settings? c.typecheck).map ({ c with typecheck := · })
    else if name == utf8 "logging" then (value.settings? c.logging).map ({ c with logging := · })
    else some c) {}

end Yaml.Content

namespace StreamDeclaration

def fieldTypes : List FieldDeclaration → Except Failure (List (Text × Option DataType))
  | [] => .ok []
  | f :: fs => do
    let t ← inside (.fieldType f.name) ((DataType.parse f.type).mapError .type)
    let ts ← fieldTypes fs
    return (f.name, some t) :: ts

def schema (s : StreamDeclaration) : Except Failure DataType := do
  let fields ← fieldTypes s.fields
  (DataType.ofFields fields).mapError .type

end StreamDeclaration

namespace Config

def parse (text : Text) : Except Error Config :=
  match Yaml.parse text with
  | .error .malformed => .error .malformed
  | .error .breakdown => .error .defect
  | .ok node =>
    match node.content.config? with
    | some c => .ok c
    | none => .error .malformed

def stream? (c : Config) (name : Text) : Option StreamDeclaration :=
  c.streams.find? fun s => s.name == name

/-- Collects the schemas of streams after streams with the names `seen`, and interns them. -/
def schemasFrom (interner : Interner) (seen : List Text) :
    List StreamDeclaration → Except Failure (List (Text × DataType) × Interner)
  | [] => .ok ([], interner)
  | s :: ss => do
    if seen.contains s.name then throw (.duplicateStream s.name)
    let t ← inside (.streamSchema s.name) s.schema
    let (ts, last) ← schemasFrom (interner.intern t).1 (s.name :: seen) ss
    return ((s.name, t) :: ts, last)

/-- The types of the records of all streams, whose names have to be distinct. -/
def schemas (c : Config) (interner : Interner) :
    Except Failure (List (Text × DataType) × Interner) :=
  schemasFrom interner [] c.streams

/-- Whether calls on values that may be null have to be written out. -/
def strictNulls (c : Config) : Except Setting.Error Bool :=
  c.typecheck.getBoolean (utf8 "strictNulls") (some (.boolean false))

/-- Where the log is kept if nothing else is said. -/
def defaultLogDirectory (home : Text) : Text := Path.join home (utf8 ".rtsql")

def logDirectory (c : Config) (home : Text) : Except Error Text :=
  match c.logging.getText (utf8 "directory") (some (.text [])) with
  | .error e => .error (.setting e)
  | .ok [] => .ok (defaultLogDirectory home)
  | .ok directory =>
    match Path.expandHome home directory with
    | some path => .ok path
    | none => .error .foreignHome

end Config

end TypedStream
