import TypedStream.Binary.Number
import TypedStream.Time.Basic

namespace TypedStream

inductive Setting where
  | null
  | boolean (b : Bool)
  | whole (n : Int)
  | real (x : Double)
  | text (t : Text)
  | instant (t : Instant)
  | list (items : List Setting)
  | table (entries : List (Text × Setting))
  /-- A table whose keys are not all of them text. -/
  | dictionary (entries : List (Setting × Setting))

/-- Settings by name. Names are distinct, or else the first one counts. -/
abbrev Settings := List (Text × Setting)

namespace Setting

/-- What messages call a kind of setting. -/
def kindName : Setting → Text
  | null => utf8 "<nil>"
  | boolean _ => utf8 "bool"
  | whole n => if n < Nat.pow 2 63 then utf8 "int" else utf8 "uint64"
  | real _ => utf8 "float64"
  | text _ => utf8 "string"
  | instant _ => utf8 "time.Time"
  | list _ => utf8 "[]interface \x7b\x7d"
  | table _ => utf8 "map[string]interface \x7b\x7d"
  | dictionary _ => utf8 "map[interface \x7b\x7d]interface \x7b\x7d"

/-- Why a setting has no value of the kind asked for. -/
inductive Error where
  | notFound
  /-- A path goes on below a setting that has nothing below it. -/
  | notTable (name found : Text)
  | notText (found : Text)
  | notBoolean (found : Text)
  /-- The default is of another kind than the setting: the caller's fault. -/
  | defaultKind
  /-- The failure of a path further down. -/
  | beneath (path : Text) (e : Error)
  | reading (path : Text) (e : Error)

namespace Error

def message : Error → Text
  | notFound => utf8 "field not found"
  | notTable name found => name ++ utf8 " should be a map, got: " ++ found
  | notText found => utf8 "expected string, got " ++ found
  | notBoolean found => utf8 "expected bool, got " ++ found
  | defaultKind => utf8 "runtime error"
  | beneath path e => utf8 "couldn't get interface from " ++ path ++ utf8 ": " ++ e.message
  | reading path e => utf8 "couldn't get " ++ path ++ utf8 ": " ++ e.message

/-- The error without the paths it was met on. -/
def cause : Error → Error
  | beneath _ e => e.cause
  | reading _ e => e.cause
  | e => e

def isNotFound (e : Error) : Bool :=
  match e.cause with
  | notFound => true
  | _ => false

end Error

end Setting

namespace Settings

open Setting (Error)

def put (settings : Settings) (name : Text) (value : Setting) : Settings :=
  (name, value) :: settings.filter fun (other, _) => other != name

/-- The names along a path. There is always one, though it may be empty. -/
def pathNames (path : Text) : List Text := Text.splitAll 46 path

def ofNames (names : List Text) : Text := Text.join (utf8 ".") names

/-- Follows names down from `settings`. A name that is not there has the default, if there is
one. -/
def walk (fallback : Option Setting) : Settings → List Text → Except Error Setting
  | settings, [] => .ok (.table settings)
  | settings, [name] =>
    match settings.lookup name, fallback with
    | some found, _ => .ok found
    | none, some d => .ok d
    | none, none => .error .notFound
  | settings, name :: next :: names =>
    match settings.lookup name, fallback with
    | some (.table below), _ =>
      (walk fallback below (next :: names)).mapError (.beneath (ofNames (next :: names)))
    | some found, _ => .error (.notTable name found.kindName)
    | none, some d => .ok d
    | none, none => .error .notFound

/-- The setting on a path, of whatever kind. -/
def get (settings : Settings) (path : Text) (fallback : Option Setting) : Except Error Setting :=
  walk fallback settings (pathNames path)

/-- The setting on a path with a default of its own: the default has to be of the kind that `view`
sees, and so has the setting. -/
def getAs {α : Type} (view : Setting → Option α) (mismatch : Text → Error) (settings : Settings)
    (path : Text) (fallback : Option Setting) : Except Error α :=
  match settings.get path none with
  | .ok found =>
    match view found with
    | some a => .ok a
    | none => .error (mismatch found.kindName)
  | .error e =>
    match fallback with
    | none => .error (.reading path e)
    | some d =>
      if e.isNotFound then
        match view d with
        | some a => .ok a
        | none => .error .defaultKind
      else .error (.reading path e)

def text? : Setting → Option Text
  | .text t => some t
  | _ => none

def boolean? : Setting → Option Bool
  | .boolean b => some b
  | _ => none

def getText : Settings → Text → Option Setting → Except Error Text := getAs text? .notText

def getBoolean : Settings → Text → Option Setting → Except Error Bool :=
  getAs boolean? .notBoolean

end Settings

end TypedStream
