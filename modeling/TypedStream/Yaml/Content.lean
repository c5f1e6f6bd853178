import TypedStream.Yaml.Node
import TypedStream.Yaml.Resolve

namespace TypedStream.Yaml

inductive Content where
  | invalid
  /-- The meaning of a scalar, and its text. -/
  | scalar (setting : Setting) (text : Text)
  | list (items : List Content)
  /-- Later entries count more than earlier ones. `textual` says whether all keys are text. -/
  | map (textual : Bool) (entries : List (Content × Content))

namespace Node

/-- Whether two nodes count as the same key: scalars by their text, lists and maps always. -/
def sameKey : Node → Node → Bool
  | scalar _ _ s, scalar _ _ t => s == t
  | list _, list _ => true
  | map _, map _ => true
  | reference s _, reference t _ => s == t
  | _, _ => false

/-- Whether keys are pairwise different. -/
def distinctKeys : List (Node × Node) → Bool
  | [] => true
  | (key, _) :: entries =>
    !(entries.any fun (other, _) => sameKey key other) && distinctKeys entries

/-- Whether a key stands for the entries of other maps. -/
def isMerge : Node → Bool
  | scalar none plain t => plain && t == utf8 "<<"
  | scalar (some tag) _ t => tag == utf8 "!!merge" && t == utf8 "<<"
  | _ => false

/-- Whether a node is text and nothing else. -/
def isText : Node → Bool
  | scalar none false _ => true
  | scalar none true t =>
    match resolvePlain t with
    | .text _ => t != utf8 "<<"
    | _ => false
  | scalar (some tag) _ _ => tag == utf8 "!!str"
  | reference _ (some n) => n.isText
  | _ => false

mutual

def content : Node → Content
  | scalar tag plain t =>
    match resolve tag plain t with
    | some s => .scalar s t
    | none => .invalid
  | list items => .list (contents items)
  | map entries =>
    match merged? (map entries) with
    | some contents => .map (entries.all fun (key, _) => key.isText) contents
    | none => .invalid
  | reference _ (some n) => n.content
  | reference _ none => .invalid

def contents : List Node → List Content
  | [] => []
  | n :: ns => n.content :: contents ns

/-- The entries of a map with distinct keys, or of several such maps, of which the first ones count
most. -/
def merged? : Node → Option (List (Content × Content))
  | map entries => if distinctKeys entries then entries? entries else none
  | reference _ (some (map entries)) => if distinctKeys entries then entries? entries else none
  | list items => mergedItems? items
  | _ => none

def mergedItems? : List Node → Option (List (Content × Content))
  | [] => some []
  | list _ :: _ => none
  | n :: ns => do
    let after ← mergedItems? ns
    let first ← n.merged?
    return after ++ first

def entries? : List (Node × Node) → Option (List (Content × Content))
  | [] => some []
  | (key, value) :: rest => do
    let here ← if key.isMerge then value.merged? else some [(key.content, value.content)]
    let after ← entries? rest
    return here ++ after

end

end Node

namespace Content

def isNull : Content → Bool
  | scalar .null _ => true
  | _ => false

/-- The meaning of a key, which has to be a scalar. -/
def key? : Content → Option Setting
  | scalar s _ => some s
  | _ => none

/-- The name that a key is; the key that is nothing names nothing. -/
def name? : Content → Option (Option Text)
  | scalar .null _ => some none
  | scalar _ t => some (some t)
  | _ => none

/-- A table of entries that have text for keys. -/
def tableOf (entries : List (Setting × Setting)) : Setting :=
  .table (entries.foldl (fun settings (key, value) =>
    match key with
    | .text name => Settings.put settings name value
    | _ => settings) [])

mutual

/-- The setting that something describes. -/
def setting? : Content → Option Setting
  | invalid => none
  | scalar s _ => some s
  | list items => (items? items).map .list
  | map textual entries =>
    (pairs? entries).map fun pairs => if textual then tableOf pairs else .dictionary pairs

def items? : List Content → Option (List Setting)
  | [] => some []
  | c :: cs => do
    let s ← c.setting?
    let ss ← items? cs
    return s :: ss

def pairs? : List (Content × Content) → Option (List (Setting × Setting))
  | [] => some []
  | (key, value) :: rest => do
    let k ← key.key?
    let s ← value.setting?
    let ss ← pairs? rest
    return (k, s) :: ss

end

/-- The named entries of a map. Nothing written is a map without entries. -/
def members? : Content → Option (List (Text × Content))
  | map _ entries => do
    let named ← entries.mapM fun (key, value) => key.name?.map fun name => (name, value)
    return named.filterMap fun (name, value) => name.map fun name => (name, value)
  | scalar .null _ => some []
  | _ => none

/-- Text may be written as any kind of scalar; nothing written leaves the text as it was. -/
def text? (old : Text) : Content → Option Text
  | scalar .null _ => some old
  | scalar _ t => some t
  | _ => none

/-- The items of a list that are not nothing, each read by `read`. -/
def list? {α : Type} (read : Content → Option α) : Content → Option (List α)
  | list items => (items.filter (!·.isNull)).mapM read
  | scalar .null _ => some []
  | _ => none

/-- Adds the entries of a map to settings. Nothing written leaves no settings. -/
def settings? (old : Settings) : Content → Option Settings
  | scalar .null _ => some []
  | c => do
    let members ← c.members?
    members.foldlM (fun settings (name, value) => value.setting?.map (settings.put name)) old

end Content

end TypedStream.Yaml
