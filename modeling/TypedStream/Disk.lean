import TypedStream.Text

namespace TypedStream

namespace Path

def slash : UInt8 := 47

/-- One more name after those collected so far, last first. A name of two dots undoes the name
before it, if there is one to undo; in front of a path from the root it counts for nothing. -/
def collect (rooted : Bool) (names : List Text) (name : Text) : List Text :=
  if name.isEmpty || name == utf8 "." then names
  else if name == utf8 ".." then
    match names with
    | last :: before => if last == utf8 ".." then name :: names else before
    | [] => if rooted then [] else [name]
  else name :: names

/-- The shortest path to the same place. -/
def clean (path : Text) : Text :=
  let rooted := path.head? == some slash
  let names := ((Text.splitAll slash path).foldl (collect rooted) []).reverse
  let joined := Text.join [slash] names
  if rooted then slash :: joined
  else if names.isEmpty then utf8 "."
  else joined

def join (front back : Text) : Text :=
  if front.isEmpty && back.isEmpty then []
  else clean (Text.join [slash] ([front, back].filter (!·.isEmpty)))

/-- Replaces a tilde in front by the home directory; `none` if it is somebody else's. -/
def expandHome (home path : Text) : Option Text :=
  match path with
  | 126 :: rest =>
    match rest with
    | [] => some (join home [])
    | b :: _ => if b = slash || b = 92 then some (join home rest) else none
  | _ => some path

end Path

inductive DiskEntry where
  | directory
  | file (content : Text)

structure Disk where
  entries : List (List Text × DiskEntry) := []

namespace Disk

/-- What is at a place. At the root there is a directory. -/
def at? (d : Disk) (place : List Text) : Option DiskEntry :=
  if place.isEmpty then some .directory else d.entries.lookup place

def put (d : Disk) (place : List Text) (e : DiskEntry) : Disk :=
  ⟨(place, e) :: d.entries.filter fun (p, _) => p != place⟩

/-- The place that a name leads to from a directory. -/
def step (place : List Text) (name : Text) : List Text :=
  if name.isEmpty || name == utf8 "." then place
  else if name == utf8 ".." then place.dropLast
  else place ++ [name]

/-- Follows names, each of them in a directory. -/
def follow (d : Disk) : (place : List Text) → (names : List Text) → Option (List Text)
  | place, [] => some place
  | place, name :: names =>
    match d.at? place with
    | some .directory => d.follow (step place name) names
    | _ => none

def find? (d : Disk) (path : Text) : Option DiskEntry :=
  if path.isEmpty then none
  else (d.follow [] (Text.splitAll Path.slash path)).bind d.at?

/-- Follows names and makes the directories that are missing; `none` if a file is in the way. -/
def enter (d : Disk) : (place : List Text) → (names : List Text) → Option (Disk × List Text)
  | place, [] => some (d, place)
  | place, name :: names =>
    let next := step place name
    match d.at? next with
    | some .directory => d.enter next names
    | some (.file _) => none
    | none => (d.put next .directory).enter next names

/-- The place of a directory, which is made if it is missing. -/
def makeDirectory (d : Disk) (path : Text) : Option (Disk × List Text) :=
  if path.isEmpty then none else d.enter [] (Text.splitAll Path.slash path)

/-- Makes an empty file at a place, or empties the one that is there. -/
def create (d : Disk) (place : List Text) : Option Disk :=
  match d.at? place with
  | some .directory => none
  | _ => some (d.put place (.file []))

def append (d : Disk) (place : List Text) (content : Text) : Disk :=
  match d.at? place with
  | some (.file before) => d.put place (.file (before ++ content))
  | _ => d

end Disk

end TypedStream
