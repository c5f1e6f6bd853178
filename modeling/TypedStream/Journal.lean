import TypedStream.Disk

namespace TypedStream

structure Journal where
  disk : Disk
  /-- The place of the file that lines go to. -/
  file : Option (List Text) := none

namespace Journal

inductive Error where
  | directory (path : Text)
  | file

def Error.message : Error → Text
  | directory path => utf8 "couldn't create log directory " ++ path
  | file => utf8 "couldn't create logs file"

def fileName : Text := utf8 "logs.txt"

/-- Starts an empty log in a directory. Where that fails, the log goes on as before. -/
def start (j : Journal) (directory : Text) : Except Error Journal :=
  match j.disk.makeDirectory directory with
  | none => .error (.directory directory)
  | some (disk, place) =>
    match disk.create (place ++ [fileName]) with
    | none => .error .file
    | some disk => .ok ⟨disk, some (place ++ [fileName])⟩

def stop (j : Journal) : Journal := { j with file := none }

def isOpen (j : Journal) : Bool := j.file.isSome

/-- Adds a line, unless the log is closed. -/
def write (j : Journal) (line : Text) : Journal :=
  match j.file with
  | none => j
  | some place => { j with disk := j.disk.append place (line ++ utf8 "\n") }

def writeAll (j : Journal) (lines : List Text) : Journal := lines.foldl write j

/-- The lines of a file: what stands before each of its line ends. -/
def linesOf (content : Text) : List Text := (Text.splitAll 10 content).dropLast

/-- All logs: their directories with their lines. -/
def logs (j : Journal) : List (List Text × List Text) :=
  j.disk.entries.filterMap fun (place, e) =>
    match e with
    | .file content =>
      if place.getLast? == some fileName then some (place.dropLast, linesOf content) else none
    | .directory => none

end Journal

end TypedStream
