import TypedStream.Command.Run

namespace TypedStream.Main

open Command

def bytes (t : Text) : ByteArray := ByteArray.mk t.toArray

/-- A text as a string; bytes that are part of no character are replaced. -/
def render (t : Text) : String := (String.fromUTF8? (bytes (Text.ofRunes t.runes))).getD ""

def readConfig (path : Text) : IO (Except Config.Error Config) := do
  try
    let content ← IO.FS.readBinFile (render path)
    return Config.parse content.toList
  catch _ => return .error .unreadable

def openLog (directory : Text) : IO (Except Error IO.FS.Handle) := do
  try IO.FS.createDirAll (render directory)
  catch _ => return .error (.journal (.directory directory))
  try
    let handle ← IO.FS.Handle.mk (render (Path.join directory Journal.fileName)) .write
    return .ok handle
  catch _ => return .error (.journal .file)

def fail (e : Error) : IO UInt32 := do
  IO.eprintln ("Error: " ++ render e.message)
  return 1

/-- Runs a command and adds its lines to the log, or to the standard error without one. -/
def finish (read : Reader) (o : Options) (verb : Verb) (log : Option IO.FS.Handle) :
    IO UInt32 := do
  let outcome := run read o verb
  for line in outcome.log do
    match log with
    | some handle => handle.write (bytes (line ++ utf8 "\n"))
    | none => IO.eprintln (render line)
  match outcome.result with
  | .ok text => do
    (← IO.getStdout).write (bytes text)
    return 0
  | .error e => fail e

def execute (o : Options) (verb : Verb) : IO UInt32 := do
  let config ← readConfig o.config
  let home := utf8 ((← IO.getEnv "HOME").getD "")
  match o.logDirectory (fun _ => config) home with
  | .error e => fail e
  | .ok none => finish (fun _ => config) o verb none
  | .ok (some directory) => do
    match ← openLog directory with
    | .error e => fail e
    | .ok handle => finish (fun _ => config) o verb (some handle)

end TypedStream.Main

open TypedStream Command in
def main (words : List String) : IO UInt32 := do
  match Request.parse (words.map utf8) with
  | .error e => Main.fail e
  | .ok .help | .ok (.script _) => return 0
  | .ok (.run verb o) => Main.execute o verb
