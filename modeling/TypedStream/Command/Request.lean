import TypedStream.Command.Error
import TypedStream.Text.Case

namespace TypedStream.Command

inductive Verb where
  | promotes
  | schema
  | project
  | functions
  deriving DecidableEq

/-- A flag; a switch may stand without a value. -/
inductive Flag where
  | config
  | logToFile
  | help
  | stream
  | graph
  | noDescriptions
  deriving DecidableEq

namespace Flag

def name : Flag → Text
  | config => utf8 "config"
  | logToFile => utf8 "log-to-file"
  | help => utf8 "help"
  | stream => utf8 "stream"
  | graph => utf8 "graph"
  | noDescriptions => utf8 "no-descriptions"

def isSwitch : Flag → Bool
  | config | stream => false
  | logToFile | help | graph | noDescriptions => true

def shown (f : Flag) : Text :=
  (if f = help then utf8 "-h, --" else utf8 "--") ++ f.name

def shared : List Flag := [config, logToFile, help]

def ofName? (flags : List Flag) (name : Text) : Option Flag := flags.find? fun f => f.name == name

end Flag

namespace Verb

def name : Verb → Text
  | promotes => utf8 "promotes"
  | schema => utf8 "schema"
  | project => utf8 "project"
  | functions => utf8 "functions"

def all : List Verb := [promotes, schema, project, functions]

def ofName? (name : Text) : Option Verb := all.find? fun v => v.name == name

def flags : Verb → List Flag
  | project => Flag.shared ++ [.stream, .graph]
  | _ => Flag.shared

end Verb

def program : Text := utf8 "rtsql"

/-- The command that prints scripts, and the shells that it has one for. -/
def completion : Text := utf8 "completion"

def shells : List Text := [utf8 "bash", utf8 "zsh", utf8 "fish", utf8 "powershell"]

/-- The commands that scripts call; they need something to complete. -/
def completers : List Text := [utf8 "__complete", utf8 "__completeNoDesc"]

structure Options where
  config : Text := []
  logToFile : Bool := true
  help : Bool := false
  stream : Option Text := none
  graph : Bool := false
  arguments : List Text := []

def readSwitch? (value : Text) : Option Bool :=
  if ["1", "t", "T", "TRUE", "true", "True"].any fun w => utf8 w == value then some true
  else if ["0", "f", "F", "FALSE", "false", "False"].any fun w => utf8 w == value then some false
  else none

namespace Options

def switch (f : Flag) (value : Text) (set : Bool → Options) : Except Error Options :=
  match readSwitch? value with
  | some b => .ok (set b)
  | none => .error (.invalidSwitch value f.shown)

def set (o : Options) (value : Text) : Flag → Except Error Options
  | .config => .ok { o with config := value }
  | .stream => .ok { o with stream := some value }
  | .logToFile => switch .logToFile value fun b => { o with logToFile := b }
  | .help => switch .help value fun b => { o with help := b }
  | .graph => switch .graph value fun b => { o with graph := b }
  | .noDescriptions => switch .noDescriptions value fun _ => o

/-- Reads the letters of flags that are written with one dash. Only help has one, and it may be
followed by an equals sign and a value. The flags of a test run are passed over. -/
def setLetters (o : Options) : Text → Except Error Options
  | [] => .ok o
  | b :: rest =>
    if (Text.dropFront (utf8 "test.") (b :: rest)).isSome then .ok o
    else if b ≠ 104 then .error (.unknownLetter b (b :: rest))
    else match rest with
      | 61 :: c :: value => o.set (c :: value) .help
      | _ => setLetters { o with help := true } rest

/-- What is to be done with a flag that is written with two dashes: set it to a value, or take the
next word for its value. -/
def readLong (flags : List Flag) (word : Text) : Except Error (Flag × Option Text) :=
  let body := word.drop 2
  if body.head? == some 45 || body.head? == some 61 then .error (.malformedFlag word)
  else
    let (name, value) := match Text.splitFirst 61 body with
      | some (name, value) => (name, some value)
      | none => (body, none)
    match Flag.ofName? flags name, value with
    | none, _ => .error (.unknownFlag name)
    | some f, some value => .ok (f, some value)
    | some f, none => .ok (f, if f.isSwitch then some (utf8 "true") else none)

/-- Reads a word, and says whether it takes the `next` word for its value. -/
def readWord (flags : List Flag) (o : Options) (word : Text) (next : Option Text) :
    Except Error (Options × Bool) :=
  match word with
  | 45 :: 45 :: _ => do
    match ← readLong flags word, next with
    | (f, some value), _ => return (← o.set value f, false)
    | (f, none), some value => return (← o.set value f, true)
    | (_, none), none => throw (.missingValue word)
  | 45 :: b :: letters => do
    let o ← o.setLetters (b :: letters)
    return (o, false)
  | _ => .ok ({ o with arguments := o.arguments ++ [word] }, false)

/-- Reads words from left to right. Two dashes alone end the flags. -/
def read (flags : List Flag) : Options → List Text → Except Error Options
  | o, [] => .ok o
  | o, word :: words =>
    if word == utf8 "--" then .ok { o with arguments := o.arguments ++ words }
    else
      match readWord flags o word words.head? with
      | .error e => .error e
      | .ok (o, false) => read flags o words
      | .ok (o, true) =>
        match words with
        | [] => .ok o
        | _ :: rest => read flags o rest

end Options

/-- Whether the word after a word is taken for its value while the command is looked for. Only the
shared flags are known then. -/
def takesNext (word : Text) : Bool :=
  !word.contains 61 &&
    match word with
    | 45 :: 45 :: name => name != Flag.logToFile.name
    | [45, _] => true
    | _ => false

def isFlag (word : Text) : Bool := word.head? == some 45

/-- The words that are neither flags nor taken for values. A flag that takes the last word ends
them. -/
def operands : List Text → List Text
  | [] => []
  | word :: words =>
    if word == utf8 "--" then []
    else if takesNext word then
      match words with
      | [] => []
      | _ :: rest => operands rest
    else if word.isEmpty || isFlag word then operands words
    else word :: operands words

/-- Whether so many letters put in, taken out or replaced lead from one text to another. -/
def isWithin : (edits : Nat) → (s t : Text) → Bool
  | edits, [], t => t.length ≤ edits
  | edits, s, [] => s.length ≤ edits
  | edits, a :: s, b :: t =>
    if a = b then isWithin edits s t
    else match edits with
      | 0 => false
      | edits + 1 =>
        isWithin edits s t || isWithin edits s (b :: t) || isWithin edits (a :: s) t
termination_by _ s t => s.length + t.length

/-- The names of commands that are meant perhaps: at most two letters off, or only begun. -/
def similar (name : Text) : List Text :=
  (Verb.all.map Verb.name ++ [completion]).filter fun known =>
    isWithin 2 name.lower known || (Text.dropFront name.lower known).isSome

/-- A command with its options, a script for a shell, or the wish for help. -/
inductive Request where
  | help
  | script (options : Options)
  | run (verb : Verb) (options : Options)

namespace Request

def checkNone (owner : Text) : (arguments : List Text) → Except Error Unit
  | [] => .ok ()
  | first :: _ => .error (.unknownCommand first (program ++ utf8 " " ++ owner) [])

def checkArguments (v : Verb) (arguments : List Text) : Except Error Unit :=
  match v with
  | .promotes =>
    if arguments.length = 2 then .ok () else .error (.argumentCount 2 arguments.length)
  | .functions => checkNone v.name arguments
  | _ => .ok ()

/-- Reads flags for help, which is given whatever the arguments are. -/
def parseHelp (words : List Text) : Except Error Request := do
  let _ ← Options.read Flag.shared {} words
  return .help

def parseVerb (v : Verb) (words : List Text) : Except Error Request := do
  let o ← Options.read v.flags {} words
  if o.help then return .help
  checkArguments v o.arguments
  return .run v o

/-- Reads the words after the command that prints scripts. Without a shell it only explains. -/
def parseCompletion (words : List Text) : Except Error Request := do
  match (operands words).head?.filter shells.contains with
  | none => parseHelp words
  | some shell =>
    let o ← Options.read (Flag.shared ++ [.noDescriptions]) {} (words.erase shell)
    if o.help then return .help
    checkNone (completion ++ utf8 " " ++ shell) o.arguments
    return .script o

/-- Reads the words of a command line. The first word that names the command is dropped, wherever
it stands. -/
def parse (words : List Text) : Except Error Request :=
  match operands words with
  | [] => parseHelp words
  | name :: _ =>
    let others := words.erase name
    match Verb.ofName? name with
    | some v => parseVerb v others
    | none =>
      if name == utf8 "help" then parseHelp others
      else if name == completion then parseCompletion others
      else if completers.contains name then
        if others.isEmpty then .error (.fewArguments 1 0) else .ok .help
      else .error (.unknownCommand name program (similar name))

end Request

end TypedStream.Command
