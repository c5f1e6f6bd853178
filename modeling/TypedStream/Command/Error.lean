import TypedStream.Config
import TypedStream.Journal
import TypedStream.Text.Shown

namespace TypedStream.Command

inductive Error where
  /-- No such command, but perhaps similar ones. -/
  | unknownCommand (name owner : Text) (similar : List Text)
  | malformedFlag (text : Text)
  | unknownFlag (name : Text)
  | unknownLetter (letter : UInt8) (letters : Text)
  | missingValue (flag : Text)
  | invalidSwitch (value flag : Text)
  | argumentCount (expected actual : Nat)
  | fewArguments (expected actual : Nat)
  | missingFlag (name : Text)
  | missingConfig
  /-- The configuration does not tell where the log is kept. -/
  | logDirectory (e : Config.Error)
  | journal (e : Journal.Error)
  | config (e : Config.Error)
  | unknownStream (name : Text)
  /-- The stream to project is not declared. -/
  | missingStream (name : Text)
  | strictNulls (e : Setting.Error)
  | failure (f : Failure)

namespace Error

/-- The list of similar commands after a message. -/
def suggestion (similar : List Text) : Text :=
  if similar.isEmpty then []
  else utf8 "\n\nDid you mean this?\n" ++
    similar.flatMap fun name => utf8 "\t" ++ name ++ utf8 "\n"

def message : Error → Text
  | unknownCommand name owner similar =>
    utf8 "unknown command " ++ name.quoted ++ utf8 " for " ++ owner.quoted ++ suggestion similar
  | malformedFlag text => utf8 "bad flag syntax: " ++ text
  | unknownFlag name => utf8 "unknown flag: --" ++ name
  | unknownLetter letter letters =>
    utf8 "unknown shorthand flag: " ++ Rune.quotedCharacter letter.toNat ++ utf8 " in -" ++ letters
  | missingValue flag => utf8 "flag needs an argument: " ++ flag
  | invalidSwitch value flag =>
    utf8 "invalid argument " ++ value.quoted ++ utf8 " for " ++ flag.quoted ++
      utf8 " flag: strconv.ParseBool: parsing " ++ value.quoted ++ utf8 ": invalid syntax"
  | argumentCount expected actual =>
    utf8 "accepts " ++ Text.ofNat expected ++ utf8 " arg(s), received " ++ Text.ofNat actual
  | fewArguments expected actual =>
    utf8 "requires at least " ++ Text.ofNat expected ++ utf8 " arg(s), only received " ++
      Text.ofNat actual
  | missingFlag name => utf8 "required flag(s) " ++ name.quoted ++ utf8 " not set"
  | missingConfig => utf8 "the --config flag is required"
  | logDirectory e => e.message
  | journal e => e.message
  | config .defect => Config.Error.defect.message
  | config e => utf8 "couldn't read config: " ++ e.message
  | unknownStream name => utf8 "unknown stream " ++ name
  | missingStream name =>
    utf8 "unknown stream " ++ name ++ utf8 ": " ++ Setting.Error.notFound.message
  | strictNulls e => utf8 "invalid typecheck.strictNulls setting: " ++ e.message
  | failure f => f.message

end Error

end TypedStream.Command
