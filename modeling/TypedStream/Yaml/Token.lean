import TypedStream.Yaml.Scalar

namespace TypedStream.Yaml

inductive Token where
  | textEnd
  | version (major minor : Nat)
  /-- A short form for the first part of tags. -/
  | handle (name expansion : Text)
  | documentStart
  | documentEnd
  | listStart
  | mapStart
  | blockEnd
  | listOpen
  | listClose
  | mapOpen
  | mapClose
  | dash
  | comma
  | key
  | value
  | reference (name : Text)
  | anchor (name : Text)
  | tag (handle suffix : Text)
  | scalar (plain : Bool) (text : Text)

/-- The characters of names: letters and digits, hyphens and underscores. -/
def isNameRune (r : Rune) : Bool := r.isIn [(48, 57), (65, 90), (97, 122), (95, 95), (45, 45)]

def textOf (characters : List Character) : Text := Text.ofRunes (characters.map Character.rune)

/-- The name in front, and what follows it. -/
def readName (characters : List Character) : Text × List Character :=
  let isName (c : Character) := isNameRune c.rune
  (textOf (characters.takeWhile isName), characters.dropWhile isName)

namespace Token

/-- The characters that may follow a name directly. -/
def endsName (characters : List Character) : Bool :=
  endsWord characters ||
    characters.head?.any fun c => [63, 58, 44, 93, 125, 37, 64, 96].contains c.rune

def readAnchor (characters : List Character) : Option (Text × List Character) :=
  let (name, rest) := readName characters
  if name.isEmpty || !endsName rest then none else some (name, rest)

/-- The characters of tags beside those of names. -/
def isTagRune (r : Rune) : Bool :=
  isNameRune r ||
    [59, 47, 63, 58, 64, 38, 61, 43, 36, 44, 46, 33, 126, 42, 39, 40, 41, 91, 93].contains r

/-- Reads the characters of a tag; a percent sign and two digits stand for a byte. -/
def readTagText : (skip : Nat) → List Character → Option (Text × List Character)
  | _, [] => some ([], [])
  | skip + 1, _ :: rest => readTagText skip rest
  | 0, c :: rest =>
    if c.rune == 37 then do
      let byte ← hexadecimal? 2 rest
      let (bytes, after) ← readTagText 2 rest
      return (byte.toUInt8 :: bytes, after)
    else if isTagRune c.rune then do
      let (bytes, after) ← readTagText 0 rest
      return (c.rune.encode ++ bytes, after)
    else some ([], c :: rest)

/-- Reads a handle: an exclamation mark, and perhaps a name and another one. -/
def readHandle (characters : List Character) : Option (Text × List Character) :=
  match characters with
  | c :: rest =>
    let (name, after) := readName rest
    if c.rune ≠ 33 then none
    else if isAt 33 after then some (utf8 "!" ++ name ++ utf8 "!", after.drop 1)
    else some (utf8 "!" ++ name, after)
  | [] => none

def isHandle (t : Text) : Bool := 1 < t.length && t.getLast? == some 33

/-- Reads a tag that is written with a handle, or with none. -/
def readShortTag (characters : List Character) : Option (Token × List Character) := do
  let (start, rest) ← readHandle characters
  let (suffix, rest) ← readTagText 0 rest
  if isHandle start then
    if suffix.isEmpty then none else return (tag start suffix, rest)
  else
    let suffix := start.drop 1 ++ suffix
    return (if suffix.isEmpty then tag [] start else tag (utf8 "!") suffix, rest)

/-- Reads a tag; one between angle brackets is written out. -/
def readTag (characters : List Character) : Option (Token × List Character) := do
  let (token, rest) ←
    if isAt 60 (characters.drop 1) then do
      let (name, rest) ← readTagText 0 (characters.drop 2)
      if name.isEmpty || !isAt 62 rest then none
      pure (tag [] name, rest.drop 1)
    else readShortTag characters
  if endsWord rest then return (token, rest) else none

def readNumber (characters : List Character) : Option (Nat × List Character) :=
  let isDigit (c : Character) := 48 ≤ c.rune && c.rune ≤ 57
  let digits := characters.takeWhile isDigit
  if digits.isEmpty || 2 < digits.length then none
  else some (Text.decimal (textOf digits), characters.dropWhile isDigit)

def readVersion (characters : List Character) : Option (Token × List Character) := do
  let (major, rest) ← readNumber (characters.dropWhile Character.isBlank)
  if !isAt 46 rest then none
  let (minor, rest) ← readNumber (rest.drop 1)
  return (version major minor, rest)

/-- Reads a handle and what it stands for. -/
def readExpansion (characters : List Character) : Option (Token × List Character) := do
  let (name, rest) ← readHandle (characters.dropWhile Character.isBlank)
  if !(isHandle name || name == utf8 "!") || !rest.head?.any Character.isBlank then none
  let (expansion, rest) ← readTagText 0 (rest.dropWhile Character.isBlank)
  if expansion.isEmpty || !endsWord rest then none
  return (handle name expansion, rest)

/-- Reads a line with a directive after its percent sign. -/
def readDirective (characters : List Character) : Option (Token × List Character) := do
  let (name, rest) := readName characters
  if !endsWord rest then none
  let (token, rest) ←
    if name == utf8 "YAML" then readVersion rest
    else if name == utf8 "TAG" then readExpansion rest
    else none
  return (token, ← restOfLine rest)

end Token

end TypedStream.Yaml
