import TypedStream.Yaml.Character

namespace TypedStream.Yaml

/-- What stands between two words of a scalar. -/
inductive Gap where
  /-- Blanks on one line, last first. -/
  | blanks (reversed : List Rune)
  /-- A line end and more of them, last first. The `first` one is missing if it was escaped. -/
  | breaks (first : Option Rune) (reversed : List Rune)

namespace Gap

def none : Gap := blanks []

def isNone : Gap → Bool
  | blanks rs => rs.isEmpty
  | breaks .. => false

def isBreak : Gap → Bool
  | blanks _ => false
  | breaks .. => true

/-- Blanks count only before the first line end. -/
def add (c : Character) : Gap → Gap
  | blanks rs => if c.isBreak then breaks (some c.folded) [] else blanks (c.rune :: rs)
  | breaks first rs => breaks first (if c.isBreak then c.folded :: rs else rs)

/-- Blanks stay. A single line feed becomes a space, and of several the first one is dropped. -/
def runes : Gap → List Rune
  | blanks rs => rs.reverse
  | breaks (some 10) [] => [32]
  | breaks (some 10) rs => rs.reverse
  | breaks first rs => first.toList ++ rs.reverse

end Gap

/-- The characters that separate and enclose the parts of a collection in brackets, and the one
that marks its keys. -/
def isBracket (r : Rune) : Bool := [44, 63, 91, 93, 123, 125].contains r

/-- Whether a plain scalar ends before `c`. -/
def endsPlain (flow : Bool) (c : Character) (rest : List Character) : Bool :=
  (c.rune == 58 && endsWord rest) || (flow && isBracket c.rune)

/-- Characters that a plain scalar cannot start with, whatever follows. -/
def isIndicator (r : Rune) : Bool :=
  [44, 91, 93, 123, 125, 35, 38, 42, 33, 124, 62, 39, 34, 37, 64, 96].contains r

/-- Whether `c`, with `rest` after it, starts a plain scalar. -/
def startsPlain (flow : Bool) (c : Character) (rest : List Character) : Bool :=
  if c.rune == 45 then !(rest.head?.any Character.isBlank)
  else if c.rune == 63 || c.rune == 58 then !flow && !endsWord rest
  else !(isIndicator c.rune || c.isBlank || c.isBreak)

/-- Reads a plain scalar, and tells whether a line ended after it. Outside brackets it goes on only
on lines that are indented at least by `indent`. -/
def readPlain (flow : Bool) (indent : Int) :
    Gap → List Character → Option (List Rune × Bool × List Character)
  | gap, [] => some ([], gap.isBreak, [])
  | gap, c :: rest =>
    if c.isBlank || c.isBreak then
      if c.rune == 9 && gap.isBreak && c.mark.column < indent then none
      else readPlain flow indent (gap.add c) rest
    else if endsDocument (c :: rest) || (c.rune == 35 && !gap.isNone) ||
        (!flow && gap.isBreak && c.mark.column < indent) || endsPlain flow c rest then
      some ([], gap.isBreak, c :: rest)
    else do
      let (runes, broken, after) ← readPlain flow indent .none rest
      return (gap.runes ++ c.rune :: runes, broken, after)

/-- Reads up to the closing quote, after skipping `skip` characters. A quote inside is written
twice. -/
def readSingle : (skip : Nat) → Gap → List Character → Option (List Rune × List Character)
  | _, _, [] => none
  | skip + 1, gap, _ :: rest => readSingle skip gap rest
  | 0, gap, c :: rest =>
    if c.isBlank || c.isBreak then readSingle 0 (gap.add c) rest
    else if endsDocument (c :: rest) then none
    else if c.rune == 39 && !isAt 39 rest then some (gap.runes, rest)
    else do
      let (runes, after) ← readSingle (if c.rune == 39 then 1 else 0) .none rest
      return (gap.runes ++ c.rune :: runes, after)

/-- What the character after a backslash stands for. -/
def namedEscape (r : Rune) : Option Rune :=
  [(48, 0), (97, 7), (98, 8), (116, 9), (9, 9), (110, 10), (118, 11), (102, 12), (114, 13),
    (101, 27), (32, 32), (34, 34), (39, 39), (92, 92), (78, 0x85), (95, 0xA0), (76, 0x2028),
    (80, 0x2029)].lookup r

/-- How many hexadecimal digits follow the letter of a numbered escape. -/
def escapeDigits (r : Rune) : Option Nat := [(120, 2), (117, 4), (85, 8)].lookup r

def hexDigit? (r : Rune) : Option Nat :=
  if 48 ≤ r && r ≤ 57 then some (r - 48)
  else if 65 ≤ r && r ≤ 70 then some (r - 55)
  else if 97 ≤ r && r ≤ 102 then some (r - 87)
  else none

/-- The value of exactly `count` hexadecimal digits in front. -/
def hexadecimal? (count : Nat) (characters : List Character) : Option Nat :=
  if characters.length < count then none
  else (characters.take count).foldlM (fun n c => (hexDigit? c.rune).map (16 * n + ·)) 0

/-- A code point that is not half of a surrogate pair. -/
def isCodePoint (r : Rune) : Bool := r < 0xD800 || (0xDFFF < r && r ≤ 0x10FFFF)

/-- What an escape stands for, and how many characters after the backslash it takes. -/
def readEscape : List Character → Option (Rune × Nat)
  | [] => none
  | c :: rest =>
    match namedEscape c.rune, escapeDigits c.rune with
    | some named, _ => some (named, 1)
    | none, some count => do
      let code ← hexadecimal? count rest
      if isCodePoint code then return (code, count + 1) else none
    | none, none => none

/-- Reads up to the closing quote, after skipping `skip` characters. A line end after a backslash
leaves no trace. -/
def readDouble : (skip : Nat) → Gap → List Character → Option (List Rune × List Character)
  | _, _, [] => none
  | skip + 1, gap, _ :: rest => readDouble skip gap rest
  | 0, gap, c :: rest =>
    if c.isBlank || c.isBreak then readDouble 0 (gap.add c) rest
    else if endsDocument (c :: rest) then none
    else if c.rune == 34 then some (gap.runes, rest)
    else if c.rune == 92 then
      if rest.head?.any Character.isBreak then do
        let (runes, after) ← readDouble 1 (.breaks none []) rest
        return (gap.runes ++ runes, after)
      else do
        let (named, length) ← readEscape rest
        let (runes, after) ← readDouble length .none rest
        return (gap.runes ++ named :: runes, after)
    else do
      let (runes, after) ← readDouble 0 .none rest
      return (gap.runes ++ c.rune :: runes, after)

/-- What becomes of the line ends after the last line of a block. -/
inductive Ending where
  | one
  | none
  | all

/-- How a block of lines is to be read; without `indent` its first line tells how deep it is. -/
structure BlockHeader where
  ending : Ending := .one
  indent : Nat := 0

namespace BlockHeader

def ending? (r : Rune) : Option Ending := [(43, .all), (45, .none)].lookup r

def digit? (r : Rune) : Option Nat := if 49 ≤ r && r ≤ 57 then some (r - 48) else none

/-- An ending and a depth may stand in any order. -/
def read (characters : List Character) : BlockHeader × List Character :=
  match characters with
  | a :: rest =>
    match ending? a.rune, digit? a.rune with
    | some e, _ =>
      match rest.head?.bind fun b => digit? b.rune with
      | some d => (⟨e, d⟩, rest.drop 1)
      | none => (⟨e, 0⟩, rest)
    | none, some d =>
      match rest.head?.bind fun b => ending? b.rune with
      | some e => (⟨e, d⟩, rest.drop 1)
      | none => (⟨.one, d⟩, rest)
    | none, none => ({}, characters)
  | [] => ({}, [])

end BlockHeader

/-- What is left of a line after blanks and a comment, if nothing else is on it. -/
def restOfLine (characters : List Character) : Option (List Character) :=
  let rest := characters.dropWhile Character.isBlank
  let rest := if isAt 35 rest then rest.dropWhile (!·.isBreak) else rest
  if endsLine rest then some (rest.drop 1) else none

/-- Reads blank lines and the indentation of the line after them: the line ends, and how deep the
deepest of the lines is. Without `indent` all spaces belong to the indentation. -/
def readBlankLines (indent : Nat) : (reversed : List Rune) → (deepest : Nat) → List Character →
    Option (List Rune × Nat × List Character)
  | reversed, deepest, [] => some (reversed.reverse, deepest, [])
  | reversed, deepest, c :: rest =>
    let inside := indent == 0 || c.mark.column < indent
    if inside && c.rune == 32 then readBlankLines indent reversed deepest rest
    else if inside && c.rune == 9 then none
    else
      let deepest := max deepest c.mark.column
      if c.isBreak then readBlankLines indent (c.folded :: reversed) deepest rest
      else some (reversed.reverse, deepest, c :: rest)

/-- Lines of a block, with the line ends that follow them: the first one, and those of the blank
lines after it. -/
structure BlockLines where
  runes : List Rune
  first : List Rune
  more : List Rune
  rest : List Character

/-- What a line end becomes before a line. Lines that start with a blank are not folded. -/
def foldedBreak (literal blankBefore blankAfter : Bool) (first more : List Rune) : List Rune :=
  if !literal && !blankBefore && !blankAfter && first == [10] then
    if more.isEmpty then [32] else []
  else first

/-- Reads the lines of a block that are indented by `indent`. -/
def readLines (literal : Bool) (indent : Nat) : (fuel : Nat) → (blankBefore : Bool) →
    (first more : List Rune) → List Character → Option BlockLines
  | 0, _, _, _, _ => none
  | _, _, first, more, [] => some ⟨[], first, more, []⟩
  | fuel + 1, blankBefore, first, more, c :: rest =>
    if c.mark.column ≠ indent then some ⟨[], first, more, c :: rest⟩
    else do
      let line := (c :: rest).takeWhile (!·.isBreak)
      let after := (c :: rest).dropWhile (!·.isBreak)
      let ended := (after.take 1).map Character.folded
      let (blank, _, after) ← readBlankLines indent [] 0 (after.drop 1)
      let lines ← readLines literal indent fuel c.isBlank ended blank after
      let front := foldedBreak literal blankBefore c.isBlank first more ++ more
      return { lines with runes := front ++ line.map Character.rune ++ lines.runes }

/-- Reads a block of lines after its indicator; `outer` is the indentation around it. -/
def readBlock (literal : Bool) (outer : Int) (characters : List Character) :
    Option (List Rune × List Character) := do
  let (header, rest) := BlockHeader.read characters
  let rest ← restOfLine rest
  let given := if header.indent = 0 then 0 else (max outer 0).toNat + header.indent
  let (blank, deepest, rest) ← readBlankLines given [] 0 rest
  let indent := if given = 0 then max deepest (max (outer + 1).toNat 1) else given
  let lines ← readLines literal indent (rest.length + 1) false [] blank rest
  let tail := match header.ending with
    | .none => []
    | .one => lines.first
    | .all => lines.first ++ lines.more
  return (lines.runes ++ tail, lines.rest)

end TypedStream.Yaml
