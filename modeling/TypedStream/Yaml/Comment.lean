import TypedStream.Yaml.Character

namespace TypedStream.Yaml

/-- A comment that is waiting for the token it belongs to, which is at `index` or after it. -/
structure Comment where
  index : Nat
  line : Nat
  /-- Whether it stands above what comes next, and not beside what it belongs to. -/
  above : Bool
  /-- Whether an empty line follows it. -/
  closed : Bool := false

/-- What has to be known around a comment to tell where it belongs. -/
structure Surroundings where
  /-- The indentation of the block it is in. -/
  indent : Nat
  /-- Whether it is between brackets. -/
  flow : Bool
  /-- The line on which it would be below what came before. -/
  footLine : Option Nat

/-- Comment lines that belong together, as far as they have been read. -/
structure CommentLines where
  start : Option Mark := none
  closed : Bool := false
  /-- Whether there has been no empty line yet. -/
  unbroken : Bool
  /-- Whether the line before is empty. -/
  afterEmpty : Bool := false

namespace CommentLines

/-- Comment lines that turn out to belong to what came before are forgotten. -/
def forget (l : CommentLines) : CommentLines := { l with start := none, closed := false }

def endLine (s : Surroundings) (l : CommentLines) (atEnd : Bool) : CommentLines :=
  match l.start with
  | none => l
  | some m =>
    if l.afterEmpty then l
    else if l.unbroken && (s.footLine == some m.line || m.column < s.indent) then l.forget
    else { l with closed := l.closed || !atEnd }

/-- Something after comment lines that is less indented than the block. -/
def dedent (s : Surroundings) (l : CommentLines) (column : Nat) : CommentLines :=
  match l.start with
  | none => l
  | some m => if column < s.indent && column != m.column then l.forget else l

/-- Looks for the next comment past blanks and line ends. -/
def lookAhead (s : Surroundings) : CommentLines → List Character →
    CommentLines × Option (List Character)
  | l, [] => (l.endLine s true, none)
  | l, c :: rest =>
    if c.isBlank then lookAhead s l rest
    else if s.flow && (c.rune == 93 || c.rune == 125) then (l.endLine s false, none)
    else if c.rune == 10 then
      lookAhead s { l.endLine s false with unbroken := false, afterEmpty := true } rest
    else if c.isBreak then ((l.endLine s false).dedent s 0, none)
    else
      let l := l.dedent s c.mark.column
      if c.rune == 35 then
        ({ l with start := l.start <|> some c.mark, closed := false, afterEmpty := false },
          some (c :: rest))
      else (l, none)

/-- Reads comment lines from a comment on. The rest starts with the end of the last line. -/
def read (s : Surroundings) : (fuel : Nat) → CommentLines → List Character →
    CommentLines × List Character
  | 0, l, characters => (l, characters)
  | fuel + 1, l, characters =>
    let after := characters.dropWhile (!·.isBreak)
    let ahead := match after with
      | [] => l.lookAhead s []
      | c :: rest => if c.rune == 10 then l.lookAhead s rest else (l.dedent s 0, none)
    match ahead with
    | (l, some more) => read s fuel l more
    | (l, none) => (l, after)

end CommentLines

/-- Reads comment lines at `characters`, which start with a comment at `m`: the comment that stands
above what comes next, if there is one, and what follows. -/
def readComments (s : Surroundings) (m : Mark) (characters : List Character) :
    Option Comment × List Character :=
  let l : CommentLines := { start := some m, unbroken := m.breaks ≤ 1 }
  let (l, rest) := l.read s characters.length characters
  (l.start.map fun start => ⟨start.index, start.line, true, l.closed⟩, rest)

end TypedStream.Yaml
