import TypedStream.Text.Rune

namespace TypedStream.Yaml

/-- A place in a text. `breaks` counts the line ends since the last character that is not blank. -/
structure Mark where
  index : Nat := 0
  line : Nat := 0
  column : Nat := 0
  breaks : Nat := 0

structure Character where
  rune : Rune
  mark : Mark

def isBlank (r : Rune) : Bool := r == 32 || r == 9

/-- Line feeds, carriage returns, next lines, and the separators of lines and paragraphs. -/
def isBreak (r : Rune) : Bool := [10, 13, 0x85, 0x2028, 0x2029].contains r

namespace Mark

def next (m : Mark) (r : Rune) : Mark :=
  if isBreak r then ⟨m.index + 1, m.line + 1, 0, m.breaks + 1⟩
  else ⟨m.index + 1, m.line, m.column + 1, if isBlank r then m.breaks else 0⟩

end Mark

namespace Character

def isBlank (c : Character) : Bool := Yaml.isBlank c.rune

def isBreak (c : Character) : Bool := Yaml.isBreak c.rune

/-- What a line end stands for in a scalar: a line feed, but separators stand for themselves. -/
def folded (c : Character) : Rune := if c.rune = 0x85 then 10 else c.rune

end Character

/-- The characters of a text from a place on, and the place at its end. A carriage return is a line
feed, also together with one. -/
def placed : Mark → List Rune → List Character × Mark
  | m, [] => ([], m)
  | m, 13 :: 10 :: rest =>
    let (characters, finish) := placed { m.next 10 with index := m.index + 2 } rest
    (⟨10, m⟩ :: characters, finish)
  | m, r :: rest =>
    let (characters, finish) := placed (m.next r) rest
    (⟨if r = 13 then 10 else r, m⟩ :: characters, finish)

/-- Whether a word ends here: nothing is left, or a blank or a line end comes next. -/
def endsWord : List Character → Bool
  | [] => true
  | c :: _ => c.isBlank || c.isBreak

def endsLine : List Character → Bool
  | [] => true
  | c :: _ => c.isBreak

def isAt (r : Rune) : List Character → Bool
  | [] => false
  | c :: _ => c.rune == r

/-- Whether three times `r` stand alone at the start of a line. -/
def isDivider (r : Rune) : List Character → Bool
  | a :: b :: c :: rest =>
    a.mark.column == 0 && a.rune == r && b.rune == r && c.rune == r && endsWord rest
  | _ => false

/-- Whether a document starts or ends here. -/
def endsDocument (characters : List Character) : Bool :=
  isDivider 45 characters || isDivider 46 characters

/-- The characters that a document may contain. -/
def isReadable (r : Rune) : Bool :=
  r == 9 || r == 10 || r == 13 || r == 0x85 ||
    r.isIn [(32, 126), (0xA0, 0xD7FF), (0xE000, 0xFFFD), (0x10000, 0x10FFFF)]

/-- The code points of a text in UTF-8, if every byte of it belongs to one. -/
def decodeBytes (text : Text) : Option (List Rune) :=
  text.glyphs.mapM fun g =>
    match g.bytes with
    | [b] => if b < 0x80 then some g.rune else none
    | _ => some g.rune

/-- The numbers of two bytes each; `swapped` says that the low byte comes first. -/
def units (swapped : Bool) : Text → Option (List Nat)
  | [] => some []
  | [_] => none
  | a :: b :: rest =>
    let (high, low) := if swapped then (b, a) else (a, b)
    (units swapped rest).map ((256 * high.toNat + low.toNat) :: ·)

/-- Joins the halves of surrogate pairs. Half a pair is no code point. -/
def joinSurrogates : List Nat → Option (List Rune)
  | [] => some []
  | [n] => if 0xD800 ≤ n && n ≤ 0xDFFF then none else some [n]
  | n :: m :: rest =>
    if 0xD800 ≤ n && n ≤ 0xDBFF then
      if 0xDC00 ≤ m && m ≤ 0xDFFF then
        (joinSurrogates rest).map ((0x10000 + (n - 0xD800) * 1024 + (m - 0xDC00)) :: ·)
      else none
    else if 0xDC00 ≤ n && n ≤ 0xDFFF then none
    else (joinSurrogates (m :: rest)).map (n :: ·)

/-- The code points of a document; a byte order mark in front tells how they are written. -/
def decode (text : Text) : Option (List Rune) :=
  match text with
  | 0xFF :: 0xFE :: rest => (units true rest).bind joinSurrogates
  | 0xFE :: 0xFF :: rest => (units false rest).bind joinSurrogates
  | 0xEF :: 0xBB :: 0xBF :: rest => decodeBytes rest
  | _ => decodeBytes text

/-- The code points of a document if all of them are readable. -/
def readable (text : Text) : Option (List Rune) := do
  let runes ← decode text
  if runes.all isReadable then some runes else none

end TypedStream.Yaml
