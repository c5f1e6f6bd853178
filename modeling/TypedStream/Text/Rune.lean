import TypedStream.Text

namespace TypedStream

abbrev Rune := Nat

/-- A code point together with the bytes it was read from. -/
structure Glyph where
  rune : Rune
  bytes : Text

namespace Rune

def replacement : Rune := 0xFFFD

/-- Whether a code point is in one of the ranges; both ends count. -/
def isIn (ranges : List (Rune × Rune)) (r : Rune) : Bool :=
  ranges.any fun (first, last) => first ≤ r && r ≤ last

def isTail (b : UInt8) : Bool := 0x80 ≤ b && b ≤ 0xBF

/-- The least and the greatest byte that may follow the lead byte `a` of a longer encoding. -/
def secondBounds (a : UInt8) : UInt8 × UInt8 :=
  if a = 0xE0 then (0xA0, 0xBF)
  else if a = 0xED then (0x80, 0x9F)
  else if a = 0xF0 then (0x90, 0xBF)
  else if a = 0xF4 then (0x80, 0x8F)
  else (0x80, 0xBF)

/-- How many bytes follow a lead byte: three at most, none where `a` leads nothing. -/
def tailLength (a : UInt8) : Nat :=
  if 0xC2 ≤ a && a ≤ 0xDF then 1
  else if 0xE0 ≤ a && a ≤ 0xEF then 2
  else if 0xF0 ≤ a && a ≤ 0xF4 then 3
  else 0

def payload (b : UInt8) : Nat := b.toNat % 64

/-- The code point at the front of `a :: rest`, with the number of bytes of `rest` it takes. -/
def front (a : UInt8) (rest : Text) : Rune × Nat :=
  if a < 0x80 then (a.toNat, 0)
  else
    let (low, high) := secondBounds a
    match tailLength a, rest with
    | 1, b :: _ =>
      if low ≤ b && b ≤ high then ((a.toNat - 0xC0) * 64 + payload b, 1) else (replacement, 0)
    | 2, b :: c :: _ =>
      if low ≤ b && b ≤ high && isTail c then
        ((a.toNat - 0xE0) * 4096 + payload b * 64 + payload c, 2)
      else (replacement, 0)
    | 3, b :: c :: d :: _ =>
      if low ≤ b && b ≤ high && isTail c && isTail d then
        ((a.toNat - 0xF0) * 262144 + payload b * 4096 + payload c * 64 + payload d, 3)
      else (replacement, 0)
    | _, _ => (replacement, 0)

def encode (r : Rune) : Text :=
  if r < 0x80 then [r.toUInt8]
  else if r < 0x800 then [(0xC0 + r / 64).toUInt8, (0x80 + r % 64).toUInt8]
  else if r < 0x10000 then
    [(0xE0 + r / 4096).toUInt8, (0x80 + r / 64 % 64).toUInt8, (0x80 + r % 64).toUInt8]
  else
    [(0xF0 + r / 262144).toUInt8, (0x80 + r / 4096 % 64).toUInt8, (0x80 + r / 64 % 64).toUInt8,
      (0x80 + r % 64).toUInt8]

end Rune

namespace Text

/-- Reads glyphs after skipping the first `skip` bytes. -/
def glyphsFrom : (skip : Nat) → Text → List Glyph
  | _, [] => []
  | skip + 1, _ :: rest => glyphsFrom skip rest
  | 0, a :: rest =>
    let (rune, tail) := Rune.front a rest
    ⟨rune, a :: rest.take tail⟩ :: glyphsFrom tail rest

def glyphs (t : Text) : List Glyph := glyphsFrom 0 t

def runes (t : Text) : List Rune := t.glyphs.map Glyph.rune

def ofRunes (rs : List Rune) : Text := rs.flatMap Rune.encode

end Text

def Rune.isBlank (r : Rune) : Bool :=
  (9 ≤ r && r ≤ 13) || r == 0x20 || r == 0x85 || r == 0xA0 || r == 0x1680 ||
  (0x2000 ≤ r && r ≤ 0x200A) || r == 0x2028 || r == 0x2029 || r == 0x202F || r == 0x205F ||
  r == 0x3000

namespace Text

def trimGlyphs (gs : List Glyph) : List Glyph :=
  ((gs.dropWhile (·.rune.isBlank)).reverse.dropWhile (·.rune.isBlank)).reverse

/-- The text without the white space at its two ends. -/
def trim (t : Text) : Text := (trimGlyphs t.glyphs).flatMap Glyph.bytes

end Text

end TypedStream
