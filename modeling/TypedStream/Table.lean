import TypedStream.Text.Rune
import TypedStream.Text.Width

namespace TypedStream

structure Table where
  header : List Text
  rows : List (List Text)
  /-- Cells wider than this are broken into lines. -/
  limit : Nat := 30

namespace Table

/-- How to break the words from one on: at which cost, and after how many words first. -/
structure Break where
  cost : Nat
  count : Nat

/-- What it costs beside its raggedness if a line is too wide. -/
def penalty : Nat := 100000

def lineCost (limit width : Nat) : Nat :=
  if width ≤ limit then (limit - width) * (limit - width)
  else (width - limit) * (width - limit) + penalty

/-- The cheapest break, the earliest if there are several: after `taken` words that are `width`
wide, or later. `breaks` tells how to go on before each of the words that are left. -/
def cheapest (limit : Nat) (best : Break) : (taken width : Nat) → List Nat → List Break → Break
  | taken, width, next :: widths, b :: breaks =>
    let cost := lineCost limit width + b.cost
    cheapest limit (if cost < best.cost then ⟨cost, taken⟩ else best)
      (taken + 1) (width + 1 + next) widths breaks
  | _, _, _, _ => best

/-- How to break words of the given widths, from each of them on. What fits into one line is not
broken. -/
def breaks (limit : Nat) : List Nat → List Break
  | [] => []
  | width :: widths =>
    let after := breaks limit widths
    let total := width + (widths.map (· + 1)).foldr (· + ·) 0
    let first : Break :=
      if total ≤ limit || widths.isEmpty then ⟨0, 1 + widths.length⟩
      else
        let cost := lineCost limit width + ((after.head?).map Break.cost).getD 0
        cheapest limit ⟨cost, 1⟩ 1 width widths after
    first :: after

/-- Puts words on lines: the ones that are left on a line, and the lines after it. -/
def layout : (left : Nat) → List (Text × Break) → List Text × List (List Text)
  | _, [] => ([], [])
  | 0, (word, b) :: rest =>
    let (line, lines) := layout (b.count - 1) rest
    ([], (word :: line) :: lines)
  | left + 1, (word, _) :: rest =>
    let (line, lines) := layout left rest
    (word :: line, lines)

def maximum (ns : List Nat) : Nat := ns.foldl max 0

/-- The width that a cell asks for before it is broken. -/
def cellWidth (limit : Nat) (cell : Text) : Nat :=
  min limit (maximum ((Text.splitAll 10 cell).map Text.screenWidth))

/-- The lines of a cell. Words are separated by single spaces, of which none is lost; they are as
wide as if style switches showed. -/
def cellLines (limit : Nat) (cell : Text) : List Text :=
  let words := Text.splitAll 32 (cell.map fun b => if b = 10 then 32 else b)
  let widths := words.map Text.width
  let limit := max (cellWidth limit cell) (maximum widths)
  (layout 0 (words.zip (breaks limit widths))).2.map (Text.join (utf8 " "))

def spaces (n : Nat) : Text := List.replicate n 32

def padRight (width : Nat) (t : Text) : Text := t ++ spaces (width - t.screenWidth)

def padLeft (width : Nat) (t : Text) : Text := spaces (width - t.screenWidth) ++ t

def padBoth (width : Nat) (t : Text) : Text :=
  let gap := width - t.screenWidth
  spaces (gap / 2) ++ t ++ spaces (gap - gap / 2)

/-- Digits, or groups of three of them after a shorter first one. -/
def isWhole (t : Text) : Bool :=
  let isGroup (g : Text) := g.all Text.isDigit && !g.isEmpty
  match Text.splitAll 44 t with
  | [digits] => isGroup digits
  | first :: groups =>
    isGroup first && first.length ≤ 3 && groups.all fun g => isGroup g && g.length == 3
  | [] => false

/-- A decimal number, possibly with its digits in groups of three. -/
def isNumber (t : Text) : Bool :=
  let t := (Text.dropFront (utf8 "-") t).getD t
  match Text.splitFirst 46 t with
  | some (whole, fraction) => isWhole whole && fraction.all Text.isDigit && !fraction.isEmpty
  | none => isWhole t

/-- Numbers stand on the right of their column, all else on the left. -/
def align (width : Nat) (t : Text) : Text :=
  if isNumber t.trim then padLeft width t else padRight width t

def border (widths : List Nat) : Text :=
  utf8 "+" ++ widths.flatMap (fun w => List.replicate (w + 2) 45 ++ utf8 "+") ++ utf8 "\n"

def line (pad : Nat → Text → Text) (widths : List Nat) (cells : List Text) : Text :=
  utf8 "|" ++ ((widths.zip cells).flatMap fun (w, cell) => utf8 " " ++ pad w cell ++ utf8 " |") ++
    utf8 "\n"

/-- The lines of a row. Cells with fewer lines than others go on blank. -/
def row (pad : Nat → Text → Text) (widths : List Nat) (cells : List (List Text)) : Text :=
  let height := maximum (cells.map List.length)
  (List.range height).flatMap fun i =>
    line pad widths (cells.map fun lines => (lines[i]?).getD (utf8 "  "))

/-- The width of a column with the given cells. -/
def columnWidth (limit : Nat) (cells : List Text) : Nat :=
  maximum (cells.map fun cell =>
    max (cellWidth limit cell) (maximum ((cellLines limit cell).map Text.screenWidth)))

def text (t : Table) : Text :=
  let rows := t.header :: t.rows
  let widths := (List.range t.header.length).map fun i =>
    columnWidth t.limit (rows.map fun r => (r[i]?).getD [])
  let rule := border widths
  rule ++ row padBoth widths (t.header.map (cellLines t.limit)) ++ rule ++
    (t.rows.flatMap fun r => row align widths (r.map (cellLines t.limit))) ++ rule

end Table

end TypedStream
