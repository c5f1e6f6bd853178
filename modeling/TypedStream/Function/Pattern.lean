import TypedStream.Text.Rune

namespace TypedStream

/-- The parts of the regular expressions that patterns are translated to. -/
inductive RegexpItem where
  /-- The start of the text. -/
  | start
  /-- The end of the text. -/
  | finish
  /-- One code point. -/
  | any
  /-- Any number of code points. -/
  | all
  /-- The code point itself, whatever it means in an expression. -/
  | exactly (r : Rune)
  deriving DecidableEq

namespace Regexp

/-- What a pattern says from here on; none if it ends right after a backslash. `_` stands for one
code point and `%` for any number (95 and 37), a backslash (92) takes the next one by itself. -/
def translate : (escaped : Bool) → (pattern : List Rune) → Option (List RegexpItem)
  | true, [] => none
  | false, [] => some [.finish]
  | true, r :: rest => (translate false rest).map (.exactly r :: ·)
  | false, r :: rest =>
    if r = 92 then translate true rest
    else if r = 95 then (translate false rest).map (.any :: ·)
    else if r = 37 then (translate false rest).map (.all :: ·)
    else (translate false rest).map (.exactly r :: ·)

/-- The expression for a pattern that has to take the whole text. -/
def ofPattern? (pattern : List Rune) : Option (List RegexpItem) :=
  (translate false pattern).map (.start :: ·)

/-- For each entry, whether it or one after it holds. -/
def someLater : List Bool → List Bool
  | [] => []
  | b :: bs =>
    let later := someLater bs
    (b || later.headD false) :: later

/-- From the places of a text where the rest of an expression fits, those where an item and the rest
fit. There is a place in front of every code point and one at the end. -/
def extend (text : List Rune) (item : RegexpItem) (fits : List Bool) : List Bool :=
  match item with
  | .start => fits.take 1 ++ text.map fun _ => false
  | .finish => (text.map fun _ => false) ++ fits.drop text.length
  | .any => fits.drop 1 ++ [false]
  | .all => someLater fits
  | .exactly r => List.zipWith (fun c later => c == r && later) text (fits.drop 1) ++ [false]

/-- For each place of a text, whether the expression fits there. -/
def fitting (text : List Rune) (items : List RegexpItem) : List Bool :=
  items.foldr (extend text) (true :: text.map fun _ => true)

/-- Whether the expression fits somewhere in the text. -/
def occurs (items : List RegexpItem) (text : List Rune) : Bool := (fitting text items).any id

end Regexp

end TypedStream
