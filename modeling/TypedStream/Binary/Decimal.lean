import TypedStream.Binary.Number
import TypedStream.Text

namespace TypedStream.Double

/-- The number nearest to `digits · 10 ^ exponent`. Decimals far outside the range are told by
their length alone, so that no huge power is formed. -/
def ofDecimal (negative : Bool) (digits : Nat) (exponent : Int) : Double :=
  if digits = 0 then round negative 0 1 0
  else
    let length : Int := (Nat.toDigits 10 digits).length
    if 309 < length + exponent then infinity negative
    else if length + exponent < -324 then round negative 0 1 0
    else if 0 ≤ exponent then round negative (digits * Nat.pow 10 exponent.toNat) 1 0
    else round negative digits (Nat.pow 10 (-exponent).toNat) 0

def takeSign : Text → Bool × Text
  | 43 :: rest => (false, rest)
  | 45 :: rest => (true, rest)
  | text => (false, text)

/-- Exponents stop growing at five digits: they are out of range long before. -/
def exponentValue (digits : Text) : Nat :=
  digits.foldl (fun e b => if e < 10000 then 10 * e + (b.toNat - 48) else e) 0

/-- The exponent after the mantissa: nothing, or `e` with an optional sign and digits. -/
def readExponent : Text → Option Int
  | [] => some 0
  | mark :: rest =>
    if mark = 101 || mark = 69 then
      let (negative, digits) := takeSign rest
      if digits.isEmpty || !digits.all Text.isDigit then none
      else some (signed negative (exponentValue digits))
    else none

/-- Reads digits with an optional sign, fraction and exponent, and nothing else. -/
def read? (text : Text) : Option Double :=
  let (negative, text) := takeSign text
  let whole := text.takeWhile Text.isDigit
  let text := text.dropWhile Text.isDigit
  let (fraction, text) := match text with
    | 46 :: rest => (rest.takeWhile Text.isDigit, rest.dropWhile Text.isDigit)
    | _ => ([], text)
  if whole.isEmpty && fraction.isEmpty then none
  else
    (readExponent text).map fun e =>
      ofDecimal negative (Text.decimal (whole ++ fraction)) (e - (fraction.length : Int))

end TypedStream.Double
