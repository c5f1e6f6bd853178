import TypedStream.Binary.Decimal
import TypedStream.Event.Json

namespace TypedStream.Event

/-- An integer: digits, with a minus sign in front if need be. -/
def integer? (token : Text) : Option Int :=
  let (negative, digits) := match token with
    | 45 :: rest => (true, rest)
    | _ => (false, token)
  if digits.isEmpty || !digits.all Text.isDigit then none
  else
    let i := Double.signed negative (Text.decimal digits)
    if -9223372036854775808 ≤ i ∧ i ≤ 9223372036854775807 then some i else none

/-- A power of ten in two factors, each rounded, and their rounded product or quotient. -/
def power (negative : Bool) (n : Nat) : Double :=
  if negative then
    (Double.ofDecimal false 1 (-(32 * (n / 32) : Nat))).div
      (Double.ofDecimal false 1 (n % 32 : Nat))
  else
    (Double.ofDecimal false 1 (32 * (n / 32) : Nat)).mul (Double.ofDecimal false 1 (n % 32 : Nat))

def applySign (negative : Bool) (x : Double) : Double := if negative then x.neg else x

/-- The words for infinity and not-a-number, after the minus sign. -/
def word? (negative : Bool) (text : Text) : Option Double :=
  let text := (Text.dropFront (utf8 "+") text).getD text
  if Json.isWord "inf" text || Json.isWord "infinity" text then some (Double.infinity negative)
  else if Json.isWord "nan" text then some Double.nan
  else none

/-- Whether an exponent, read digit by digit, gets above 300. -/
def isLargeExponent (digits : Text) : Bool := 300 < Text.decimal digits

/-- Multiplies by the power of ten at the end of the token. Large exponents are read again from the
whole token. -/
def scaled? (token : Text) (negative : Bool) (mantissa : Double) : Text → Option Double
  | [] => some (applySign negative mantissa)
  | mark :: rest =>
    if mark = 101 || mark = 69 then
      let (below, rest) := Double.takeSign rest
      let digits := rest.takeWhile Text.isDigit
      if digits.isEmpty then none
      else if isLargeExponent digits then Double.read? token
      else if (rest.dropWhile Text.isDigit).isEmpty then
        some (applySign negative (mantissa.mul (power below (Text.decimal digits))))
      else none
    else none

/-- A floating-point number. Short ones are computed from their digits with one rounding for each
step, long ones are read as a whole. -/
def real? (token : Text) : Option Double :=
  let (negative, text) := match token with
    | 45 :: rest => (true, rest)
    | _ => (false, token)
  let whole := text.takeWhile Text.isDigit
  let rest := text.dropWhile Text.isDigit
  if 18 < whole.length + (if negative then 1 else 0) then Double.read? token
  else if whole.isEmpty then word? negative text
  else match rest with
    | [46] => none
    | 46 :: rest =>
      let fraction := rest.takeWhile Text.isDigit
      if !fraction.isEmpty && 17 ≤ whole.length + 1 + fraction.length then Double.read? token
      else
        let mantissa := (Double.ofInt (Text.decimal (whole ++ fraction))).div
          (Double.ofDecimal false 1 fraction.length)
        scaled? token negative mantissa (rest.dropWhile Text.isDigit)
    | rest => scaled? token negative (Double.ofInt (Text.decimal whole)) rest

end TypedStream.Event
