import TypedStream.Binary.Number
import TypedStream.Text

namespace TypedStream.Binary

/-- The decimal `digits · 10 ^ exponent`. -/
structure Decimal where
  digits : Nat
  exponent : Int

/-- Whether `10 ^ k ≤ num / den`. -/
def atLeastPower (num den : Nat) (k : Int) : Bool :=
  if 0 ≤ k then den * Nat.pow 10 k.toNat ≤ num else den ≤ num * Nat.pow 10 (-k).toNat

/-- The greatest `k` with `10 ^ k ≤ num / den`. -/
def leadingPower (num den : Nat) : Int :=
  let guess := ((Nat.log2 num : Int) - Nat.log2 den) * 30103 / 100000
  match [guess + 2, guess + 1, guess, guess - 1].find? (atLeastPower num den) with
  | some k => k
  | none => guess - 2

/-- The reals that round to a number, as fractions over one denominator; the ends belong to them
if `closed`. -/
structure Neighbourhood where
  low : Nat
  value : Nat
  high : Nat
  den : Nat
  closed : Bool

/-- The neighbourhood of `mantissa · 2 ^ scale`. Below a power of two the neighbours are half as
far away, unless the scale is the least one. -/
def Format.neighbourhood (f : Format) (mantissa : Nat) (scale : Int) : Neighbourhood :=
  let below := if mantissa = Nat.pow 2 f.fraction ∧ scale ≠ f.leastScale then 1 else 2
  let (v, den) := scaled (4 * mantissa) 4 scale
  let (unit, _) := scaled 1 4 scale
  ⟨v - below * unit, v, v + 2 * unit, den, mantissa % 2 = 0⟩

/-- Whether `a · 10 ^ k` lies in the neighbourhood. -/
def Neighbourhood.holds (n : Neighbourhood) (a : Nat) (k : Int) : Bool :=
  let (x, d) :=
    if 0 ≤ k then (a * Nat.pow 10 k.toNat * n.den, 1) else (a * n.den, Nat.pow 10 (-k).toNat)
  if n.closed then n.low * d ≤ x && x ≤ n.high * d else n.low * d < x && x < n.high * d

/-- The multiple of `10 ^ k` in the neighbourhood that is nearest to the value, if there is one. -/
def Neighbourhood.onGrid (n : Neighbourhood) (k : Int) : Option Nat :=
  let (num, den) := if 0 ≤ k then (n.value, n.den * Nat.pow 10 k.toNat)
    else (n.value * Nat.pow 10 (-k).toNat, n.den)
  let a := num / den
  match n.holds a k, n.holds (a + 1) k with
  | true, true => some (nearest num den)
  | true, false => some a
  | false, true => some (a + 1)
  | false, false => none

/-- Moves zeros at the end of the digits into the exponent. -/
def Decimal.strip : (fuel : Nat) → Decimal → Decimal
  | 0, d => d
  | fuel + 1, d =>
    if d.digits % 10 = 0 then strip fuel ⟨d.digits / 10, d.exponent + 1⟩ else d

/-- Seventeen digits tell all numbers of the two formats apart. -/
def Format.shortest (f : Format) (mantissa : Nat) (scale : Int) : Decimal :=
  let n := f.neighbourhood mantissa scale
  let lead := leadingPower n.value n.den
  let found := (List.range 17).findSome? fun (i : Nat) =>
    (n.onGrid (lead - i)).map fun a => (⟨a, lead - i⟩ : Decimal)
  match found with
  | some d => d.strip 17
  | none => ⟨n.value / n.den, 0⟩

def decimalDigits (d : Decimal) : Text := Text.ofNat d.digits

/-- One digit before the point and an exponent of at least two digits. -/
def scientific (digits : Text) (lead : Int) : Text :=
  let exponent := Text.ofNat lead.natAbs
  let padded := if exponent.length < 2 then utf8 "0" ++ exponent else exponent
  digits.take 1 ++ (if digits.length ≤ 1 then [] else utf8 "." ++ digits.drop 1) ++ utf8 "e" ++
    (if lead < 0 then utf8 "-" else utf8 "+") ++ padded

/-- No exponent; `lead` is the place of the first digit. -/
def positional (digits : Text) (lead : Int) : Text :=
  if lead < 0 then
    utf8 "0." ++ List.replicate (-lead - 1).toNat 48 ++ digits
  else
    let whole := lead.toNat + 1
    if digits.length ≤ whole then digits ++ List.replicate (whole - digits.length) 48
    else digits.take whole ++ utf8 "." ++ digits.drop whole

/-- Numbers from `0.0001` up to a million are written without an exponent. -/
def Decimal.text (d : Decimal) : Text :=
  let digits := decimalDigits d
  let lead := d.exponent + (digits.length : Int) - 1
  if lead < -4 ∨ 6 ≤ lead then scientific digits lead else positional digits lead

def Format.text (f : Format) : Parts → Text
  | .nan _ _ => utf8 "NaN"
  | .infinite negative => if negative then utf8 "-Inf" else utf8 "+Inf"
  | .finite negative m e =>
    (if negative then utf8 "-" else []) ++
      if m = 0 then utf8 "0" else (f.shortest m e).text

end TypedStream.Binary

namespace TypedStream

def Single.text (x : Single) : Text := Binary.Format.single.text x.parts

def Double.text (x : Double) : Text := Binary.Format.double.text x.parts

end TypedStream
