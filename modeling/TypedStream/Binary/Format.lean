namespace TypedStream.Binary

structure Format where
  /-- Stored bits of the fraction. -/
  fraction : Nat
  /-- Bits of the exponent field. -/
  exponent : Nat

def Format.single : Format := ⟨23, 8⟩

def Format.double : Format := ⟨52, 11⟩

/-- What an encoded number stands for: `mantissa · 2 ^ scale` if it is finite. -/
inductive Parts where
  | finite (negative : Bool) (mantissa : Nat) (scale : Int)
  | infinite (negative : Bool)
  | nan (negative : Bool) (payload : Nat)

/-- The nearest integer to `num / den`; a tie goes to the even one. -/
def nearest (num den : Nat) : Nat :=
  let q := num / den
  let r := num % den
  if den < 2 * r ∨ (den = 2 * r ∧ q % 2 = 1) then q + 1 else q

/-- The fraction `num / den · 2 ^ scale`, with the power moved to where it is a natural number. -/
def scaled (num den : Nat) (scale : Int) : Nat × Nat :=
  if 0 ≤ scale then (num * Nat.pow 2 scale.toNat, den) else (num, den * Nat.pow 2 (-scale).toNat)

namespace Format

/-- The scale of the least magnitudes, and so the least scale there is. -/
def leastScale (f : Format) : Int := 2 - (Nat.pow 2 (f.exponent - 1) : Nat) - (f.fraction : Int)

/-- The number of the infinite magnitude. -/
def infinity (f : Format) : Nat := (Nat.pow 2 f.exponent - 1) * Nat.pow 2 f.fraction

/-- The bit that tells a negative number. -/
def signBit (f : Format) : Nat := Nat.pow 2 (f.fraction + f.exponent)

def unpack (f : Format) (bits : Nat) : Parts :=
  let negative := f.signBit ≤ bits
  let magnitude := bits % f.signBit
  let low := magnitude % Nat.pow 2 f.fraction
  let field := magnitude / Nat.pow 2 f.fraction
  if magnitude = f.infinity then .infinite negative
  else if f.infinity < magnitude then .nan negative low
  else if field = 0 then .finite negative low f.leastScale
  else .finite negative (Nat.pow 2 f.fraction + low) (f.leastScale + (field - 1 : Nat))

/-- The scale at which `num / den · 2 ^ scale` has as many bits as the format holds. -/
def scaleFor (f : Format) (num den : Nat) (scale : Int) : Int :=
  let guess := max f.leastScale
    ((Nat.log2 num : Int) - Nat.log2 den + scale - (f.fraction + 1))
  let (n, d) := scaled num den (scale - guess)
  if d * Nat.pow 2 (f.fraction + 1) ≤ n then guess + 1 else guess

/-- The number of the magnitude nearest to `num / den · 2 ^ scale`; a tie goes to the even one. -/
def round (f : Format) (num den : Nat) (scale : Int) : Nat :=
  if num = 0 then 0
  else
    let e := f.scaleFor num den scale
    let (n, d) := scaled num den (scale - e)
    min f.infinity ((e - f.leastScale).toNat * Nat.pow 2 f.fraction + nearest n d)

def withSign (f : Format) (negative : Bool) (magnitude : Nat) : Nat :=
  if negative then f.signBit + magnitude else magnitude

/-- The not-a-number with the given payload, which is made quiet. -/
def quiet (f : Format) (negative : Bool) (payload : Nat) : Nat :=
  let half := Nat.pow 2 (f.fraction - 1)
  f.withSign negative (f.infinity + half + payload % half)

/-- The not-a-number that an operation without a result yields. -/
def indefinite (f : Format) : Nat := f.quiet true 0

end Format

end TypedStream.Binary
