import TypedStream.Binary.Format

namespace TypedStream

open Binary

structure Single where
  bits : UInt32
  deriving DecidableEq

structure Double where
  bits : UInt64
  deriving DecidableEq

namespace Binary

/-- The number nearest to a signed `num / den · 2 ^ scale`. -/
def Format.roundSigned (f : Format) (negative : Bool) (num den : Nat) (scale : Int) : Nat :=
  f.withSign negative (f.round num den scale)

def Format.convert (f : Format) : Parts → (fromFraction : Nat) → Nat
  | .finite negative m e, _ => f.roundSigned negative m 1 e
  | .infinite negative, _ => f.withSign negative f.infinity
  | .nan negative payload, fromFraction =>
    f.quiet negative
      (if fromFraction ≤ f.fraction then payload * Nat.pow 2 (f.fraction - fromFraction)
       else payload / Nat.pow 2 (fromFraction - f.fraction))

end Binary

namespace Single

def parts (x : Single) : Parts := Format.single.unpack x.bits.toNat

def ofNat (bits : Nat) : Single := ⟨bits.toUInt32⟩

def zero : Single := ⟨0⟩

def isNaN (x : Single) : Bool := match x.parts with | .nan .. => true | _ => false

def widen (x : Single) : Double := ⟨(Format.double.convert x.parts 23).toUInt64⟩

/-- The nearest number; a tie goes to the even one. -/
def ofInt (i : Int) : Single := ofNat (Format.single.roundSigned (i < 0) i.natAbs 1 0)

end Single

namespace Double

def parts (x : Double) : Parts := Format.double.unpack x.bits.toNat

def ofNat (bits : Nat) : Double := ⟨bits.toUInt64⟩

def zero : Double := ⟨0⟩

def isNaN (x : Double) : Bool := match x.parts with | .nan .. => true | _ => false

def round (negative : Bool) (num den : Nat) (scale : Int) : Double :=
  ofNat (Format.double.roundSigned negative num den scale)

def infinity (negative : Bool) : Double :=
  ofNat (Format.double.withSign negative Format.double.infinity)

/-- The result of an operation that has none. -/
def indefinite : Double := ofNat Format.double.indefinite

def nan : Double := ofNat (Format.double.quiet false 0)

def isNegative (x : Double) : Bool := Format.double.signBit ≤ x.bits.toNat

def magnitude (x : Double) : Nat := x.bits.toNat % Format.double.signBit

def abs (x : Double) : Double := ofNat x.magnitude

def neg (x : Double) : Double := ofNat (Format.double.withSign (!x.isNegative) x.magnitude)

def isZero (x : Double) : Bool := x.magnitude == 0

/-- The nearest single precision number; a tie goes to the even one. -/
def narrow (x : Double) : Single := Single.ofNat (Format.single.convert x.parts 52)

/-- The nearest number; a tie goes to the even one. -/
def ofInt (i : Int) : Double := round (i < 0) i.natAbs 1 0

def signed (negative : Bool) (mantissa : Nat) : Int :=
  if negative then -(mantissa : Int) else mantissa

/-- The sum of two finite numbers. A sum of zero is negative only if both terms are. -/
def addFinite (s : Bool) (m : Nat) (e : Int) (t : Bool) (n : Nat) (g : Int) : Double :=
  let low := min e g
  let sum := signed s (m * Nat.pow 2 (e - low).toNat) + signed t (n * Nat.pow 2 (g - low).toNat)
  round (if sum = 0 then s && t else sum < 0) sum.natAbs 1 low

def quietOf (negative : Bool) (payload : Nat) : Double :=
  ofNat (Format.double.quiet negative payload)

def add (x y : Double) : Double :=
  match x.parts, y.parts with
  | .nan s p, _ => quietOf s p
  | _, .nan s p => quietOf s p
  | .infinite s, .infinite t => if s = t then x else indefinite
  | .infinite _, _ => x
  | _, .infinite _ => y
  | .finite s m e, .finite t n g => addFinite s m e t n g

def sub (x y : Double) : Double := if y.isNaN then add x y else add x y.neg

def mul (x y : Double) : Double :=
  match x.parts, y.parts with
  | .nan s p, _ => quietOf s p
  | _, .nan s p => quietOf s p
  | .infinite s, .infinite t => infinity (s != t)
  | .infinite s, .finite t n _ => if n = 0 then indefinite else infinity (s != t)
  | .finite s m _, .infinite t => if m = 0 then indefinite else infinity (s != t)
  | .finite s m e, .finite t n g => round (s != t) (m * n) 1 (e + g)

def div (x y : Double) : Double :=
  match x.parts, y.parts with
  | .nan s p, _ => quietOf s p
  | _, .nan s p => quietOf s p
  | .infinite _, .infinite _ => indefinite
  | .infinite s, .finite t _ _ => infinity (s != t)
  | .finite s _ _, .infinite t => round (s != t) 0 1 0
  | .finite s m e, .finite t n g =>
    if n = 0 then (if m = 0 then indefinite else infinity (s != t))
    else round (s != t) m n (e - g)

/-- The whole part of a number that is not negative; zero for the others. -/
def wholePart (x : Double) : Nat :=
  match x.parts with
  | .finite false m e => if 0 ≤ e then m * Nat.pow 2 e.toNat else m / Nat.pow 2 (-e).toNat
  | _ => 0

/-- Where a number stands among the others; the two zeros stand together. -/
def rank (x : Double) : Int := signed x.isNegative x.magnitude

/-- Not-a-number is neither below nor above anything. -/
def compare (x y : Double) : Ordering :=
  if x.isNaN || y.isNaN then .eq
  else if x.rank < y.rank then .lt
  else if y.rank < x.rank then .gt
  else .eq

end Double

end TypedStream
