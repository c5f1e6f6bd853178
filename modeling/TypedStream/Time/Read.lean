import TypedStream.Binary.Decimal
import TypedStream.Time.Basic

namespace TypedStream

namespace Instant

def readDigits (count : Nat) (text : Text) : Option (Nat × Text) :=
  let digits := text.take count
  if digits.length = count ∧ digits.all Text.isDigit then
    some (Text.decimal digits, text.drop count)
  else none

def readShort (text : Text) : Option (Nat × Text) :=
  match readDigits 2 text with
  | some found => some found
  | none => readDigits 1 text

def readByte (b : UInt8) : Text → Option Text
  | [] => none
  | a :: rest => if a = b then some rest else none

/-- A point or a comma and digits, of which nine count. Without a digit there is no fraction. -/
def readFraction (text : Text) : Nat × Text :=
  match text with
  | mark :: rest =>
    let digits := rest.takeWhile Text.isDigit
    if (mark = 46 || mark = 44) && !digits.isEmpty then
      let kept := digits.take 9
      (Text.decimal kept * Nat.pow 10 (9 - kept.length), rest.dropWhile Text.isDigit)
    else (0, text)
  | [] => (0, [])

/-- A zone is `Z`, or a sign with hours and minutes; the result is in seconds. -/
def readZone (text : Text) : Option Int :=
  match text with
  | [90] => some 0
  | sign :: rest => do
    let (hours, rest) ← readDigits 2 rest
    let rest ← readByte 58 rest
    let (minutes, rest) ← readDigits 2 rest
    if !rest.isEmpty || 24 < hours || 60 < minutes then none
    let offset : Int := (hours * 60 + minutes) * 60
    if sign = 43 then return offset
    else if sign = 45 then return -offset
    else none
  | [] => none

/-- The point in time with a date and a time of day in a zone. -/
def ofDate (date : Date) (secondOfDay nanos : Nat) (offset : Int) : Instant :=
  ⟨Int64.ofInt (date.toDays * 86400 + secondOfDay - offset), nanos, Int64.ofInt offset, none⟩

/-- A date, a time of day with an optional fraction, and a zone. -/
def read? (text : Text) : Option Instant := do
  let (year, rest) ← readDigits 4 text
  let rest ← readByte 45 rest
  let (month, rest) ← readDigits 2 rest
  let rest ← readByte 45 rest
  let (day, rest) ← readDigits 2 rest
  let rest ← readByte 84 rest
  let (hour, rest) ← readShort rest
  let rest ← readByte 58 rest
  let (minute, rest) ← readDigits 2 rest
  let rest ← readByte 58 rest
  let (second, rest) ← readDigits 2 rest
  let (nanos, rest) := readFraction rest
  let offset ← readZone rest
  if month < 1 || 12 < month || day < 1 || Date.monthLength year month < day then none
  if 23 < hour || 59 < minute || 59 < second then none
  return ofDate ⟨year, month, day⟩ (hour * 3600 + minute * 60 + second) nanos offset

/-- A date whose month and day may have one digit. -/
def readShortDate (text : Text) : Option (Date × Text) := do
  let (year, rest) ← readDigits 4 text
  let rest ← readByte 45 rest
  let (month, rest) ← readShort rest
  let rest ← readByte 45 rest
  let (day, rest) ← readShort rest
  if month < 1 || 12 < month || day < 1 || Date.monthLength year month < day then none
  return (⟨year, month, day⟩, rest)

/-- A time of day whose parts may have one digit: the second of the day, and nanoseconds. -/
def readShortTime (text : Text) : Option (Nat × Nat × Text) := do
  let (hour, rest) ← readShort text
  let rest ← readByte 58 rest
  let (minute, rest) ← readShort rest
  let rest ← readByte 58 rest
  let (second, rest) ← readShort rest
  if 23 < hour || 59 < minute || 59 < second then none
  let (nanos, rest) := readFraction rest
  return (hour * 3600 + minute * 60 + second, nanos, rest)

/-- A date alone; or with a time of day after spaces; or with a time of day and a zone after a
letter. -/
def readShort? (text : Text) : Option Instant := do
  let (date, rest) ← readShortDate text
  match rest with
  | [] => return ofDate date 0 0 0
  | mark :: rest =>
    if mark = 84 || mark = 116 then do
      let (second, nanos, rest) ← readShortTime rest
      return ofDate date second nanos (← readZone rest)
    else if mark = 32 then do
      let (second, nanos, rest) ← readShortTime (rest.dropWhile (· == 32))
      if rest.isEmpty then return ofDate date second nanos 0 else none
    else none

end Instant

namespace Span

/-- The names of the units, in nanoseconds. The micro sign has two code points. -/
def units : List (Text × Nat) := [
  (utf8 "ns", 1),
  (utf8 "us", 1000),
  (utf8 "µs", 1000),
  (utf8 "μs", 1000),
  (utf8 "ms", 1000000),
  (utf8 "s", 1000000000),
  (utf8 "m", 60000000000),
  (utf8 "h", 3600000000000)]

/-- The digits of a fraction as long as they fit in 63 bits, and how many they are. -/
def fractionDigits : (value places : Nat) → Text → Nat × Nat
  | value, places, [] => (value, places)
  | value, places, b :: rest =>
    let next := value * 10 + (b.toNat - 48)
    if 922337203685477580 < value || Nat.pow 2 63 < next then (value, places)
    else fractionDigits next (places + 1) rest

/-- A fraction of a unit in whole nanoseconds, computed in double precision. -/
def fractionOf (unit : Nat) (digits : Text) : Nat :=
  let (value, places) := fractionDigits 0 0 digits
  if value = 0 then 0
  else
    let scale := (Double.ofInt unit).div (Double.ofDecimal false 1 places)
    ((Double.ofInt value).mul scale).wholePart

def isUnitByte (b : UInt8) : Bool := !(b == 46 || Text.isDigit b)

/-- A number and its unit, in nanoseconds, if they are no more than 2 ^ 63. -/
def readTerm (text : Text) : Option (Nat × Text) := do
  let whole := text.takeWhile Text.isDigit
  let rest := text.dropWhile Text.isDigit
  let (fraction, rest) := match rest with
    | 46 :: rest => (rest.takeWhile Text.isDigit, rest.dropWhile Text.isDigit)
    | _ => ([], rest)
  if whole.isEmpty && fraction.isEmpty then none
  let count := Text.decimal whole
  let unit ← units.lookup (rest.takeWhile isUnitByte)
  if Nat.pow 2 63 < count || Nat.pow 2 63 / unit < count then none
  let nanos := count * unit + fractionOf unit fraction
  if Nat.pow 2 63 < nanos then none
  return (nanos, rest.dropWhile isUnitByte)

/-- Adds up terms to the end of the text. The total has 64 bits. -/
def readTerms : (fuel total : Nat) → Text → Option Nat
  | _, total, [] => some total
  | 0, _, _ :: _ => none
  | fuel + 1, total, b :: bs => do
    let (nanos, rest) ← readTerm (b :: bs)
    let total := (total + nanos) % Nat.pow 2 64
    if Nat.pow 2 63 < total then none else readTerms fuel total rest

/-- A sign, and then a zero or one or more terms. -/
def read? (text : Text) : Option Span :=
  let (negative, text) := Double.takeSign text
  if text == utf8 "0" then some ⟨0⟩
  else if text.isEmpty then none
  else
    match readTerms text.length 0 text with
    | none => none
    | some n =>
      if negative then some ⟨Int64.ofInt (-n)⟩
      else if Nat.pow 2 63 ≤ n then none
      else some ⟨Int64.ofNat n⟩

end Span

end TypedStream
