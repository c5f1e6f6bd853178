import TypedStream.Text.Rune

namespace TypedStream

/-- A signed number of nanoseconds. -/
structure Span where
  nanos : Int64
  deriving DecidableEq

namespace Span

/-- The digits of `n` after the point when `places` of them are counted off, without zeros at the
end; nothing if none are left. -/
def fractionText (n places : Nat) : Text :=
  let digits := Text.ofNat (n % Nat.pow 10 places)
  let padded := List.replicate (places - digits.length) 48 ++ digits
  let kept := (padded.reverse.dropWhile (· == 48)).reverse
  if kept.isEmpty then [] else utf8 "." ++ kept

/-- A count of nanoseconds in a unit of `10 ^ places` nanoseconds. -/
def inUnit (n places : Nat) : Text := Text.ofNat (n / Nat.pow 10 places) ++ fractionText n places

def magnitudeText (n : Nat) : Text :=
  if n < 1000 then inUnit n 0 ++ utf8 "ns"
  else if n < 1000000 then inUnit n 3 ++ utf8 "µs"
  else if n < 1000000000 then inUnit n 6 ++ utf8 "ms"
  else
    let seconds := n / 1000000000
    let minutes := seconds / 60
    let hours := minutes / 60
    (if hours = 0 then [] else Text.ofNat hours ++ utf8 "h") ++
      (if minutes = 0 then [] else Text.ofNat (minutes % 60) ++ utf8 "m") ++
      Text.ofNat (seconds % 60) ++ fractionText n 9 ++ utf8 "s"

/-- Units from hours down to nanoseconds; below a second one unit with a fraction. -/
def text (s : Span) : Text :=
  let n := s.nanos.toInt
  if n = 0 then utf8 "0s"
  else if n < 0 then utf8 "-" ++ magnitudeText n.natAbs
  else magnitudeText n.natAbs

end Span

/-- A point in time, shown `offset` seconds east of Greenwich. -/
structure Instant where
  /-- Seconds from the start of the year 1. -/
  seconds : Int64
  nanos : Nat
  offset : Int64
  /-- What a clock that is never set showed at the time, if the point in time was read from one. -/
  reading : Option Int64
  deriving DecidableEq

/-- A day of the Gregorian calendar, extended backwards. -/
structure Date where
  year : Int
  month : Nat
  day : Nat

namespace Date

def isLeap (year : Int) : Bool := year % 4 == 0 && (year % 100 != 0 || year % 400 == 0)

def monthLengths (leap : Bool) : List Nat :=
  [31, if leap then 29 else 28, 31, 30, 31, 30, 31, 31, 30, 31, 30, 31]

def monthLength (year : Int) (month : Nat) : Nat :=
  ((monthLengths (isLeap year))[month - 1]?).getD 0

/-- Splits a day of the year into month and day, counting months from `month`. -/
def inYear (month : Nat) : (lengths : List Nat) → (day : Nat) → Nat × Nat
  | [], day => (month, day + 1)
  | length :: rest, day =>
    if day < length then (month, day + 1) else inYear (month + 1) rest (day - length)

/-- The years passed after `days` days from the start of the year 1, within 400 years, and the days
left. -/
def yearsPassed (days : Nat) : Nat × Nat :=
  let centuries := min 3 (days / 36524)
  let days := days - centuries * 36524
  let fours := days / 1461
  let days := days % 1461
  let years := min 3 (days / 365)
  (centuries * 100 + fours * 4 + years, days - years * 365)

/-- The date `days` days after the start of the year 1. -/
def ofDays (days : Int) : Date :=
  let cycle := days / 146097
  let (years, day) := yearsPassed (days % 146097).toNat
  let year := cycle * 400 + years + 1
  let (month, day) := inYear 1 (monthLengths (isLeap year)) day
  ⟨year, month, day⟩

/-- The days from the start of the year 1 to a date. -/
def toDays (d : Date) : Int :=
  let y := d.year - 1
  let before : Nat := ((monthLengths (isLeap d.year)).take (d.month - 1)).foldr (· + ·) 0
  y * 365 + y / 4 - y / 100 + y / 400 + (before : Int) + (d.day : Int) - 1

end Date

namespace Instant

/-- The start of 1970, in seconds from the start of the year 1. -/
def epoch : Int64 := 62135596800

def ofUnix (seconds : Int64) (nanos : Nat) (offset : Int64) : Instant :=
  ⟨seconds + epoch, nanos, offset, none⟩

def unix (t : Instant) : Int64 := t.seconds - epoch

/-- By the calendar, where the zone does not count. -/
def compareCalendar (t u : Instant) : Ordering :=
  if t.seconds < u.seconds then .lt
  else if u.seconds < t.seconds then .gt
  else Ord.compare t.nanos u.nanos

/-- By the readings of the clock if both have one, else by the calendar. -/
def compare (t u : Instant) : Ordering :=
  match t.reading, u.reading with
  | some m, some n => if m < n then .lt else if n < m then .gt else .eq
  | _, _ => compareCalendar t u

/-- The years from the start of the calendar's clock to the year 1. -/
def clockYears : Int := 292277022400

/-- The seconds from the start of the calendar's clock, which has 64 bits. -/
def clock (t : Instant) : Nat :=
  ((t.seconds.toInt + t.offset.toInt + clockYears / 400 * 146097 * 86400) % Nat.pow 2 64).toNat

def padded (width : Nat) (n : Nat) : Text :=
  let digits := Text.ofNat n
  List.replicate (width - digits.length) 48 ++ digits

def yearText (year : Int) : Text :=
  if year < 0 then utf8 "-" ++ padded 4 year.natAbs else padded 4 year.natAbs

/-- A zone shows as `Z` in Greenwich, else as the offset in whole minutes. -/
def zoneText (offset : Int64) : Text :=
  if offset = 0 then utf8 "Z"
  else
    let minutes := offset.toInt.tdiv 60
    (if minutes < 0 then utf8 "-" else utf8 "+") ++ padded 2 (minutes.natAbs / 60) ++ utf8 ":" ++
      padded 2 (minutes.natAbs % 60)

/-- Date, time of day with a fraction if there is one, and zone. -/
def text (t : Instant) : Text :=
  let clock := t.clock
  let date := Date.ofDays (clock / 86400 : Nat)
  let second := clock % 86400
  yearText (date.year - clockYears) ++ utf8 "-" ++ padded 2 date.month ++ utf8 "-" ++
    padded 2 date.day ++ utf8 "T" ++ padded 2 (second / 3600) ++ utf8 ":" ++
    padded 2 (second / 60 % 60) ++ utf8 ":" ++ padded 2 (second % 60) ++
    Span.fractionText t.nanos 9 ++ zoneText t.offset

end Instant

end TypedStream
