namespace TypedStream

abbrev Text := List UInt8

def utf8 (s : String) : Text := s.toByteArray.data.toList

namespace Text

def join (separator : Text) : List Text → Text
  | [] => []
  | [t] => t
  | t :: u :: rest => t ++ separator ++ join separator (u :: rest)

/-- Comma-separated parts between round brackets. -/
def tuple (parts : List Text) : Text := utf8 "(" ++ join (utf8 ", ") parts ++ utf8 ")"

def ofNat (n : Nat) : Text := (Nat.toDigits 10 n).map fun c => c.toNat.toUInt8

def ofInt (i : Int) : Text :=
  if i < 0 then utf8 "-" ++ ofNat i.natAbs else ofNat i.natAbs

def ofBool (b : Bool) : Text := if b then utf8 "true" else utf8 "false"

/-- Byte by byte, a proper initial segment first. -/
def compare : Text → Text → Ordering
  | [], [] => .eq
  | [], _ :: _ => .lt
  | _ :: _, [] => .gt
  | a :: s, b :: t => if a < b then .lt else if b < a then .gt else compare s t

/-- The comparison tells how the texts are ordered. -/
theorem compare_cases (s t : Text) :
    compare s t = .lt ∧ s < t ∨ compare s t = .eq ∧ s = t ∨ compare s t = .gt ∧ t < s := by
  induction s generalizing t with
  | nil => cases t <;> simp [compare]
  | cons a s ih =>
    cases t with
    | nil => simp [compare]
    | cons b t =>
      simp only [compare, List.cons_lt_cons_iff]
      by_cases hab : a < b
      · simp [hab]
      · by_cases hba : b < a
        · simp [hab, hba]
        · have he : a = b := UInt8.le_antisymm (UInt8.not_lt.mp hba) (UInt8.not_lt.mp hab)
          simpa [he] using ih t

def isDigit (b : UInt8) : Bool := 48 ≤ b && b ≤ 57

/-- The value of a run of decimal digits; bytes are taken for digits without a check. -/
def decimal (digits : Text) : Nat := digits.foldl (fun n b => 10 * n + (b.toNat - 48)) 0

/-- Splits at the first `b`, which is dropped. -/
def splitFirst (b : UInt8) : Text → Option (Text × Text)
  | [] => none
  | a :: rest =>
    if a = b then some ([], rest)
    else (splitFirst b rest).map fun (front, back) => (a :: front, back)

/-- The pieces between the occurrences of `b`: always one more than there are. -/
def splitAll (b : UInt8) : Text → List Text
  | [] => [[]]
  | a :: rest =>
    if a = b then [] :: splitAll b rest
    else match splitAll b rest with
      | [] => [[a]]
      | piece :: pieces => (a :: piece) :: pieces

/-- What is left of a text after `front`, if it starts with it. -/
def dropFront : (front text : Text) → Option Text
  | [], text => some text
  | _ :: _, [] => none
  | a :: front, b :: text => if a = b then dropFront front text else none

/-- Puts `margin` before every line that has at least one byte. `fresh` says whether the text
starts at the beginning of a line. -/
def indentFrom (margin : Text) (fresh : Bool) : Text → Text
  | [] => []
  | b :: rest =>
    if b = 10 then b :: indentFrom margin true rest
    else if fresh then margin ++ b :: indentFrom margin false rest
    else b :: indentFrom margin false rest

def indent (margin text : Text) : Text := indentFrom margin true text

end Text

end TypedStream
