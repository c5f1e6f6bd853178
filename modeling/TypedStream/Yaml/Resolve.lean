import TypedStream.Binary.Decimal
import TypedStream.Setting
import TypedStream.Time.Read

namespace TypedStream.Yaml

def isOneOf (words : List String) (t : Text) : Bool := words.any fun w => utf8 w == t

def isNullWord (t : Text) : Bool := isOneOf ["", "~", "null", "Null", "NULL"] t

/-- The value of a letter or digit as a digit. -/
def digitValue (b : UInt8) : Nat :=
  if 48 ≤ b && b ≤ 57 then b.toNat - 48
  else if 97 ≤ b && b ≤ 122 then b.toNat - 87
  else if 65 ≤ b && b ≤ 90 then b.toNat - 55
  else 36

def readBase? (base : Nat) (digits : Text) : Option Nat :=
  digits.foldlM (fun n b => if digitValue b < base then some (base * n + digitValue b) else none) 0

/-- A number without a sign. A letter after a leading zero tells its base, and without one that
base is eight. -/
def readNatural? : Text → Option Nat
  | [] => none
  | 48 :: letter :: digit :: rest =>
    if letter = 98 || letter = 66 then readBase? 2 (digit :: rest)
    else if letter = 111 || letter = 79 then readBase? 8 (digit :: rest)
    else if letter = 120 || letter = 88 then readBase? 16 (digit :: rest)
    else readBase? 8 (letter :: digit :: rest)
  | 48 :: rest => readBase? 8 rest
  | digits => readBase? 10 digits

/-- A whole number that fits into 64 bits: with a sign, or if it has none, possibly without. -/
def readSigned? (read : Text → Option Nat) (text : Text) : Option Int :=
  match text with
  | 45 :: digits => do
    let n ← read digits
    if n ≤ Nat.pow 2 63 then return -n else none
  | 43 :: digits => do
    let n ← read digits
    if n < Nat.pow 2 63 then return n else none
  | digits => do
    let n ← read digits
    if n < Nat.pow 2 64 then return n else none

def readWhole? (text : Text) : Option Int := readSigned? readNatural? text

/-- A whole number whose sign follows the letter for its base. -/
def readInnerSign? (text : Text) : Option Int :=
  match text with
  | 48 :: 98 :: sign :: digit :: rest => readSigned? (readBase? 2) (sign :: digit :: rest)
  | 48 :: 111 :: sign :: digit :: rest => readSigned? (readBase? 8) (sign :: digit :: rest)
  | _ => none

def readReal? (text : Text) : Option Double := do
  let x ← Double.read? text
  if x.abs.bits = (Double.infinity false).bits then none else return x

def namedReal? (t : Text) : Option Double :=
  if isOneOf [".nan", ".NaN", ".NAN"] t then some Double.nan
  else if isOneOf [".inf", ".Inf", ".INF", "+.inf", "+.Inf", "+.INF"] t then
    some (Double.infinity false)
  else if isOneOf ["-.inf", "-.Inf", "-.INF"] t then some (Double.infinity true)
  else none

/-- A number without the underscores in it, all of which have to be between digits. -/
def ungrouped : (afterDigit : Bool) → Text → Option Text
  | _, [] => some []
  | afterDigit, b :: rest =>
    if b = 95 then
      if afterDigit && rest.head?.any Text.isDigit then ungrouped false rest else none
    else (ungrouped (Text.isDigit b) rest).map (b :: ·)

/-- A date or a number that starts with a digit or a sign. Underscores in numbers do not count. -/
def readDigits? (t : Text) : Option Setting :=
  let digits := t.filter (· != 95)
  (Instant.readShort? t).map .instant <|> (readWhole? digits).map .whole <|>
    (readReal? digits).map .real <|> (readInnerSign? digits).map .whole

/-- Numbers and dates are told by their first character. -/
def readNumber? (t : Text) : Option Setting :=
  match t with
  | [] => none
  | b :: _ =>
    if b = 46 then ((ungrouped false t).bind readReal?).map .real
    else if Text.isDigit b || b = 43 || b = 45 then readDigits? t
    else none

def resolvePlain (t : Text) : Setting :=
  if isNullWord t then .null
  else if isOneOf ["true", "True", "TRUE"] t then .boolean true
  else if isOneOf ["false", "False", "FALSE"] t then .boolean false
  else match namedReal? t with
    | some x => .real x
    | none => (readNumber? t).getD (.text t)

/-- The tags that ask for a kind of scalar other than text. -/
def kindTags : List Text :=
  [utf8 "!!null", utf8 "!!bool", utf8 "!!int", utf8 "!!float", utf8 "!!timestamp"]

def kindTag : Setting → Text
  | .null => utf8 "!!null"
  | .boolean _ => utf8 "!!bool"
  | .whole _ => utf8 "!!int"
  | .real _ => utf8 "!!float"
  | .instant _ => utf8 "!!timestamp"
  | _ => utf8 "!!str"

/-- A scalar of the kind that its tag asks for. Unknown tags leave text. -/
def resolveTagged (tag t : Text) : Option Setting :=
  if !kindTags.contains tag then some (.text t)
  else
    let s := resolvePlain t
    if kindTag s == tag then some s
    else match s with
      | .whole n =>
        if tag == utf8 "!!float" && n < Nat.pow 2 63 then some (.real (Double.ofInt n)) else none
      | _ => none

/-- What a scalar means, if that is what its tag asks for. -/
def resolve (tag : Option Text) (plain : Bool) (t : Text) : Option Setting :=
  match tag with
  | some tag => resolveTagged tag t
  | none => some (if plain then resolvePlain t else .text t)

end TypedStream.Yaml
