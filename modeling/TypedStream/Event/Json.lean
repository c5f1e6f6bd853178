import TypedStream.Text.Rune

namespace TypedStream

inductive Json where
  | null
  | true
  | false
  /-- The characters of the number. -/
  | number (token : Text)
  /-- What stands between the quotes. -/
  | string (raw : Text)
  | array (items : List Json)
  /-- Keys as they stand between their quotes. -/
  | object (members : List (Text × Json))

namespace Json

def kindName : Json → Text
  | null => utf8 "null"
  | true => utf8 "true"
  | false => utf8 "false"
  | number _ => utf8 "number"
  | string _ => utf8 "string"
  | array _ => utf8 "array"
  | object _ => utf8 "object"

def isSpace (b : UInt8) : Bool := b == 32 || b == 10 || b == 9 || b == 13

def skipSpace (text : Text) : Text := text.dropWhile isSpace

/-- Splits at the closing quote: the first one that no backslash escapes. `escaped` says whether one
escapes the next byte. -/
def readString (escaped : Bool) : Text → Option (Text × Text)
  | [] => none
  | b :: rest =>
    if b = 34 && !escaped then some ([], rest)
    else (readString (b == 92 && !escaped) rest).map fun (raw, rest) => (b :: raw, rest)

def isNumberByte (b : UInt8) : Bool :=
  Text.isDigit b || b == 46 || b == 45 || b == 43 || b == 101 || b == 69

def isSign (b : UInt8) : Bool := b == 45 || b == 43

def lowerByte (b : UInt8) : UInt8 := if 65 ≤ b && b ≤ 90 then b + 32 else b

/-- Whether the text is the word, in letters of either case. -/
def isWord (word : String) (text : Text) : Bool := text.map lowerByte == utf8 word

def isNumberWord (text : Text) : Bool := isWord "inf" text || isWord "nan" text

/-- A number is the longest run of bytes that numbers are made of. Where there is none, or only a
sign before the end of the run, one of the words `inf` and `nan` has to follow. -/
def readNumber (text : Text) : Option (Text × Text) :=
  let run := text.takeWhile isNumberByte
  let rest := text.dropWhile isNumberByte
  if rest.isEmpty then some (run, [])
  else if run.isEmpty || (run.length == 1 && run.all isSign) then
    if isNumberWord (rest.take 3) then some (run ++ rest.take 3, rest.drop 3) else none
  else some (run, rest)

/-- The literals are told by their beginning, whatever follows. -/
def readLiteral (text : Text) : Option (Json × Text) :=
  match Text.dropFront (utf8 "true") text, Text.dropFront (utf8 "false") text,
      Text.dropFront (utf8 "null") text with
  | some rest, _, _ => some (true, rest)
  | _, some rest, _ => some (false, rest)
  | _, _, some rest => some (null, rest)
  | _, _, _ =>
    if isWord "nan" (text.take 3) then some (number (text.take 3), text.drop 3) else none

def startsLiteral (b : UInt8) : Bool := b == 116 || b == 102 || b == 110

mutual

/-- Reads a value; `depth` more may be nested in one another. -/
def readValue : (fuel depth : Nat) → Text → Option (Json × Text)
  | 0, _, _ => none
  | _ + 1, 0, _ => none
  | _ + 1, _ + 1, [] => none
  | fuel + 1, depth + 1, b :: rest =>
    if b = 123 then
      match skipSpace rest with
      | 125 :: rest => some (object [], rest)
      | rest => (readMembers fuel depth rest).map fun (ms, rest) => (object ms, rest)
    else if b = 91 then
      match skipSpace rest with
      | 93 :: rest => some (array [], rest)
      | rest => (readItems fuel depth rest).map fun (js, rest) => (array js, rest)
    else if b = 34 then (readString Bool.false rest).map fun (raw, rest) => (string raw, rest)
    else if startsLiteral b then readLiteral (b :: rest)
    else (readNumber (b :: rest)).map fun (token, rest) => (number token, rest)

/-- Reads items up to the closing bracket. -/
def readItems : (fuel depth : Nat) → Text → Option (List Json × Text)
  | 0, _, _ => none
  | fuel + 1, depth, text => do
    let (item, rest) ← readValue fuel depth (skipSpace text)
    match skipSpace rest with
    | 44 :: rest => do
      let (items, rest) ← readItems fuel depth rest
      return (item :: items, rest)
    | 93 :: rest => return ([item], rest)
    | _ => none

/-- Reads members up to the closing bracket. -/
def readMembers : (fuel depth : Nat) → Text → Option (List (Text × Json) × Text)
  | 0, _, _ => none
  | fuel + 1, depth, text =>
    match skipSpace text with
    | 34 :: rest => do
      let (key, rest) ← readString Bool.false rest
      match skipSpace rest with
      | 58 :: rest => do
        let (value, rest) ← readValue fuel depth (skipSpace rest)
        match skipSpace rest with
        | 44 :: rest => do
          let (members, rest) ← readMembers fuel depth rest
          return ((key, value) :: members, rest)
        | 125 :: rest => return ([(key, value)], rest)
        | _ => none
      | _ => none
    | _ => none

end

/-- Values are nested in one another no deeper than this. -/
def maxDepth : Nat := 300

/-- One value with white space around it and nothing else. Each step of reading takes a byte at
least every other time. -/
def parse? (text : Text) : Option Json := do
  let (value, rest) ← readValue (2 * text.length + 2) maxDepth (skipSpace text)
  if (skipSpace rest).isEmpty then return value else none

def hexDigit? (b : UInt8) : Option Nat :=
  if Text.isDigit b then some (b.toNat - 48)
  else if 97 ≤ b && b ≤ 102 then some (b.toNat - 87)
  else if 65 ≤ b && b ≤ 70 then some (b.toNat - 55)
  else none

def hex4? (a b c d : UInt8) : Option Nat := do
  let w ← hexDigit? a
  let x ← hexDigit? b
  let y ← hexDigit? c
  let z ← hexDigit? d
  return ((w * 16 + x) * 16 + y) * 16 + z

def isSurrogate (n : Nat) : Bool := 0xD800 ≤ n && n ≤ 0xDFFF

/-- The code point of a high and a low surrogate; other pairs have none. -/
def joinSurrogates (high low : Nat) : Rune :=
  if 0xD800 ≤ high && high < 0xDC00 && 0xDC00 ≤ low && low < 0xE000 then
    (high - 0xD800) * 0x400 + (low - 0xDC00) + 0x10000
  else Rune.replacement

/-- The bytes of an escape other than `u`. -/
def plainEscape? (b : UInt8) : Option UInt8 :=
  if b = 34 || b = 92 || b = 47 then some b
  else if b = 98 then some 8
  else if b = 102 then some 12
  else if b = 110 then some 10
  else if b = 114 then some 13
  else if b = 116 then some 9
  else none

/-- The low surrogate that a text begins with. -/
def lowSurrogate? : Text → Option Nat
  | 92 :: 117 :: a :: b :: c :: d :: _ => hex4? a b c d
  | _ => none

/-- The text after a `\u`, with the number of its bytes that the escape takes. An escape that is
none, or half of a pair, stays as it is written. -/
def unicodeEscape (text : Text) : Text × Nat :=
  match text with
  | a :: b :: c :: d :: rest =>
    match hex4? a b c d with
    | none => (utf8 "\\u", 0)
    | some n =>
      if isSurrogate n then
        match lowSurrogate? rest with
        | some m => (Rune.encode (joinSurrogates n m), 10)
        | none => (utf8 "\\u" ++ [a, b, c, d], 4)
      else (Rune.encode n, 4)
  | _ => (utf8 "\\u", 0)

/-- Resolves escapes after skipping `skip` bytes. -/
def unescapeFrom : (skip : Nat) → (afterBackslash : Bool) → Text → Text
  | _, _, [] => []
  | skip + 1, _, _ :: rest => unescapeFrom skip Bool.false rest
  | 0, Bool.false, b :: rest =>
    if b = 92 then unescapeFrom 0 Bool.true rest else b :: unescapeFrom 0 Bool.false rest
  | 0, Bool.true, b :: rest =>
    if b = 117 then
      let (out, taken) := unicodeEscape rest
      out ++ unescapeFrom taken Bool.false rest
    else match plainEscape? b with
      | some c => c :: unescapeFrom 0 Bool.false rest
      | none => 92 :: b :: unescapeFrom 0 Bool.false rest

/-- The text that a string stands for. Unknown escapes stay as they are written. -/
def unescape (raw : Text) : Text := unescapeFrom 0 Bool.false raw

/-- The members of an object while fields are looked up in it. Keys are compared as they are written
until a lookup fails; from then on they are compared unescaped. -/
structure Members where
  entries : List (Text × Json)
  unescaped : Bool

namespace Members

def find (ms : Members) (name : Text) : Option Json :=
  (ms.entries.find? (·.1 == name)).map Prod.snd

def unescapeKeys (ms : Members) : Members :=
  if ms.unescaped then ms
  else ⟨ms.entries.map fun (key, value) => (unescape key, value), Bool.true⟩

/-- The member with a name, and the members as they are left for the next lookup. -/
def lookup (ms : Members) (name : Text) : Option Json × Members :=
  let quick := if ms.unescaped || name.contains 92 then none else ms.find name
  match quick with
  | some value => (some value, ms)
  | none => (ms.unescapeKeys.find name, ms.unescapeKeys)

end Members

end Json

end TypedStream
