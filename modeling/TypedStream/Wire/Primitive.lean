import TypedStream.Text

namespace TypedStream.Wire

inductive ParseError where
  | truncated
  | overflow
  | fieldNumber
  | reservedType
  | endGroup
  deriving DecidableEq

def ParseError.message : ParseError → Text
  | truncated => utf8 "unexpected EOF"
  | overflow => utf8 "proto: variable length integer overflow"
  | fieldNumber => utf8 "proto: invalid field number"
  | reservedType => utf8 "proto: cannot parse reserved wire type"
  | endGroup => utf8 "proto: mismatching end group marker"

/-- The low groups of `n`, at most `groups` of them, the lowest first. -/
def varintGroups : (groups n : Nat) → Text
  | 0, _ => []
  | groups + 1, n =>
    if n < 128 then [n.toUInt8] else (n % 128 + 128).toUInt8 :: varintGroups groups (n / 128)

/-- Ten groups hold 64 bits. -/
def encodeVarint (n : UInt64) : Text := varintGroups 10 n.toNat

/-- Reads groups until one that ends the number. `left` more may follow, and the very last one has a
single bit. -/
def readGroups : (left : Nat) → Text → Except ParseError (Nat × Text)
  | _, [] => .error .truncated
  | 0, b :: rest => if b < 2 then .ok (b.toNat, rest) else .error .overflow
  | left + 1, b :: rest =>
    if b < 128 then .ok (b.toNat, rest)
    else match readGroups left rest with
      | .ok (n, rest) => .ok (b.toNat - 128 + 128 * n, rest)
      | .error e => .error e

def readVarint (data : Text) : Except ParseError (Nat × Text) := readGroups 9 data

/-- Signed numbers are folded so that small ones stay small: 0, -1, 1, -2, … -/
def zigzag (i : Int64) : UInt64 :=
  if 0 ≤ i.toInt then (2 * i.toInt.toNat).toUInt64 else (2 * i.toInt.natAbs - 1).toUInt64

def unzigzag (n : Nat) : Int :=
  if n % 2 = 0 then (n / 2 : Nat) else -((n / 2 + 1 : Nat) : Int)

/-- The lowest `count` bytes of a number, the lowest first. -/
def littleEndian : (count n : Nat) → Text
  | 0, _ => []
  | count + 1, n => (n % 256).toUInt8 :: littleEndian count (n / 256)

/-- Reads `count` bytes as a number, the lowest first. -/
def readFixed : (count : Nat) → Text → Except ParseError (Nat × Text)
  | 0, data => .ok (0, data)
  | _ + 1, [] => .error .truncated
  | count + 1, b :: rest =>
    match readFixed count rest with
    | .ok (n, rest) => .ok (b.toNat + 256 * n, rest)
    | .error e => .error e

def readBytes (data : Text) : Except ParseError (Text × Text) := do
  let (n, rest) ← readVarint data
  if rest.length < n then throw .truncated
  return (rest.take n, rest.drop n)

inductive Form where
  | varint
  | fixed64
  | bytes
  | startGroup
  | endGroup
  | fixed32
  | reserved (code : Nat)
  deriving DecidableEq

namespace Form

def code : Form → Nat
  | varint => 0
  | fixed64 => 1
  | bytes => 2
  | startGroup => 3
  | endGroup => 4
  | fixed32 => 5
  | reserved c => c

def ofCode : Nat → Form
  | 0 => varint
  | 1 => fixed64
  | 2 => bytes
  | 3 => startGroup
  | 4 => endGroup
  | 5 => fixed32
  | c => reserved c

end Form

def encodeTag (number : Nat) (form : Form) : Text := encodeVarint (8 * number + form.code).toUInt64

/-- Reads a field's number, which is positive and has 31 bits, and its form. -/
def readTag (data : Text) : Except ParseError (Nat × Form × Text) := do
  let (n, rest) ← readVarint data
  let number := n / 8
  if number = 0 ∨ 2147483647 < number then throw .fieldNumber
  return (number, Form.ofCode (n % 8), rest)

def skipPlain (form : Form) (data : Text) : Except ParseError Text :=
  match form with
  | .varint => (readVarint data).map Prod.snd
  | .fixed64 => (readFixed 8 data).map Prod.snd
  | .bytes => (readBytes data).map Prod.snd
  | .fixed32 => (readFixed 4 data).map Prod.snd
  | .startGroup | .endGroup => .error .endGroup
  | .reserved _ => .error .reservedType

/-- Skips to the end of the groups with the given numbers, the innermost first. -/
def skipGroups : (fuel : Nat) → (stack : List Nat) → Text → Except ParseError Text
  | _, [], data => .ok data
  | 0, _ :: _, _ => .error .truncated
  | fuel + 1, inner :: outer, data => do
    let (number, form, rest) ← readTag data
    match form with
    | .endGroup =>
      if number = inner then skipGroups fuel outer rest else throw .endGroup
    | .startGroup => skipGroups fuel (number :: inner :: outer) rest
    | form => do
      let rest ← skipPlain form rest
      skipGroups fuel (inner :: outer) rest

/-- Skips the value of a field. Each field inside a group has a tag, so the length of the input
bounds their number. -/
def skipValue (number : Nat) (form : Form) (data : Text) : Except ParseError Text :=
  match form with
  | .startGroup => skipGroups (data.length + 1) [number] data
  | form => skipPlain form data

end TypedStream.Wire
