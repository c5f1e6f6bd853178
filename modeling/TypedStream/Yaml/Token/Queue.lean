import TypedStream.Yaml.Comment
import TypedStream.Yaml.Token

namespace TypedStream.Yaml

/-- A token that turns out to start a key if a colon follows on its line. -/
structure Candidate where
  /-- Whether only a key may stand there. -/
  required : Bool
  /-- The number of the token. -/
  number : Nat
  mark : Mark

/-- Whether a candidate may still be a key at a place. -/
def Candidate.isAlive (c : Candidate) (m : Mark) : Bool :=
  m.line ≤ c.mark.line && m.index ≤ c.mark.index + 1024

structure Queue where
  rest : List Character
  /-- The place at the end of the text. -/
  finish : Mark
  indent : Int := -1
  /-- The indentation of the blocks around the current one. -/
  outer : List Int := []
  /-- The candidates for keys, one for each level of brackets, the innermost first. -/
  candidates : List (Option Candidate) := [none]
  keyAllowed : Bool := true
  /-- How many tokens have been taken. -/
  taken : Nat := 0
  tokens : List (Token × Mark) := []
  /-- The last tokens that were added, the last one first. -/
  recent : List Token := []
  comments : List Comment := []

namespace Queue

def ofRunes (runes : List Rune) : Queue :=
  let (characters, finish) := placed {} runes
  { rest := characters, finish := finish }

/-- The deepest nesting of blocks, and of brackets. -/
def depthLimit : Nat := 10000

def depth (q : Queue) : Nat := q.candidates.length - 1

def inFlow (q : Queue) : Bool := q.depth != 0

def mark (q : Queue) : Mark :=
  match q.rest with
  | [] => q.finish
  | c :: _ => c.mark

def remember (q : Queue) (t : Token) : Queue := { q with recent := t :: q.recent.take 1 }

def add (q : Queue) (t : Token) (m : Mark) : Queue :=
  { q with tokens := q.tokens ++ [(t, m)] }.remember t

/-- Puts a token before the one with a number. -/
def insert (q : Queue) (number : Nat) (t : Token) (m : Mark) : Queue :=
  let position := number - q.taken
  { q with tokens := q.tokens.take position ++ (t, m) :: q.tokens.drop position }

/-- Adds a token that ends before `rest`. -/
def accept (q : Queue) (t : Token) (rest : List Character) : Queue :=
  { q.add t q.mark with rest := rest }

/-- Ends the blocks that are indented deeper than `column`. -/
def dedent (q : Queue) (column : Int) : Queue :=
  if q.inFlow then q
  else
    let ends := (q.indent :: q.outer).takeWhile (column < ·)
    let left := (q.indent :: q.outer).dropWhile (column < ·)
    let q := ends.foldl (fun q _ => q.add .blockEnd q.mark) q
    { q with indent := left.headD (-1), outer := left.drop 1 }

/-- Starts a block at a column unless it is there: at the end, or before a token. -/
def startBlock (q : Queue) (m : Mark) (t : Token) (number : Option Nat) : Option Queue :=
  if q.inFlow || (m.column : Int) ≤ q.indent then some q
  else if depthLimit ≤ q.outer.length then none
  else
    let q := { q with indent := m.column, outer := q.indent :: q.outer }
    some (match number with
      | some n => q.insert n t m
      | none => q.add t m)

def setCandidate (q : Queue) (c : Option Candidate) : Queue :=
  { q with candidates := c :: q.candidates.drop 1 }

def candidate (q : Queue) : Option Candidate := q.candidates.head?.join

/-- Gives up the candidate of the current level. -/
def dropCandidate (q : Queue) : Option Queue :=
  match q.candidate with
  | some c => if c.required then none else some (q.setCandidate none)
  | none => some q

/-- What comes next may be a key, if one is allowed. -/
def saveCandidate (q : Queue) : Option Queue := do
  if !q.keyAllowed then return q
  let required := !q.inFlow && q.indent == q.mark.column
  let c : Candidate := ⟨required, q.taken + q.tokens.length, q.mark⟩
  return (← q.dropCandidate).setCandidate c

def allowKey (q : Queue) (allowed : Bool) : Queue := { q with keyAllowed := allowed }

/-- The line on which a comment would be below the token before it. -/
def footLine (q : Queue) (start : Mark) : Option Nat :=
  let before := match q.recent with
    | .comma :: t :: _ => some t
    | t :: _ => some t
    | [] => none
  match before with
  | some .value => none
  | _ =>
    let m := q.mark
    if start.column = 0 then none
    else some (m.line + 1 - m.breaks + if m.breaks = 0 && 1 < m.column then 1 else 0)

def takeComments (q : Queue) (start : Mark) : Queue :=
  let s : Surroundings := ⟨q.indent.toNat, q.inFlow, q.footLine start⟩
  let (comment, rest) := readComments s q.mark q.rest
  { q with rest := rest, comments := q.comments ++ comment.toList }

/-- A comment beside the first dash of a list stands above what comes on the lines after it. -/
def liftComment (q : Queue) : Queue :=
  match q.recent, q.comments.getLast? with
  | [.dash, .listStart], some comment =>
    if comment.above || endsLine q.rest then q
    else
      let index := if comment.line + 1 = q.mark.line then q.mark.index else comment.index
      { q with comments := q.comments.dropLast ++ [⟨index, comment.line, true, false⟩] }
  | _, _ => q

/-- Goes on to the next token, past blanks, comments and line ends. A line may not start with tabs
where a key may stand. -/
def skipBlanks (start : Mark) : (fuel : Nat) → Queue → Queue
  | 0, q => q
  | fuel + 1, q =>
    let isBlank (c : Character) := c.rune == 32 || ((q.inFlow || !q.keyAllowed) && c.rune == 9)
    let q := { q with rest := q.rest.dropWhile isBlank }.liftComment
    let q := if isAt 35 q.rest then q.takeComments start else q
    match q.rest with
    | c :: rest =>
      if c.isBreak then
        skipBlanks start fuel { q with rest := rest, keyAllowed := q.keyAllowed || !q.inFlow }
      else q
    | [] => q

/-- Reads a comment on the line of the token at `m`. -/
def takeLineComment (m : Mark) (q : Queue) : Queue :=
  let rest := q.rest.dropWhile Character.isBlank
  match rest with
  | c :: _ =>
    if q.mark.breaks = 0 && c.rune == 35 then
      { q with
        rest := rest.dropWhile (!·.isBreak)
        comments := q.comments ++ [⟨m.index, c.mark.line, false, false⟩] }
    else q
  | [] => q

/-- Adds the end of the text, which is on a line of its own. -/
def addEnd (q : Queue) : Option Queue := do
  let f := q.finish
  let finish := if f.column = 0 then f else { f with line := f.line + 1, column := 0 }
  let q ← ({ q with finish := finish }.dedent (-1)).dropCandidate
  return (q.allowKey false).add .textEnd finish

def addDirective (q : Queue) (rest : List Character) : Option Queue := do
  let q ← (q.dedent (-1)).dropCandidate
  let (t, rest) ← Token.readDirective rest
  return (q.allowKey false).accept t rest

def addDivider (q : Queue) (t : Token) : Option Queue := do
  let q ← (q.dedent (-1)).dropCandidate
  return (q.allowKey false).accept t (q.rest.drop 3)

def addOpen (q : Queue) (t : Token) (rest : List Character) : Option Queue := do
  let q ← q.saveCandidate
  if depthLimit ≤ q.depth then none
  return { (q.allowKey true).accept t rest with candidates := none :: q.candidates }

def addClose (q : Queue) (t : Token) (rest : List Character) : Option Queue := do
  let q ← q.dropCandidate
  let candidates := if q.inFlow then q.candidates.drop 1 else q.candidates
  return { (q.allowKey false).accept t rest with candidates := candidates }

def addComma (q : Queue) (rest : List Character) : Option Queue := do
  return ((← q.dropCandidate).allowKey true).accept .comma rest

def addDash (q : Queue) (rest : List Character) : Option Queue := do
  if !q.inFlow && !q.keyAllowed then none
  let q ← q.startBlock q.mark .listStart none
  return ((← q.dropCandidate).allowKey true).accept .dash rest

def addKey (q : Queue) (rest : List Character) : Option Queue := do
  if !q.inFlow && !q.keyAllowed then none
  let q ← q.startBlock q.mark .mapStart none
  return ((← q.dropCandidate).allowKey !q.inFlow).accept .key rest

/-- A colon makes a key of the candidate, if there is one. -/
def addValue (q : Queue) (rest : List Character) : Option Queue := do
  match q.candidate.filter (·.isAlive q.mark) with
  | some c =>
    let q ← (q.insert c.number .key c.mark).startBlock c.mark .mapStart (some c.number)
    return ((q.setCandidate none).allowKey false).accept .value rest
  | none =>
    let q ← q.dropCandidate
    if !q.inFlow && !q.keyAllowed then none
    let q ← q.startBlock q.mark .mapStart none
    return (q.allowKey !q.inFlow).accept .value rest

def addScalar (q : Queue) (plain : Bool) (runes : List Rune) (rest : List Character) : Queue :=
  (q.allowKey false).accept (.scalar plain (Text.ofRunes runes)) rest

def addPlain (q : Queue) : Option Queue := do
  let q ← q.saveCandidate
  let (runes, broken, rest) ← readPlain q.inFlow (q.indent + 1) .none q.rest
  return (q.addScalar true runes rest).allowKey broken

def addBlock (q : Queue) (literal : Bool) (rest : List Character) : Option Queue := do
  let q ← q.dropCandidate
  let (runes, rest) ← readBlock literal q.indent rest
  return (q.addScalar false runes rest).allowKey true

/-- Adds the token that starts with `c`. -/
def addToken (q : Queue) (c : Character) (rest : List Character) : Option Queue :=
  let key := q.inFlow || endsWord rest
  match c.rune with
  | 91 => q.addOpen .listOpen rest
  | 123 => q.addOpen .mapOpen rest
  | 93 => q.addClose .listClose rest
  | 125 => q.addClose .mapClose rest
  | 44 => q.addComma rest
  | 42 => do
    let (name, rest) ← Token.readAnchor rest
    return ((← q.saveCandidate).allowKey false).accept (.reference name) rest
  | 38 => do
    let (name, rest) ← Token.readAnchor rest
    return ((← q.saveCandidate).allowKey false).accept (.anchor name) rest
  | 33 => do
    let (t, rest) ← Token.readTag (c :: rest)
    return ((← q.saveCandidate).allowKey false).accept t rest
  | 39 => do
    let (runes, rest) ← readSingle 0 .none rest
    return (← q.saveCandidate).addScalar false runes rest
  | 34 => do
    let (runes, rest) ← readDouble 0 .none rest
    return (← q.saveCandidate).addScalar false runes rest
  | r =>
    if r = 45 && endsWord rest then q.addDash rest
    else if r = 63 && key then q.addKey rest
    else if r = 58 && key then q.addValue rest
    else if r = 124 && !q.inFlow then q.addBlock true rest
    else if r = 62 && !q.inFlow then q.addBlock false rest
    else if startsPlain q.inFlow c rest then q.addPlain
    else none

/-- The token that a comment after the next token belongs to: a separator has none of its own. -/
def commentMark (q : Queue) (c : Character) : Mark :=
  if c.rune = (if q.inFlow then 44 else 58) then (q.tokens.getLast?.map Prod.snd).getD c.mark
  else c.mark

/-- Reads one more token, together with those that it implies. -/
def extend (q : Queue) : Option Queue :=
  let q := skipBlanks q.mark (q.rest.length + 1) q
  let q := q.dedent q.mark.column
  match q.rest with
  | [] => q.addEnd
  | c :: rest =>
    if c.mark.column = 0 && c.rune = 37 then q.addDirective rest
    else if isDivider 45 q.rest then q.addDivider .documentStart
    else if isDivider 46 q.rest then q.addDivider .documentEnd
    else (q.addToken c rest).map (takeLineComment (q.commentMark c))

/-- The candidate that is the first token. -/
def firstCandidate (q : Queue) : Option Candidate :=
  (q.candidates.filterMap id).find? fun c => c.number == q.taken

/-- Forgets the candidate that is the first token. -/
def forgetFirst (q : Queue) : Queue :=
  { q with candidates := q.candidates.map fun c => c.filter fun c => c.number != q.taken }

/-- Reads on until there are three tokens, of which the first one is not a key any more. -/
def readyFrom : (fuel : Nat) → Queue → Option Queue
  | 0, _ => none
  | fuel + 1, q =>
    if q.tokens.length ≤ 2 then (q.extend).bind (readyFrom fuel)
    else match q.firstCandidate with
      | none => some q
      | some c =>
        if c.isAlive q.mark then (q.extend).bind (readyFrom fuel)
        else if c.required then none
        else some q.forgetFirst

def ready (q : Queue) : Option Queue := readyFrom (q.rest.length + 8) q

def take (q : Queue) : Queue := { q with tokens := q.tokens.drop 1, taken := q.taken + 1 }

end Queue

end TypedStream.Yaml
