import TypedStream.DataType.Construction
import TypedStream.Plan.Dump

namespace TypedStream

/-- An expression with its three labels, for good. -/
structure Labeled where
  expression : Plan
  display : Text
  serialization : Text
  projected : Text

/-- A field whose labels may still be set, unless it is frozen. -/
structure FieldDraft where
  expression : Plan
  display : Text := []
  serialization : Text := []
  projected : Text := []
  frozen : Option Labeled := none

/-- Fields in the order in which they were added. -/
structure Draft where
  fields : List FieldDraft := []
  finalized : Bool := false

structure Projection where
  fields : List Labeled
  /-- The type of the output records, with fields named by serialization labels. -/
  recordType : DataType

inductive LabelKind where
  | display
  | serialization
  | projected
  deriving DecidableEq

namespace FieldDraft

def setLabel (b : FieldDraft) (kind : LabelKind) (label : Text) : Except Failure FieldDraft :=
  if b.frozen.isSome then .error .finalized
  else match kind with
    | .display => .ok { b with display := label }
    | .serialization => .ok { b with serialization := label }
    | .projected => .ok { b with projected := label }

def check (b : FieldDraft) : Except Failure Unit := do
  b.expression.resolved
  if b.serialization.isEmpty then throw (.type .unlabeled)

/-- The labels as they would be frozen: the display label falls back on the serialization label,
the projected label on the display label. -/
def labeled (b : FieldDraft) : Labeled :=
  let display := if b.display.isEmpty then b.serialization else b.display
  let projected := if b.projected.isEmpty then display else b.projected
  ⟨b.expression, display, b.serialization, projected⟩

/-- Freezes the labels; a frozen field gives the same again. -/
def finalize (b : FieldDraft) : Except Failure (FieldDraft × Labeled) :=
  match b.frozen with
  | some l => .ok (b, l)
  | none => do
    b.check
    return ({ b with frozen := some b.labeled }, b.labeled)

end FieldDraft

namespace Draft

def add (d : Draft) (p : Plan) : Except Failure Draft :=
  if d.finalized then .error .finalized
  else .ok { d with fields := d.fields ++ [{ expression := p }] }

/-- Checks fields from an index on, after fields with the serialization labels `seen`. -/
def checkFrom (index : Nat) (seen : List Text) : List FieldDraft → Except Failure Unit
  | [] => .ok ()
  | b :: bs => do
    inside (.field index) b.check
    if seen.contains b.serialization then throw (.type (.duplicateLabel b.serialization))
    checkFrom (index + 1) (b.serialization :: seen) bs

/-- Freezes fields from an index on, one by one. One that cannot be frozen leaves those before it
frozen. -/
def freezeFrom (index : Nat) : List FieldDraft → List FieldDraft × Except Failure (List Labeled)
  | [] => ([], .ok [])
  | b :: bs =>
    match b.finalize with
    | .error f => (b :: bs, .error (f.within (.frozenField index)))
    | .ok (c, l) =>
      match freezeFrom (index + 1) bs with
      | (cs, .ok ls) => (c :: cs, .ok (l :: ls))
      | (cs, .error f) => (c :: cs, .error f)

/-- Checks all fields, then freezes them: what becomes of the draft, and the projection. -/
def attempt (d : Draft) : Draft × Except Failure Projection :=
  if d.finalized then (d, .error .finalized)
  else if d.fields.isEmpty then (d, .error (.type .emptyProjection))
  else match checkFrom 0 [] d.fields with
    | .error f => (d, .error f)
    | .ok () =>
      match freezeFrom 0 d.fields with
      | (fields, .error f) => ({ d with fields := fields }, .error f)
      | (fields, .ok labels) =>
        match DataType.ofFields (labels.map fun l => (l.serialization, l.expression.type)) with
        | .error e => ({ d with fields := fields }, .error ((Failure.type e).within .outputType))
        | .ok t => (⟨fields, true⟩, .ok ⟨labels, t⟩)

/-- Freezes all fields, or none if one of them is not ready or two share a serialization label. -/
def finalize (d : Draft) : Except Failure (Draft × Projection) :=
  match d.attempt with
  | (next, .ok p) => .ok (next, p)
  | (_, .error f) => .error f

end Draft

namespace Labeled

def type (l : Labeled) : Option DataType := l.expression.type

def dump? (l : Labeled) : Option Text :=
  (l.expression.dump?).map fun below =>
    let line (name : String) (label : Text) := Plan.margin ++ utf8 name ++ label ++ utf8 "\n"
    utf8 "LabeledExpression\n" ++ line "displayLabel=" l.display ++
      line "serializationLabel=" l.serialization ++ line "projectedLabel=" l.projected ++
      Text.indent Plan.margin below

/-- Labels that repeat another one are left out. -/
def explain? (l : Labeled) : Option Diagram :=
  (l.expression.explain? true).map fun child =>
    .node l.serialization
      ((if l.display == l.serialization then [] else [(utf8 "display", l.display)]) ++
        if l.projected == l.display then [] else [(utf8 "projected", l.projected)])
      [(utf8 "expression", child)]

end Labeled

namespace Projection

def evaluateAll (record : List Value) : List Labeled → Except Failure (List Value)
  | [] => .ok []
  | l :: ls => do
    let v ← inside (.evaluatedField l.serialization) (l.expression.evaluate record)
    let vs ← evaluateAll record ls
    return v :: vs

/-- The output record for an input record. -/
def evaluate (p : Projection) (record : List Value) : Except Failure (List Value) :=
  evaluateAll record p.fields

def dumpAll? : List Labeled → Option Text
  | [] => some []
  | l :: ls => do
    let first ← l.dump?
    let others ← dumpAll? ls
    return Text.indent Plan.margin first ++ others

def dump? (p : Projection) : Option Text :=
  (dumpAll? p.fields).map fun below =>
    utf8 "Projection\n" ++ Plan.margin ++ utf8 "type=" ++ p.recordType.text ++ utf8 "\n" ++ below

def explainAll? : List Labeled → Option (List (Text × Diagram))
  | [] => some []
  | l :: ls => do
    let first ← l.explain?
    let others ← explainAll? ls
    return (l.serialization, first) :: others

def explain? (p : Projection) : Option Diagram :=
  (explainAll? p.fields).map fun children =>
    .node (utf8 "projection") [(utf8 "type", p.recordType.text)] children

end Projection

end TypedStream
