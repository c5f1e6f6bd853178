import TypedStream.Config
import TypedStream.Expr
import TypedStream.Function.Builtin
import TypedStream.Projection

namespace TypedStream

/-- A field of a stream, with the label that it gets in the output. -/
structure Selection where
  name : Text
  label : Text

namespace Selection

/-- A selection is written as the field, or as the field and its label with a colon between. -/
def parse (text : Text) : Selection :=
  match Text.splitFirst 58 text with
  | some (name, label) => ⟨name, label⟩
  | none => ⟨text, text⟩

end Selection

namespace Draft

/-- Adds a field of the input record. The name stays what is displayed. -/
def select (d : Draft) (env : Environment) (s : Selection) : Except Failure Draft := do
  let p ← (Expr.variable s.name).check env
  if d.finalized then throw .finalized
  let b ← FieldDraft.setLabel { expression := p } .serialization s.label
  let b ← b.setLabel .display s.name
  return { d with fields := d.fields ++ [b] }

def selectAll (env : Environment) : Draft → List Selection → Except Failure Draft
  | d, [] => .ok d
  | d, s :: ss => do
    let d ← d.select env s
    selectAll env d ss

end Draft

namespace Projection

/-- The projection of a record type to a selection of its fields. If none is selected, the name of
each field is read as a selection. -/
def ofSelections (record : DataType) (strictNulls : Bool) (selections : List Selection) :
    Except Failure Projection := do
  let chosen := if selections.isEmpty then record.fields.map fun (name, _) => Selection.parse name
    else selections
  let env : Environment :=
    { record := some record, functions := some Registry.builtin, strictNulls := strictNulls }
  let d ← Draft.selectAll env {} chosen
  let (_, p) ← d.finalize
  return p

end Projection

end TypedStream
