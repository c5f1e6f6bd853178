import TypedStream.Binary.Decimal
import TypedStream.Binary.Format
import TypedStream.Binary.Number
import TypedStream.Binary.Shortest
import TypedStream.Columns
import TypedStream.Command.Error
import TypedStream.Command.Request
import TypedStream.Command.Run
import TypedStream.Config
import TypedStream.DataType.Basic
import TypedStream.DataType.Interner
import TypedStream.DataType.Construction
import TypedStream.DataType.Promotion
import TypedStream.Diagram
import TypedStream.Disk
import TypedStream.Event.Decode
import TypedStream.Event.Json
import TypedStream.Event.Number
import TypedStream.Expr
import TypedStream.Failure
import TypedStream.Function.Arithmetic
import TypedStream.Function.Registry
import TypedStream.Function.Builtin
import TypedStream.Function.Pattern
import TypedStream.Journal
import TypedStream.Main
import TypedStream.Plan.Basic
import TypedStream.Plan.Dump
import TypedStream.Plan.Kind
import TypedStream.Projection
import TypedStream.Proofs.Builtin
import TypedStream.Proofs.Draft
import TypedStream.Proofs.Draft.Run
import TypedStream.Proofs.Evaluation
import TypedStream.Proofs.Outcome
import TypedStream.Proofs.Overload
import TypedStream.Proofs.Pointwise
import TypedStream.Proofs.Projection
import TypedStream.Proofs.Promotion
import TypedStream.Proofs.Safety
import TypedStream.Proofs.Typing
import TypedStream.Proofs.Wire.Primitive
import TypedStream.Proofs.Wire.Record
import TypedStream.Selection
import TypedStream.Setting
import TypedStream.Table
import TypedStream.Text
import TypedStream.Text.Rune
import TypedStream.Text.Case
import TypedStream.Text.Cluster
import TypedStream.Text.Shown
import TypedStream.Text.Width
import TypedStream.Time.Basic
import TypedStream.Time.Read
import TypedStream.Value.Basic
import TypedStream.Value.Promote
import TypedStream.Wire.Primitive
import TypedStream.Wire.Record
import TypedStream.Wire.Schema
import TypedStream.Yaml.Character
import TypedStream.Yaml.Comment
import TypedStream.Yaml.Content
import TypedStream.Yaml.Node
import TypedStream.Yaml.Resolve
import TypedStream.Yaml.Scalar
import TypedStream.Yaml.Token
import TypedStream.Yaml.Token.Queue
import TypedStream.Proofs.Interner
import TypedStream.Proofs.Conversion
import TypedStream.Proofs.Builtin.Plain
import TypedStream.Proofs.CommonType
import TypedStream.Proofs.Connective
import TypedStream.Proofs.Nullability
import TypedStream.Proofs.Operator
import TypedStream.Proofs.Wire.Evolution
import TypedStream.Proofs.Wire.Merge
import TypedStream.Proofs.Registry
import TypedStream.Proofs.Registry.Interleaving
import TypedStream.Proofs.Elaboration
import TypedStream.Proofs.StrictNulls
import TypedStream.Proofs.FieldOrder
import TypedStream.Proofs.DeMorgan
import TypedStream.Proofs.Draft.Frozen
import TypedStream.Proofs.Wire.Normal
import TypedStream.Proofs.Arithmetic
import TypedStream.Proofs.Comparison
import TypedStream.Proofs.Promotion.Order
import TypedStream.Proofs.CommonType.Least
import TypedStream.Proofs.Conversion.Coherence
import TypedStream.Proofs.Rune
import TypedStream.Proofs.Pattern
import TypedStream.Proofs.Registry.Choice
import TypedStream.Proofs.BoundCall
import TypedStream.Proofs.TypeText
import TypedStream.Proofs.ThreeValued
import TypedStream.Proofs.Erasure
import TypedStream.Proofs.Event
import TypedStream.Proofs.Event.Conforming
import TypedStream.Proofs.Event.Members
import TypedStream.Proofs.Event.Number
import TypedStream.Proofs.ValueOrder
import TypedStream.Proofs.Wire.Acceptance
import TypedStream.Proofs.Trim
import TypedStream.Proofs.TypeName
import TypedStream.Proofs.Setting
import TypedStream.Proofs.Drawing
import TypedStream.Proofs.Explanation
import TypedStream.Proofs.Selection
import TypedStream.Proofs.Listing
