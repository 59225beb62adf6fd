import DataShapes.Assembly
import DataShapes.Catalog.Basic
import DataShapes.Catalog.Define
import DataShapes.Catalog.History
import DataShapes.Conformance
import DataShapes.Descriptor.Describe
import DataShapes.Descriptor.Shorthand
import DataShapes.Document.Build
import DataShapes.Document.Load
import DataShapes.Document.MetaSchema
import DataShapes.Document.Save
import DataShapes.Export.CommandLine
import DataShapes.Export.Modules
import DataShapes.Export.Run
import DataShapes.Export.Targets
import DataShapes.Files
import DataShapes.FormatVersion
import DataShapes.Inheritance
import DataShapes.Json.Quote
import DataShapes.Json.Read
import DataShapes.Json.Write
import DataShapes.Log.Format
import DataShapes.Log.Split
import DataShapes.Main
import DataShapes.Notice
import DataShapes.Number.Double
import DataShapes.Number.Notation
import DataShapes.Number.Shortest
import DataShapes.Number.Sixties
import DataShapes.ObjectRules
import DataShapes.Options
import DataShapes.Output
import DataShapes.Pattern.Escape
import DataShapes.Pattern.Syntax
import DataShapes.Pattern.Token
import DataShapes.Problem
import DataShapes.Proofs.Agreement.Checks
import DataShapes.Proofs.Agreement.Conformance
import DataShapes.Proofs.Agreement.Congruence
import DataShapes.Proofs.Agreement.Descriptors
import DataShapes.Proofs.Agreement.Inhabits
import DataShapes.Proofs.Agreement.Normal
import DataShapes.Proofs.Agreement.Probes
import DataShapes.Proofs.Agreement.Schemas
import DataShapes.Proofs.Agreement.Shapes
import DataShapes.Proofs.Agreement.Signatures
import DataShapes.Proofs.Assembly.Merging
import DataShapes.Proofs.Assembly.Objects
import DataShapes.Proofs.Assembly.Order
import DataShapes.Proofs.Assembly.Parts
import DataShapes.Proofs.Assembly.Recognition
import DataShapes.Proofs.Assembly.Rules
import DataShapes.Proofs.Catalog.Acceptance
import DataShapes.Proofs.Catalog.Assembled
import DataShapes.Proofs.Catalog.Canonical
import DataShapes.Proofs.Catalog.Coercion
import DataShapes.Proofs.Catalog.Covered
import DataShapes.Proofs.Catalog.Defaults
import DataShapes.Proofs.Catalog.Endings
import DataShapes.Proofs.Catalog.Frame
import DataShapes.Proofs.Catalog.Generation
import DataShapes.Proofs.Catalog.Independence
import DataShapes.Proofs.Catalog.Lineage
import DataShapes.Proofs.Catalog.MandatoryKeys
import DataShapes.Proofs.Catalog.Meaning
import DataShapes.Proofs.Catalog.Nodes
import DataShapes.Proofs.Catalog.Reached
import DataShapes.Proofs.Catalog.Reuse
import DataShapes.Proofs.Catalog.SiblingOrder
import DataShapes.Proofs.Catalog.Stages
import DataShapes.Proofs.Catalog.Views
import DataShapes.Proofs.Code.CodeUnits
import DataShapes.Proofs.Code.Expression
import DataShapes.Proofs.Code.Literal
import DataShapes.Proofs.Code.LongText
import DataShapes.Proofs.Code.Numeral
import DataShapes.Proofs.Code.Reading
import DataShapes.Proofs.Code.Text
import DataShapes.Proofs.Descriptor.Parts
import DataShapes.Proofs.Descriptor.Shorthand
import DataShapes.Proofs.Document.Formats
import DataShapes.Proofs.Document.References
import DataShapes.Proofs.Document.Titles
import DataShapes.Proofs.Document.Versions
import DataShapes.Proofs.Document.Walk
import DataShapes.Proofs.Equivalence
import DataShapes.Proofs.Export.Failure
import DataShapes.Proofs.Files.Opening
import DataShapes.Proofs.Files.Paths
import DataShapes.Proofs.Json.NormalForm
import DataShapes.Proofs.Json.Reading
import DataShapes.Proofs.Log.Routing
import DataShapes.Proofs.Number.Rounding
import DataShapes.Proofs.Number.Shortest
import DataShapes.Proofs.Outcome
import DataShapes.Proofs.Registry.Commands
import DataShapes.Proofs.Registry.Covering
import DataShapes.Proofs.Registry.Runs
import DataShapes.Proofs.Registry.Writes
import DataShapes.Proofs.Schema.Alternatives
import DataShapes.Proofs.Schema.Equality
import DataShapes.Proofs.Schema.Firsts
import DataShapes.Proofs.Schema.Nodes
import DataShapes.Proofs.Schema.NormalForm
import DataShapes.Proofs.Schema.Populated
import DataShapes.Proofs.Schema.ReadBack
import DataShapes.Proofs.Schema.Written
import DataShapes.Proofs.Stub.Blocks
import DataShapes.Proofs.Stub.Defaults
import DataShapes.Proofs.Stub.Docstrings
import DataShapes.Proofs.Stub.Keys
import DataShapes.Proofs.Table
import DataShapes.Proofs.TypeExpr.Alike
import DataShapes.Proofs.TypeExpr.Canonical
import DataShapes.Proofs.TypeExpr.Consults
import DataShapes.Proofs.TypeExpr.Hints
import DataShapes.Proofs.TypeExpr.Parts
import DataShapes.Proofs.TypeExpr.Reading
import DataShapes.Proofs.TypeExpr.Total
import DataShapes.Proofs.Value.Equality
import DataShapes.Proofs.Value.Numbers
import DataShapes.Proofs.Value.Plain
import DataShapes.Proofs.Value.Records
import DataShapes.Proofs.Yaml.Keys
import DataShapes.Proofs.Yaml.Pages
import DataShapes.Property
import DataShapes.PropertyRules
import DataShapes.Registry
import DataShapes.Samples
import DataShapes.Schema.Basic
import DataShapes.Schema.Equality
import DataShapes.Schema.Keywords
import DataShapes.Schema.Levels
import DataShapes.Schema.Literal
import DataShapes.Schema.Normal
import DataShapes.Shape
import DataShapes.Stub.Basic
import DataShapes.Stub.Render
import DataShapes.Stub.Save
import DataShapes.Table
import DataShapes.Text.Blank
import DataShapes.Text.CodeRange
import DataShapes.Text.DecimalDigit
import DataShapes.Text.Hex
import DataShapes.Text.Identifier
import DataShapes.Text.Lines
import DataShapes.Text.Printable
import DataShapes.Text.Quoted
import DataShapes.Text.Sorted
import DataShapes.TypeExpr.Basic
import DataShapes.TypeExpr.OfSchema
import DataShapes.Value.Basic
import DataShapes.Value.Equality
import DataShapes.Value.Literal
import DataShapes.Yaml.Moment
import DataShapes.Yaml.Node
import DataShapes.Yaml.Node.OfTokens
import DataShapes.Yaml.Node.ToValue
import DataShapes.Yaml.Page
import DataShapes.Yaml.Read
import DataShapes.Yaml.Resolve
import DataShapes.Yaml.Scalar
import DataShapes.Yaml.Token
import DataShapes.Yaml.Token.OfText
import DataShapes.Yaml.Token.Scalar
import DataShapes.Yaml.Token.Tag
import DataShapes.Yaml.Write
