import Assortment.Binary64.Basic
import Assortment.Binary64.Rounding
import Assortment.Catalogue.Basic
import Assortment.Catalogue.Load
import Assortment.Choices
import Assortment.Decimal.Layout
import Assortment.Decimal.Shortest
import Assortment.Document.Basic
import Assortment.Document.Codec
import Assortment.Document.Findings
import Assortment.Document.JsonSchema
import Assortment.Document.Shape
import Assortment.Issue
import Assortment.Json.Number
import Assortment.Json.Parser
import Assortment.Json.Printer
import Assortment.LoadError
import Assortment.LogSettings
import Assortment.Method
import Assortment.NameTable
import Assortment.Numeral
import Assortment.Odometer
import Assortment.OrderedMap
import Assortment.Power
import Assortment.Proofs.Binary64.Integers
import Assortment.Proofs.Binary64.Nearest
import Assortment.Proofs.Catalogue.Building
import Assortment.Proofs.Catalogue.DefaultWarnings
import Assortment.Proofs.Catalogue.ForwardReferences
import Assortment.Proofs.Catalogue.Loading
import Assortment.Proofs.Catalogue.Resolution
import Assortment.Proofs.Catalogue.RoundTrip
import Assortment.Proofs.Catalogue.SilentDefaults
import Assortment.Proofs.Choices
import Assortment.Proofs.Content
import Assortment.Proofs.Document.Defaults
import Assortment.Proofs.Document.Findings
import Assortment.Proofs.Document.ForwardReferences
import Assortment.Proofs.Document.Pointers
import Assortment.Proofs.Document.Shape
import Assortment.Proofs.Document.Subjects
import Assortment.Proofs.MixedRadix
import Assortment.Proofs.NameTable
import Assortment.Proofs.Numeral.Integer
import Assortment.Proofs.Numeral.Reading
import Assortment.Proofs.Numeral.Spelling
import Assortment.Proofs.Odometer
import Assortment.Proofs.Odometer.Counting
import Assortment.Proofs.OrderedMap
import Assortment.Proofs.Record
import Assortment.Proofs.Record.NormalForm
import Assortment.Proofs.Record.Representable
import Assortment.Proofs.Rule.AllowLists
import Assortment.Proofs.Rule.Bounds
import Assortment.Proofs.Rule.Implications
import Assortment.Proofs.Rule.IntegerBounds
import Assortment.Proofs.Rule.Integers
import Assortment.Proofs.Rule.RoundTrip
import Assortment.Proofs.Run.Batching
import Assortment.Proofs.Run.Conclusion
import Assortment.Proofs.Run.Consistency
import Assortment.Proofs.Run.Defaults
import Assortment.Proofs.Run.Dropping
import Assortment.Proofs.Run.Expected
import Assortment.Proofs.Run.ExplicitDefaults
import Assortment.Proofs.Run.FieldOrder
import Assortment.Proofs.Run.Limit
import Assortment.Proofs.Run.NormalForms
import Assortment.Proofs.Run.OtherGroups
import Assortment.Proofs.Run.Outcome
import Assortment.Proofs.Run.RowShape
import Assortment.Proofs.Run.Screening
import Assortment.Proofs.Run.Summaries
import Assortment.Proofs.Run.Variations
import Assortment.Proofs.Session.History
import Assortment.Proofs.Session.Isolation
import Assortment.Proofs.Session.Refinement
import Assortment.Proofs.Store
import Assortment.Proofs.Store.Coherence
import Assortment.Proofs.Store.Restriction
import Assortment.Proofs.Template.Dependence
import Assortment.Proofs.Template.Exchange
import Assortment.Proofs.Template.FoundNames
import Assortment.Proofs.Template.Names
import Assortment.Proofs.Template.Outputs
import Assortment.Proofs.Template.Ranking
import Assortment.Proofs.Template.Substitution
import Assortment.Proofs.Text
import Assortment.Proofs.Tuples
import Assortment.Record
import Assortment.Rule.Basic
import Assortment.Rule.List
import Assortment.Run.Codec
import Assortment.Run.Generate
import Assortment.Run.Options
import Assortment.Run.Report
import Assortment.Session.Basic
import Assortment.Session.Step
import Assortment.Store
import Assortment.Template.Expansion
import Assortment.Template.Placeholder
import Assortment.Text.Blank
import Assortment.Text.Cut
import Assortment.Text.DecimalDigit
import Assortment.Text.Parser
import Assortment.Toml.DateTime
import Assortment.Toml.Lexical
import Assortment.Toml.Parser
import Assortment.Toml.Scalar
import Assortment.Toml.Tree
import Assortment.Value.Basic
import Assortment.Value.Same
import Assortment.Value.Text
import Assortment.Word
