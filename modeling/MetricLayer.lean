import MetricLayer.Catalog.Basic
import MetricLayer.Catalog.Bundled
import MetricLayer.Catalog.Check
import MetricLayer.Catalog.Directory
import MetricLayer.Catalog.Draft
import MetricLayer.Catalog.Feed
import MetricLayer.Catalog.History
import MetricLayer.Catalog.Loose
import MetricLayer.Catalog.Registry
import MetricLayer.Chart.Build
import MetricLayer.Chart.Category
import MetricLayer.Chart.Classification
import MetricLayer.Chart.Format
import MetricLayer.Chart.Pivot
import MetricLayer.Engine.Connection
import MetricLayer.Engine.Failure
import MetricLayer.Engine.Sanitize
import MetricLayer.Generation.Plan
import MetricLayer.Generation.Prompt
import MetricLayer.Generation.Provider
import MetricLayer.Generation.Reply
import MetricLayer.Loose
import MetricLayer.Number.Binary64
import MetricLayer.Number.Decimal
import MetricLayer.Number.Places
import MetricLayer.Number.Power
import MetricLayer.Number.Round
import MetricLayer.Number.Shortest
import MetricLayer.Proofs.Catalog.Alias
import MetricLayer.Proofs.Catalog.Draft
import MetricLayer.Proofs.Catalog.Feed
import MetricLayer.Proofs.Catalog.History
import MetricLayer.Proofs.Catalog.Lookup
import MetricLayer.Proofs.Catalog.Source
import MetricLayer.Proofs.Chart.Advice
import MetricLayer.Proofs.Chart.Axis
import MetricLayer.Proofs.Chart.Build
import MetricLayer.Proofs.Chart.Category
import MetricLayer.Proofs.Chart.Format
import MetricLayer.Proofs.Chart.Group
import MetricLayer.Proofs.Chart.Pivot
import MetricLayer.Proofs.Chart.TwoDimensions
import MetricLayer.Proofs.Engine.Sanitize
import MetricLayer.Proofs.Generation.Bare
import MetricLayer.Proofs.Generation.Complete
import MetricLayer.Proofs.Generation.Extract
import MetricLayer.Proofs.Generation.Fence
import MetricLayer.Proofs.Generation.Mention
import MetricLayer.Proofs.Generation.Origin
import MetricLayer.Proofs.Generation.Plan
import MetricLayer.Proofs.Generation.Refusal
import MetricLayer.Proofs.Generation.Repeated
import MetricLayer.Proofs.Generation.Retry
import MetricLayer.Proofs.Generation.Select
import MetricLayer.Proofs.Generation.Wrapped
import MetricLayer.Proofs.Number.Decimal
import MetricLayer.Proofs.Number.Places
import MetricLayer.Proofs.Review.Fault
import MetricLayer.Proofs.Review.Foreign
import MetricLayer.Proofs.Review.Guidance
import MetricLayer.Proofs.Review.Item
import MetricLayer.Proofs.Review.Listing
import MetricLayer.Proofs.Review.Literal
import MetricLayer.Proofs.Review.Proposal
import MetricLayer.Proofs.Review.Query
import MetricLayer.Proofs.Review.Standalone
import MetricLayer.Proofs.Review.Statement
import MetricLayer.Proofs.Run.Exhausted
import MetricLayer.Proofs.Run.Guarded
import MetricLayer.Proofs.Run.Isolated
import MetricLayer.Proofs.Run.Offline
import MetricLayer.Proofs.Run.Ordered
import MetricLayer.Proofs.Run.Outcome
import MetricLayer.Proofs.Run.Settled
import MetricLayer.Proofs.Run.Step
import MetricLayer.Proofs.Run.TimeOrder
import MetricLayer.Proofs.Run.Trace
import MetricLayer.Proofs.Safety.Calm
import MetricLayer.Proofs.Safety.Exempt
import MetricLayer.Proofs.Safety.Gate
import MetricLayer.Proofs.Safety.OneTable
import MetricLayer.Proofs.Safety.Outside
import MetricLayer.Proofs.Safety.Quoted
import MetricLayer.Proofs.Safety.Reference
import MetricLayer.Proofs.Safety.Relations
import MetricLayer.Proofs.Safety.Scope
import MetricLayer.Proofs.Safety.Stripped
import MetricLayer.Proofs.Safety.Written
import MetricLayer.Proofs.Selection.Drafted
import MetricLayer.Proofs.Selection.Expression
import MetricLayer.Proofs.Selection.Extract
import MetricLayer.Proofs.Selection.Faulty
import MetricLayer.Proofs.Selection.Items
import MetricLayer.Proofs.Selection.Order
import MetricLayer.Proofs.Selection.Planned
import MetricLayer.Proofs.Selection.ReadBack
import MetricLayer.Proofs.Selection.Requested
import MetricLayer.Proofs.Selection.Safe
import MetricLayer.Proofs.Selection.Statement
import MetricLayer.Proofs.Selection.Table
import MetricLayer.Proofs.Selection.Valid
import MetricLayer.Proofs.Sql.Alias
import MetricLayer.Proofs.Sql.Argument
import MetricLayer.Proofs.Sql.Behind
import MetricLayer.Proofs.Sql.Call
import MetricLayer.Proofs.Sql.Canonical
import MetricLayer.Proofs.Sql.Clause
import MetricLayer.Proofs.Sql.Ending
import MetricLayer.Proofs.Sql.Erase
import MetricLayer.Proofs.Sql.Hide
import MetricLayer.Proofs.Sql.HideCalls
import MetricLayer.Proofs.Sql.HideParts
import MetricLayer.Proofs.Sql.Insert
import MetricLayer.Proofs.Sql.Layout
import MetricLayer.Proofs.Sql.Mask
import MetricLayer.Proofs.Sql.Name
import MetricLayer.Proofs.Sql.Numeral
import MetricLayer.Proofs.Sql.OneItem
import MetricLayer.Proofs.Sql.Parenthesis
import MetricLayer.Proofs.Sql.Parts
import MetricLayer.Proofs.Sql.Qualifier
import MetricLayer.Proofs.Sql.Quotation
import MetricLayer.Proofs.Sql.Seam
import MetricLayer.Proofs.Sql.Split
import MetricLayer.Proofs.Sql.Statement
import MetricLayer.Proofs.Sql.Token
import MetricLayer.Proofs.Sql.Unquote
import MetricLayer.Proofs.Text.Case
import MetricLayer.Proofs.Text.DigitRun
import MetricLayer.Proofs.Text.Fold
import MetricLayer.Proofs.Text.Keyword
import MetricLayer.Proofs.Text.Label
import MetricLayer.Proofs.Text.Numeral
import MetricLayer.Proofs.Text.Pieces
import MetricLayer.Proofs.Text.Trim
import MetricLayer.Proofs.Value.Entry
import MetricLayer.Proofs.Value.Json
import MetricLayer.Proofs.Value.Key
import MetricLayer.Review.Check
import MetricLayer.Review.Finding
import MetricLayer.Run.Answer
import MetricLayer.Run.Attempt
import MetricLayer.Run.Basic
import MetricLayer.Run.Generators
import MetricLayer.Run.Ordering
import MetricLayer.Run.Report
import MetricLayer.Safety
import MetricLayer.Selection.Basic
import MetricLayer.Selection.Compile
import MetricLayer.Selection.Numeral
import MetricLayer.Sql.Aggregate
import MetricLayer.Sql.Alias
import MetricLayer.Sql.Clause
import MetricLayer.Sql.Identifier
import MetricLayer.Sql.Mask
import MetricLayer.Sql.Query
import MetricLayer.Sql.Statement
import MetricLayer.Text.Blank
import MetricLayer.Text.Case
import MetricLayer.Text.CaseTable
import MetricLayer.Text.Digit
import MetricLayer.Text.Half
import MetricLayer.Text.Pieces
import MetricLayer.Text.Place
import MetricLayer.Text.PrintableTable
import MetricLayer.Text.Quoted
import MetricLayer.Text.Word
import MetricLayer.Text.WordTable
import MetricLayer.Value.Basic
import MetricLayer.Value.Calendar
import MetricLayer.Value.Flow
import MetricLayer.Value.Integer
import MetricLayer.Value.Json
import MetricLayer.Value.Key
import MetricLayer.Value.Text
