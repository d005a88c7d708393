import RequestFlow.Analysis
import RequestFlow.Call.Binding
import RequestFlow.Command.Arguments
import RequestFlow.Command.Run
import RequestFlow.Config
import RequestFlow.Config.Reader
import RequestFlow.Files
import RequestFlow.Files.Disk
import RequestFlow.Files.Path
import RequestFlow.Graph.Builder
import RequestFlow.Graph.Edge
import RequestFlow.Graph.Node
import RequestFlow.Graph.Service
import RequestFlow.Graph.Store
import RequestFlow.Graph.Table
import RequestFlow.Json
import RequestFlow.Json.Magnitude
import RequestFlow.Json.Reader
import RequestFlow.Json.Writer
import RequestFlow.Layout
import RequestFlow.Main
import RequestFlow.Order
import RequestFlow.Owner
import RequestFlow.Proofs.Aggregate
import RequestFlow.Proofs.Agreement
import RequestFlow.Proofs.Analysis
import RequestFlow.Proofs.Answers
import RequestFlow.Proofs.Call.Binding
import RequestFlow.Proofs.Call.Position
import RequestFlow.Proofs.Closed
import RequestFlow.Proofs.Files.Disk
import RequestFlow.Proofs.Footprint
import RequestFlow.Proofs.Graph.Alike
import RequestFlow.Proofs.Graph.Builder
import RequestFlow.Proofs.Graph.Columns
import RequestFlow.Proofs.Graph.Growth
import RequestFlow.Proofs.Graph.Ledger
import RequestFlow.Proofs.Graph.Session
import RequestFlow.Proofs.Graph.Store
import RequestFlow.Proofs.Graph.Table
import RequestFlow.Proofs.Graph.Transaction
import RequestFlow.Proofs.Graph.Tree
import RequestFlow.Proofs.History
import RequestFlow.Proofs.Json.RoundTrip
import RequestFlow.Proofs.Layout.Balance
import RequestFlow.Proofs.Layout.Blanks
import RequestFlow.Proofs.Layout.Pieces
import RequestFlow.Proofs.Order
import RequestFlow.Proofs.Outage
import RequestFlow.Proofs.Owner.Found
import RequestFlow.Proofs.Owner.Replay
import RequestFlow.Proofs.Owner.Resolver
import RequestFlow.Proofs.Owner.Stored
import RequestFlow.Proofs.Reach.Complete
import RequestFlow.Proofs.Reach.Exact
import RequestFlow.Proofs.Reach.Nesting
import RequestFlow.Proofs.Reach.Search
import RequestFlow.Proofs.Report.RoundTrip
import RequestFlow.Proofs.Semantic.Clobbered
import RequestFlow.Proofs.Semantic.Tags
import RequestFlow.Proofs.Semantic.TypeSet
import RequestFlow.Proofs.Sink
import RequestFlow.Proofs.Sink.Scope
import RequestFlow.Proofs.Sink.Settings
import RequestFlow.Proofs.Syntax.Balance
import RequestFlow.Proofs.Syntax.Built
import RequestFlow.Proofs.Syntax.Children
import RequestFlow.Proofs.Syntax.Hanging
import RequestFlow.Proofs.Syntax.Kinds
import RequestFlow.Proofs.Syntax.Leaves
import RequestFlow.Proofs.Syntax.Occurrences
import RequestFlow.Proofs.Syntax.Printed
import RequestFlow.Proofs.Syntax.Rendering
import RequestFlow.Proofs.Syntax.Term
import RequestFlow.Proofs.Syntax.Untyped
import RequestFlow.Proofs.Syntax.Walks
import RequestFlow.Proofs.Tagging
import RequestFlow.Proofs.Text
import RequestFlow.Proofs.Trace.Bounds
import RequestFlow.Proofs.Trace.Depth
import RequestFlow.Proofs.Trace.Exact
import RequestFlow.Proofs.Trace.Keeps
import RequestFlow.Proofs.Trace.Leads
import RequestFlow.Proofs.Trace.Occurrences
import RequestFlow.Proofs.Trace.PassedOn
import RequestFlow.Proofs.Trace.Questions
import RequestFlow.Proofs.Trace.Restricted
import RequestFlow.Proofs.Trace.Slices
import RequestFlow.Proofs.Trace.Steps
import RequestFlow.Proofs.Trace.Twins
import RequestFlow.Proofs.Trace.Walks
import RequestFlow.Proofs.Webpage.Append
import RequestFlow.Proofs.Webpage.Graph
import RequestFlow.Proofs.Webpage.Reload
import RequestFlow.Reach
import RequestFlow.Report
import RequestFlow.Report.Json
import RequestFlow.Semantic.Fingerprint
import RequestFlow.Semantic.Type
import RequestFlow.Sink
import RequestFlow.Site.Summary
import RequestFlow.Site.Survey
import RequestFlow.Syntax.Children
import RequestFlow.Syntax.Identifiers
import RequestFlow.Syntax.Rendered
import RequestFlow.Syntax.Statement
import RequestFlow.Text.Blank
import RequestFlow.Text.ByteRange
import RequestFlow.Text.CharSet
import RequestFlow.Text.Numeral
import RequestFlow.Text.Paint
import RequestFlow.Text.Pattern
import RequestFlow.Text.Pattern.Reader
import RequestFlow.Text.Pattern.Size
import RequestFlow.Text.Pieces
import RequestFlow.Text.Word
import RequestFlow.Toml
import RequestFlow.Toml.Dates
import RequestFlow.Toml.Reader
import RequestFlow.Toml.Scalar
import RequestFlow.Trace.Builtins
import RequestFlow.Trace.Slice
import RequestFlow.Trace.Tracer
import RequestFlow.Webpage.Artifacts
import RequestFlow.Webpage.Graph
import RequestFlow.Webpage.Outcome
