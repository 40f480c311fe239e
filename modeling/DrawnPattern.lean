import DrawnPattern.Keyed
import DrawnPattern.Double
import DrawnPattern.Double.Rounding
import DrawnPattern.Decimal.Shortest
import DrawnPattern.Decimal.Layout
import DrawnPattern.Decimal.Reading
import DrawnPattern.Text.Quoted
import DrawnPattern.Value
import DrawnPattern.Traits
import DrawnPattern.Graph.Element
import DrawnPattern.Query.Name
import DrawnPattern.Query.Literal
import DrawnPattern.Graph.Builder
import DrawnPattern.Tree
import DrawnPattern.Graph.Tree
import DrawnPattern.Drawing
import DrawnPattern.Symmetry
import DrawnPattern.Catalog
import DrawnPattern.Query.Pattern
import DrawnPattern.Query.Compiler
import DrawnPattern.Catalog.Queries
import DrawnPattern.Matches
import DrawnPattern.Json.Reader
import DrawnPattern.Json.Writer
import DrawnPattern.Document.Fields
import DrawnPattern.Document.Drawing
import DrawnPattern.Document.Row
import DrawnPattern.Document.Query
import DrawnPattern.Explorer
import DrawnPattern.Document.Fixture
import DrawnPattern.Config
import DrawnPattern.Main
import DrawnPattern.Proofs.Agreement
import DrawnPattern.Proofs.Graph.Link
import DrawnPattern.Proofs.Keyed
import DrawnPattern.Proofs.Symmetry.Classes
import DrawnPattern.Proofs.Match.Breaking
import DrawnPattern.Proofs.Symmetry.Exactness
import DrawnPattern.Proofs.Graph.Incidence
import DrawnPattern.Proofs.Graph.Queries
import DrawnPattern.Proofs.Graph.Reach
import DrawnPattern.Proofs.Symmetry.Flagged
import DrawnPattern.Proofs.Symmetry.Resemblance
import DrawnPattern.Proofs.Graph.Traversal
import DrawnPattern.Proofs.Query.Coverage
import DrawnPattern.Proofs.Graph.Building
import DrawnPattern.Proofs.Row.Reading
import DrawnPattern.Proofs.Row.Graph
import DrawnPattern.Proofs.Row.Faults
import DrawnPattern.Proofs.Match.Deduplication
import DrawnPattern.Proofs.Match.Assembly
import DrawnPattern.Proofs.Match.Policies
import DrawnPattern.Proofs.Match.RoundTrip
import DrawnPattern.Proofs.Match.Covering
import DrawnPattern.Proofs.Decimal.Interval
import DrawnPattern.Proofs.Decimal.Shortest
import DrawnPattern.Proofs.Decimal.Digits
import DrawnPattern.Proofs.Decimal.Layout
import DrawnPattern.Proofs.Query.Cut
import DrawnPattern.Proofs.Alike
import DrawnPattern.Proofs.Query.Lexeme
import DrawnPattern.Proofs.Query.Literal
import DrawnPattern.Proofs.Query.Variable
import DrawnPattern.Proofs.Query.Grammar
import DrawnPattern.Proofs.Query.Condition
import DrawnPattern.Proofs.Graph.Drawing
import DrawnPattern.Proofs.Query.Written
import DrawnPattern.Proofs.Query.Determined
import DrawnPattern.Proofs.Order
import DrawnPattern.Proofs.Graph.Redrawing
import DrawnPattern.Proofs.Graph.Numbering
import DrawnPattern.Proofs.Symmetry.Signature
import DrawnPattern.Proofs.Query.Scope
import DrawnPattern.Proofs.Query.Naming
import DrawnPattern.Proofs.Query.Quoting
import DrawnPattern.Proofs.Match.Finding
import DrawnPattern.Proofs.Match.Orbit
import DrawnPattern.Proofs.Match.Pruning
import DrawnPattern.Proofs.Explorer.Search
import DrawnPattern.Proofs.Explorer.History
import DrawnPattern.Proofs.Explorer.Accounting
import DrawnPattern.Proofs.Graph.Gathering
import DrawnPattern.Proofs.Graph.Validation
import DrawnPattern.Proofs.Json.Parts
import DrawnPattern.Proofs.Json.Tokens
import DrawnPattern.Proofs.Json.Reading
import DrawnPattern.Proofs.Json.Numbers
import DrawnPattern.Proofs.Double.Rounding
import DrawnPattern.Proofs.Json.Nesting
import DrawnPattern.Proofs.Document.Faithful
import DrawnPattern.Proofs.Document.Filling
import DrawnPattern.Proofs.Document.RoundTrip
import DrawnPattern.Proofs.Replay.Reading
import DrawnPattern.Proofs.Catalog.Queries
import DrawnPattern.Proofs.Catalog.Reading
import DrawnPattern.Proofs.Catalog.RoundTrip
import DrawnPattern.Proofs.Catalog.Stages
import DrawnPattern.Proofs.Catalog.Retrieval
