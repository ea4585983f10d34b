import ResourceQuery.Main
import ResourceQuery.Proofs.Sql.Token
import ResourceQuery.Proofs.Sql.Unambiguous
import ResourceQuery.Proofs.Traversal
import ResourceQuery.Proofs.Filter.Grammar
import ResourceQuery.Proofs.Query.Compile
import ResourceQuery.Proofs.Query.Plan
import ResourceQuery.Proofs.Query.Hidden
import ResourceQuery.Proofs.Query.Confinement
import ResourceQuery.Proofs.Query.Independence
import ResourceQuery.Proofs.Sql.Correspondence
import ResourceQuery.Proofs.Query.Backends
import ResourceQuery.Proofs.Query.Session
import ResourceQuery.Proofs.Text.Numeral
import ResourceQuery.Proofs.Time.Calendar
import ResourceQuery.Proofs.Time.Reading
import ResourceQuery.Proofs.Filter.Value
import ResourceQuery.Proofs.Schema.Table
import ResourceQuery.Proofs.Store.Cell
import ResourceQuery.Proofs.Store.Binding
import ResourceQuery.Proofs.Text.Order
import ResourceQuery.Proofs.Time.Order
import ResourceQuery.Proofs.Query.Alignment
import ResourceQuery.Proofs.Query.Pages
import ResourceQuery.Proofs.Query.Reordering
import ResourceQuery.Proofs.Query.Failure
import ResourceQuery.Proofs.Config.Settings
import ResourceQuery.Proofs.Query.Accepted
import ResourceQuery.Proofs.Json.Token
import ResourceQuery.Proofs.Json.RoundTrip
import ResourceQuery.Proofs.Query.FilterText
import ResourceQuery.Proofs.Config.Layering
import ResourceQuery.Proofs.Config.Load
import ResourceQuery.Proofs.Query.Window
import ResourceQuery.Proofs.Query.Widening
import ResourceQuery.Proofs.Filter.Outcome
import ResourceQuery.Proofs.Sql.Placeholder
import ResourceQuery.Proofs.Text.Substring
import ResourceQuery.Proofs.Query.Typing
import ResourceQuery.Proofs.Number.Rounding
import ResourceQuery.Proofs.Filter.Numeral
import ResourceQuery.Proofs.Filter.Reading
import ResourceQuery.Proofs.Filter.Stringified
import ResourceQuery.Proofs.Text.Blank
import ResourceQuery.Proofs.Query.Operation
import ResourceQuery.Proofs.Query.Listing
import ResourceQuery.Proofs.Query.Capacity
import ResourceQuery.Proofs.Query.Ceiling
import ResourceQuery.Proofs.Query.Normalization
import ResourceQuery.Proofs.Query.Paging
import ResourceQuery.Proofs.Time.Phrase
import ResourceQuery.Proofs.Time.Season
import ResourceQuery.Proofs.Time.Midnight
import ResourceQuery.Proofs.Time.Range
import ResourceQuery.Proofs.Schema.Declaration
import ResourceQuery.Proofs.Config.Path
import ResourceQuery.Proofs.Time.Signed
import ResourceQuery.Proofs.Query.Relative
