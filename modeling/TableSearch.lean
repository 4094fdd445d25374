import TableSearch.Main
import TableSearch.Filter.Request
import TableSearch.Proofs.Filter.Key
import TableSearch.Proofs.Schema.Walk
import TableSearch.Proofs.Sql.Draft
import TableSearch.Proofs.Sql.Condition
import TableSearch.Proofs.Database.Navigation
import TableSearch.Proofs.Database.Product
import TableSearch.Proofs.Database.Numbering
import TableSearch.Proofs.Search.Matching
import TableSearch.Proofs.Search.Compilation
import TableSearch.Proofs.Search.Agreement
import TableSearch.Proofs.Sql.Token
import TableSearch.Proofs.Sql.Wording
import TableSearch.Proofs.Sql.Marks
import TableSearch.Proofs.Sql.Quoting
import TableSearch.Proofs.Sql.Placeholder
import TableSearch.Proofs.Search.Scope
import TableSearch.Proofs.Schema.Break
import TableSearch.Proofs.Schema.Validation
import TableSearch.Proofs.Search.Confinement
import TableSearch.Proofs.Database.Searching
import TableSearch.Proofs.Search.Containment
import TableSearch.Proofs.Search.Refusal
import TableSearch.Proofs.Search.Membership
import TableSearch.Proofs.Double.Rounding
import TableSearch.Proofs.Double.Shortest
import TableSearch.Proofs.Settings.Layering
import TableSearch.Proofs.Json.Numeral
import TableSearch.Proofs.Json.Number
import TableSearch.Proofs.Json.Written
import TableSearch.Proofs.Json.Reading
import TableSearch.Proofs.Json.RoundTrip
import TableSearch.Proofs.Predicate.Build
import TableSearch.Proofs.Schema.Route
import TableSearch.Proofs.Json.Indented
import TableSearch.Proofs.Schema.Encoding
import TableSearch.Proofs.Settings.Saved
import TableSearch.Proofs.Sql.Sharing
import TableSearch.Proofs.Sql.Conjunct
import TableSearch.Proofs.Sql.Nesting
import TableSearch.Proofs.Search.Binding
import TableSearch.Proofs.Database.Alike
import TableSearch.Proofs.Schema.Reference
import TableSearch.Proofs.Search.ForeignKey
import TableSearch.Proofs.Database.Ordering
import TableSearch.Proofs.Sql.Sorting
import TableSearch.Proofs.Search.Paging
import TableSearch.Proofs.Settings.Location
import TableSearch.Proofs.Settings.Blank
import TableSearch.Proofs.CommandLine.Opening
import TableSearch.Proofs.Filter.Request
import TableSearch.Proofs.Settings.Merging
import TableSearch.Proofs.CommandLine.Refusal
import TableSearch.Proofs.Settings.Consistency
import TableSearch.Proofs.CommandLine.Argument
import TableSearch.Proofs.Text.Escape
import TableSearch.Proofs.Search.Growth
