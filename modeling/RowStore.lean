import RowStore.Address.Corners
import RowStore.Calendar.Moment
import RowStore.Frame
import RowStore.Lock.File
import RowStore.Lock.Mutex
import RowStore.Memory.Service
import RowStore.Note
import RowStore.Noted
import RowStore.Number.Reading
import RowStore.Number.Shortest
import RowStore.Opening
import RowStore.Program
import RowStore.Proofs.Address.Corners
import RowStore.Proofs.Address.Grammar
import RowStore.Proofs.Address.Order
import RowStore.Proofs.Address.RoundTrip
import RowStore.Proofs.Calendar.Numbers
import RowStore.Proofs.Columns.Descriptors
import RowStore.Proofs.Columns.Identifier
import RowStore.Proofs.Columns.Snapshot
import RowStore.Proofs.Columns.Types
import RowStore.Proofs.Concurrent.Schedule
import RowStore.Proofs.Concurrent.Serial
import RowStore.Proofs.Fault.Outcome
import RowStore.Proofs.Frame.Shows
import RowStore.Proofs.Grid.Backoff
import RowStore.Proofs.Grid.Batches
import RowStore.Proofs.Grid.Calls
import RowStore.Proofs.Grid.Confined
import RowStore.Proofs.Grid.Delivery
import RowStore.Proofs.Grid.Edits
import RowStore.Proofs.Grid.Piecewise
import RowStore.Proofs.Grid.Retry
import RowStore.Proofs.Grid.Revision
import RowStore.Proofs.Json.Documents
import RowStore.Proofs.Json.Strings
import RowStore.Proofs.Noted.Gives
import RowStore.Proofs.Number.Exact
import RowStore.Proofs.Number.Numeral
import RowStore.Proofs.Number.Rational
import RowStore.Proofs.Number.Scripts
import RowStore.Proofs.Number.Written
import RowStore.Proofs.Opening.Refused
import RowStore.Proofs.Query.Compiled
import RowStore.Proofs.Query.First
import RowStore.Proofs.Query.Numerals
import RowStore.Proofs.Query.Pieces
import RowStore.Proofs.Query.ReadBack
import RowStore.Proofs.Query.Reader
import RowStore.Proofs.Query.Requested
import RowStore.Proofs.Query.Scanned
import RowStore.Proofs.Query.Strings
import RowStore.Proofs.Query.Tokenless
import RowStore.Proofs.Query.Typed
import RowStore.Proofs.Response.Answered
import RowStore.Proofs.Response.Cells
import RowStore.Proofs.Response.Dates
import RowStore.Proofs.Response.Fallback
import RowStore.Proofs.Response.Legible
import RowStore.Proofs.Response.Projected
import RowStore.Proofs.Response.RoundTrip
import RowStore.Proofs.Response.Unwrapped
import RowStore.Proofs.Session.Confined
import RowStore.Proofs.Session.Leaves
import RowStore.Proofs.Session.Meets
import RowStore.Proofs.Session.Queries
import RowStore.Proofs.Session.Trace
import RowStore.Proofs.Session.Yields
import RowStore.Proofs.Sheet.Cells
import RowStore.Proofs.Sheet.Identifiers
import RowStore.Proofs.Sheet.Keeper
import RowStore.Proofs.Sheet.Numbered
import RowStore.Proofs.Sheet.Scripted
import RowStore.Proofs.Sheet.Solo
import RowStore.Proofs.Sheet.Writing
import RowStore.Proofs.Table.Addressed
import RowStore.Proofs.Table.Appended
import RowStore.Proofs.Table.Atomic
import RowStore.Proofs.Table.Caching
import RowStore.Proofs.Table.Consulted
import RowStore.Proofs.Table.Created
import RowStore.Proofs.Table.Deleted
import RowStore.Proofs.Table.Effect
import RowStore.Proofs.Table.Exhausted
import RowStore.Proofs.Table.Fetched
import RowStore.Proofs.Table.Guard
import RowStore.Proofs.Table.Input
import RowStore.Proofs.Table.Locked
import RowStore.Proofs.Table.Lookup
import RowStore.Proofs.Table.Matched
import RowStore.Proofs.Table.NewRows
import RowStore.Proofs.Table.Obtained
import RowStore.Proofs.Table.Plan
import RowStore.Proofs.Table.Queries
import RowStore.Proofs.Table.Reading
import RowStore.Proofs.Table.Repeated
import RowStore.Proofs.Table.Returns
import RowStore.Proofs.Table.Runs
import RowStore.Proofs.Table.Sample
import RowStore.Proofs.Table.Search
import RowStore.Proofs.Table.Served
import RowStore.Proofs.Table.Sought
import RowStore.Proofs.Table.Translated
import RowStore.Proofs.Table.Undone
import RowStore.Proofs.Table.Unique
import RowStore.Proofs.Table.Updated
import RowStore.Proofs.Table.Written
import RowStore.Proofs.Text.Split
import RowStore.Proofs.Text.Trimmed
import RowStore.Proofs.Text.Upper
import RowStore.Proofs.Value.Compared
import RowStore.Proofs.Value.Entries
import RowStore.Proofs.Value.Equality
import RowStore.Proofs.Writer.Bracket
import RowStore.Proofs.Writer.Ready
import RowStore.Query.Bracket
import RowStore.Query.Clauses
import RowStore.Response.Records
import RowStore.Settings
import RowStore.Table.Operation
import RowStore.Text.Case
import RowStore.Text.Quoted
import RowStore.Value.Cell
import RowStore.Value.Entries
