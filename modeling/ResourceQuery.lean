import ResourceQuery.Binary64
import ResourceQuery.Change.Plan
import ResourceQuery.Change.ResourceId
import ResourceQuery.Change.Set
import ResourceQuery.Change.Snapshot
import ResourceQuery.CommandLine
import ResourceQuery.Compile.Catalog
import ResourceQuery.Compile.Constant
import ResourceQuery.Compile.Draft
import ResourceQuery.Compile.Error
import ResourceQuery.Compile.Fields
import ResourceQuery.Compile.Filter
import ResourceQuery.Compile.Follow
import ResourceQuery.Compile.Names
import ResourceQuery.Compile.Page
import ResourceQuery.Compile.PushDown
import ResourceQuery.Compile.Query
import ResourceQuery.Compile.Sort
import ResourceQuery.Configuration.Basic
import ResourceQuery.Configuration.Settings
import ResourceQuery.Decimal.Layout
import ResourceQuery.Decimal.Numeral
import ResourceQuery.Decimal.Shortest
import ResourceQuery.Dict
import ResourceQuery.Json.Basic
import ResourceQuery.Json.Decode
import ResourceQuery.Json.Printer
import ResourceQuery.Json.Reader
import ResourceQuery.Json.Reading
import ResourceQuery.Json.Token
import ResourceQuery.Main
import ResourceQuery.Proofs.Change.Application
import ResourceQuery.Proofs.Change.Detection
import ResourceQuery.Proofs.Change.Exclusion
import ResourceQuery.Proofs.Change.Identifiers
import ResourceQuery.Proofs.Change.NormalPlans
import ResourceQuery.Proofs.Change.Nulls
import ResourceQuery.Proofs.Change.Parameters
import ResourceQuery.Proofs.Change.Plans
import ResourceQuery.Proofs.Change.Repetition
import ResourceQuery.Proofs.Change.Replacement
import ResourceQuery.Proofs.Compile.Agreement
import ResourceQuery.Proofs.Compile.Allocation
import ResourceQuery.Proofs.Compile.Assembly
import ResourceQuery.Proofs.Compile.Concealment
import ResourceQuery.Proofs.Compile.Conditions
import ResourceQuery.Proofs.Compile.Correctness
import ResourceQuery.Proofs.Compile.Ensures
import ResourceQuery.Proofs.Compile.FetchContract
import ResourceQuery.Proofs.Compile.Fetching
import ResourceQuery.Proofs.Compile.FieldWording
import ResourceQuery.Proofs.Compile.FilterScope
import ResourceQuery.Proofs.Compile.FreeNames
import ResourceQuery.Proofs.Compile.Growth
import ResourceQuery.Proofs.Compile.Joining
import ResourceQuery.Proofs.Compile.KeptRows
import ResourceQuery.Proofs.Compile.Limits
import ResourceQuery.Proofs.Compile.NormalForms
import ResourceQuery.Proofs.Compile.PageColumns
import ResourceQuery.Proofs.Compile.PageLimit
import ResourceQuery.Proofs.Compile.PageOrder
import ResourceQuery.Proofs.Compile.PageRows
import ResourceQuery.Proofs.Compile.Paging
import ResourceQuery.Proofs.Compile.Rooting
import ResourceQuery.Proofs.Compile.RowGroups
import ResourceQuery.Proofs.Compile.Serving
import ResourceQuery.Proofs.Compile.Showing
import ResourceQuery.Proofs.Compile.Soundness
import ResourceQuery.Proofs.Compile.Tracing
import ResourceQuery.Proofs.Configuration.RoundTrip
import ResourceQuery.Proofs.Decimal.Nearest
import ResourceQuery.Proofs.Decimal.Spelled
import ResourceQuery.Proofs.Dict
import ResourceQuery.Proofs.Json.Decoding
import ResourceQuery.Proofs.Json.RoundTrip
import ResourceQuery.Proofs.Json.Spelling
import ResourceQuery.Proofs.Json.Words
import ResourceQuery.Proofs.Repository.Accounting
import ResourceQuery.Proofs.Repository.AllOrNothing
import ResourceQuery.Proofs.Repository.BadRequests
import ResourceQuery.Proofs.Request.LayerTree
import ResourceQuery.Proofs.Request.Meaning
import ResourceQuery.Proofs.Request.RoundTrip
import ResourceQuery.Proofs.Request.SpelledPaths
import ResourceQuery.Proofs.Request.SubPages
import ResourceQuery.Proofs.Schema.ColumnLists
import ResourceQuery.Proofs.Schema.Columns
import ResourceQuery.Proofs.Schema.Tables
import ResourceQuery.Proofs.Sql.Arrangement
import ResourceQuery.Proofs.Sql.Effects
import ResourceQuery.Proofs.Sql.GapFree
import ResourceQuery.Proofs.Sql.MoveChains
import ResourceQuery.Proofs.Sql.Nodes
import ResourceQuery.Proofs.Sql.NormalForm
import ResourceQuery.Proofs.Sql.Patterns
import ResourceQuery.Proofs.Sql.Placeholders
import ResourceQuery.Proofs.Sql.Repairing
import ResourceQuery.Proofs.Sql.Scanning
import ResourceQuery.Proofs.Sql.Scoping
import ResourceQuery.Proofs.Sql.Semantics
import ResourceQuery.Proofs.Sql.UniqueReading
import ResourceQuery.Proofs.Store.Traces
import ResourceQuery.Repository.Basic
import ResourceQuery.Repository.Error
import ResourceQuery.Request.Basic
import ResourceQuery.Request.Document
import ResourceQuery.Request.Fetch
import ResourceQuery.Schema.Basic
import ResourceQuery.Schema.Document
import ResourceQuery.Schema.Lookup
import ResourceQuery.Schema.ScalarType
import ResourceQuery.Schema.Todo
import ResourceQuery.Sql.Column
import ResourceQuery.Sql.Condition
import ResourceQuery.Sql.Error
import ResourceQuery.Sql.Listing
import ResourceQuery.Sql.Piece
import ResourceQuery.Sql.Positional
import ResourceQuery.Sql.Render
import ResourceQuery.Sql.Repair
import ResourceQuery.Sql.Scope
import ResourceQuery.Sql.Source
import ResourceQuery.Sql.Tree
import ResourceQuery.Sql.Value
import ResourceQuery.Store.Basic
import ResourceQuery.Store.Error
import ResourceQuery.Store.Metrics
import ResourceQuery.Store.Scripted
import ResourceQuery.Store.Transaction
import ResourceQuery.Text.Printable
import ResourceQuery.Text.Quoted
