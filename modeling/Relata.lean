import Relata.Action
import Relata.Adapter
import Relata.Connection.Config
import Relata.Connection.KeyValue
import Relata.Connection.Parts
import Relata.Connection.Setting
import Relata.Dialect
import Relata.Error
import Relata.Event
import Relata.Guard
import Relata.Json.Basic
import Relata.Json.Numeral
import Relata.Json.Parser
import Relata.Json.Printer
import Relata.Keyed
import Relata.Migration
import Relata.Model
import Relata.Number.Binary
import Relata.Number.Bytes
import Relata.Number.General
import Relata.Number.Reading
import Relata.Number.Shortest
import Relata.Postgres.Codec
import Relata.Postgres.Instant
import Relata.Postgres.Server
import Relata.Postgres.Target
import Relata.Proofs.Agreement
import Relata.Proofs.Alteration
import Relata.Proofs.Assembly
import Relata.Proofs.Binding
import Relata.Proofs.Blueprint
import Relata.Proofs.Calls
import Relata.Proofs.Catalog
import Relata.Proofs.Chain
import Relata.Proofs.Clauses
import Relata.Proofs.Closing
import Relata.Proofs.Confined
import Relata.Proofs.Crud
import Relata.Proofs.Ddl
import Relata.Proofs.Dml
import Relata.Proofs.Drift
import Relata.Proofs.Durability
import Relata.Proofs.Ending
import Relata.Proofs.Filters
import Relata.Proofs.Fitting
import Relata.Proofs.Folding
import Relata.Proofs.Grammar
import Relata.Proofs.Grounds
import Relata.Proofs.Instants
import Relata.Proofs.Integers
import Relata.Proofs.Interleaving
import Relata.Proofs.Layout
import Relata.Proofs.Lexeme
import Relata.Proofs.Lifetime
import Relata.Proofs.Linking
import Relata.Proofs.Loading
import Relata.Proofs.Narrowing
import Relata.Proofs.Numeral
import Relata.Proofs.Opening
import Relata.Proofs.Operands
import Relata.Proofs.Ordering
import Relata.Proofs.Outcome
import Relata.Proofs.Ownership
import Relata.Proofs.Parameters
import Relata.Proofs.Passes
import Relata.Proofs.Projections
import Relata.Proofs.Quoted
import Relata.Proofs.Rational
import Relata.Proofs.Registry
import Relata.Proofs.Relational
import Relata.Proofs.Relations
import Relata.Proofs.Repeats
import Relata.Proofs.Repetition
import Relata.Proofs.Replay
import Relata.Proofs.Reporting
import Relata.Proofs.Rereading
import Relata.Proofs.Returning
import Relata.Proofs.Rows
import Relata.Proofs.Running
import Relata.Proofs.Saving
import Relata.Proofs.Scanning
import Relata.Proofs.Schedule
import Relata.Proofs.Serialization
import Relata.Proofs.Shadow
import Relata.Proofs.Skeleton
import Relata.Proofs.Sources
import Relata.Proofs.Spelling
import Relata.Proofs.Spread
import Relata.Proofs.Stuck
import Relata.Proofs.Tables
import Relata.Proofs.Tokens
import Relata.Proofs.Trailing
import Relata.Proofs.Transaction
import Relata.Proofs.Verdict
import Relata.Proofs.Wire
import Relata.Proofs.Wording
import Relata.Query.Builder
import Relata.Query.Command
import Relata.Query.Filter
import Relata.Schema.Column
import Relata.Schema.Registry
import Relata.Schema.Table
import Relata.Scripted
import Relata.Session.Run
import Relata.Session.Step
import Relata.Sql.Piece
import Relata.Sqlite.Cell
import Relata.Sqlite.Change
import Relata.Sqlite.Connection
import Relata.Sqlite.Constraint
import Relata.Sqlite.Content
import Relata.Sqlite.Document
import Relata.Sqlite.Driver
import Relata.Sqlite.Engine
import Relata.Sqlite.Fault
import Relata.Sqlite.Link
import Relata.Sqlite.Parser
import Relata.Sqlite.Plan
import Relata.Sqlite.Query
import Relata.Sqlite.Reference
import Relata.Sqlite.Route
import Relata.Sqlite.Scope
import Relata.Sqlite.Statement
import Relata.Sqlite.Term
import Relata.Sqlite.Token
import Relata.Sqlite.Weight
import Relata.Text.Basic
import Relata.Text.CaseTable
import Relata.Text.Debug
import Relata.Text.Lowercase
import Relata.Text.Quoted
import Relata.Tour.Blog
import Relata.Tour.Transcript
import Relata.Tour.Transfers
import Relata.Value
import Relata.Value.Serialized
