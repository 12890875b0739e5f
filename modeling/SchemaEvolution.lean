import SchemaEvolution.Change.Alteration
import SchemaEvolution.Change.Difference
import SchemaEvolution.CommandLine.Arguments
import SchemaEvolution.CommandLine.Invocation
import SchemaEvolution.CommandLine.Run
import SchemaEvolution.Comparison.Mode
import SchemaEvolution.Comparison.Prune
import SchemaEvolution.Comparison.Value
import SchemaEvolution.Error
import SchemaEvolution.Json.Basic
import SchemaEvolution.Json.Number
import SchemaEvolution.Json.Printer
import SchemaEvolution.Json.Reader
import SchemaEvolution.Json.Record
import SchemaEvolution.Json.Token
import SchemaEvolution.Main
import SchemaEvolution.Migration
import SchemaEvolution.Number.Binary64
import SchemaEvolution.Number.Binary64Text
import SchemaEvolution.Number.Decimal
import SchemaEvolution.Plan.Clause
import SchemaEvolution.Plan.Phase
import SchemaEvolution.Plan.Renderer
import SchemaEvolution.Plan.Schedule
import SchemaEvolution.Plan.Sql
import SchemaEvolution.Plan.Statement
import SchemaEvolution.Proofs.Breaches
import SchemaEvolution.Proofs.Breakpoints
import SchemaEvolution.Proofs.CanonicalDecimals
import SchemaEvolution.Proofs.CarriedRenames
import SchemaEvolution.Proofs.ColumnTypes
import SchemaEvolution.Proofs.Commands
import SchemaEvolution.Proofs.Convergence
import SchemaEvolution.Proofs.Decimals
import SchemaEvolution.Proofs.DefaultNames
import SchemaEvolution.Proofs.Difference
import SchemaEvolution.Proofs.Entities
import SchemaEvolution.Proofs.Entries
import SchemaEvolution.Proofs.ExchangedNames
import SchemaEvolution.Proofs.Expansions
import SchemaEvolution.Proofs.Failures
import SchemaEvolution.Proofs.FoldedText
import SchemaEvolution.Proofs.GroupedColumns
import SchemaEvolution.Proofs.Histories
import SchemaEvolution.Proofs.ImplicitNames
import SchemaEvolution.Proofs.InvalidLines
import SchemaEvolution.Proofs.Json.DistinctKeys
import SchemaEvolution.Proofs.Json.Lexing
import SchemaEvolution.Proofs.Json.Reading
import SchemaEvolution.Proofs.Json.Values
import SchemaEvolution.Proofs.KeptNames
import SchemaEvolution.Proofs.KeptRenames
import SchemaEvolution.Proofs.KnownRenames
import SchemaEvolution.Proofs.Leniency
import SchemaEvolution.Proofs.LiteralsKept
import SchemaEvolution.Proofs.LoadReports
import SchemaEvolution.Proofs.Lossless
import SchemaEvolution.Proofs.LosslessAlterations
import SchemaEvolution.Proofs.LosslessRows
import SchemaEvolution.Proofs.Lowercase
import SchemaEvolution.Proofs.MembersKept
import SchemaEvolution.Proofs.NewNames
import SchemaEvolution.Proofs.Order
import SchemaEvolution.Proofs.OuterParens
import SchemaEvolution.Proofs.Ownership
import SchemaEvolution.Proofs.Patches
import SchemaEvolution.Proofs.PhaseLists
import SchemaEvolution.Proofs.Planning
import SchemaEvolution.Proofs.Prompting
import SchemaEvolution.Proofs.Propagation
import SchemaEvolution.Proofs.PrunedAlterations
import SchemaEvolution.Proofs.PureRenames
import SchemaEvolution.Proofs.ReachedTarget
import SchemaEvolution.Proofs.ReadableFields
import SchemaEvolution.Proofs.ReadableRows
import SchemaEvolution.Proofs.RebuiltKeys
import SchemaEvolution.Proofs.RecordedRenames
import SchemaEvolution.Proofs.Relabelling
import SchemaEvolution.Proofs.ReleasedKeys
import SchemaEvolution.Proofs.Reloading
import SchemaEvolution.Proofs.RemovedKeys
import SchemaEvolution.Proofs.Renaming
import SchemaEvolution.Proofs.Rendering
import SchemaEvolution.Proofs.Repetitions
import SchemaEvolution.Proofs.Replay.Basic
import SchemaEvolution.Proofs.Replay.Batch
import SchemaEvolution.Proofs.Replay.Columns
import SchemaEvolution.Proofs.Replay.Courses
import SchemaEvolution.Proofs.Replay.Finished
import SchemaEvolution.Proofs.Replay.Kinds
import SchemaEvolution.Proofs.Replay.Mirrors
import SchemaEvolution.Proofs.Replay.Mixed
import SchemaEvolution.Proofs.Replay.Moved
import SchemaEvolution.Proofs.Replay.Phases
import SchemaEvolution.Proofs.Replay.Prepared
import SchemaEvolution.Proofs.Replay.Renames
import SchemaEvolution.Proofs.Replay.TableNames
import SchemaEvolution.Proofs.Replay.Tables
import SchemaEvolution.Proofs.Replay.Views
import SchemaEvolution.Proofs.Requested
import SchemaEvolution.Proofs.RestoredNames
import SchemaEvolution.Proofs.Retargeting
import SchemaEvolution.Proofs.Returning
import SchemaEvolution.Proofs.RidingKeys
import SchemaEvolution.Proofs.RowOrder
import SchemaEvolution.Proofs.RowSets
import SchemaEvolution.Proofs.Rows
import SchemaEvolution.Proofs.RowsByKind
import SchemaEvolution.Proofs.SameRows
import SchemaEvolution.Proofs.Scheduled
import SchemaEvolution.Proofs.Settlement
import SchemaEvolution.Proofs.Shapes
import SchemaEvolution.Proofs.SimultaneousUpdates
import SchemaEvolution.Proofs.Snapshots
import SchemaEvolution.Proofs.StandingTargets
import SchemaEvolution.Proofs.StatementLog
import SchemaEvolution.Proofs.StoreRuns
import SchemaEvolution.Proofs.Stores
import SchemaEvolution.Proofs.StringDefaults
import SchemaEvolution.Proofs.StringLiterals
import SchemaEvolution.Proofs.Trimming
import SchemaEvolution.Proofs.TypeSpellings
import SchemaEvolution.Proofs.UntouchedTables
import SchemaEvolution.Proofs.WithoutRenames
import SchemaEvolution.Proofs.Words
import SchemaEvolution.Proofs.WrittenDefaults
import SchemaEvolution.Rename.Calls
import SchemaEvolution.Rename.Prompt
import SchemaEvolution.Rename.Propagate
import SchemaEvolution.Rename.Resolution
import SchemaEvolution.Rename.Resolver
import SchemaEvolution.Schema.Attribute
import SchemaEvolution.Schema.Catalog
import SchemaEvolution.Schema.Check
import SchemaEvolution.Schema.Collection
import SchemaEvolution.Schema.Column
import SchemaEvolution.Schema.Description
import SchemaEvolution.Schema.Edit
import SchemaEvolution.Schema.Entity
import SchemaEvolution.Schema.Fault
import SchemaEvolution.Schema.Field
import SchemaEvolution.Schema.ForeignKey
import SchemaEvolution.Schema.Index
import SchemaEvolution.Schema.Key
import SchemaEvolution.Schema.Load
import SchemaEvolution.Schema.PrimaryKey
import SchemaEvolution.Schema.Query
import SchemaEvolution.Schema.Row
import SchemaEvolution.Schema.Shape
import SchemaEvolution.Schema.Store
import SchemaEvolution.Schema.Table
import SchemaEvolution.Schema.View
import SchemaEvolution.Settings
import SchemaEvolution.Snapshot
import SchemaEvolution.Sql.Clock
import SchemaEvolution.Sql.ColumnType
import SchemaEvolution.Sql.Expression
import SchemaEvolution.Sql.Identifier
import SchemaEvolution.Sql.Instant
import SchemaEvolution.Sql.Literal
import SchemaEvolution.Text.Blank
import SchemaEvolution.Text.CaseTable
import SchemaEvolution.Text.CodePoints
import SchemaEvolution.Text.Digit
import SchemaEvolution.Text.Lowercase
import SchemaEvolution.Text.Printable
import SchemaEvolution.Text.Split
