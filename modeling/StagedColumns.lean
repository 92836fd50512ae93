import StagedColumns.CoreFields
import StagedColumns.Failure.Report
import StagedColumns.Rehearsal
import StagedColumns.Release
import StagedColumns.Sql.Snippet
import StagedColumns.Proofs.Operation
import StagedColumns.Proofs.OrderedMap
import StagedColumns.Proofs.Sql.Lexer
import StagedColumns.Proofs.Sql.Meaning
import StagedColumns.Proofs.Sql.Parser
import StagedColumns.Proofs.Datum.Distinct
import StagedColumns.Proofs.Datum.Written
import StagedColumns.Proofs.Sql.ColumnTest
import StagedColumns.Proofs.Field.Gate
import StagedColumns.Proofs.Planner.Search
import StagedColumns.Proofs.Planner.SearchMeaning
import StagedColumns.Proofs.Query.Database
import StagedColumns.Proofs.Query.Evaluation
import StagedColumns.Proofs.Planner.Write
import StagedColumns.Proofs.Planner.Store
import StagedColumns.Proofs.Planner.Read
import StagedColumns.Proofs.Planner.RoundTrip
import StagedColumns.Proofs.Planner.LegacyMatch
import StagedColumns.Proofs.Planner.ActorMatch
import StagedColumns.Proofs.Field.DefaultNames
import StagedColumns.Proofs.Memo
import StagedColumns.Proofs.Planner.History
import StagedColumns.Proofs.Query.Merge
import StagedColumns.Proofs.Planner.MergedReadings
import StagedColumns.Proofs.Text.Digit
import StagedColumns.Proofs.Text.Split
import StagedColumns.Proofs.Address.Spelling
import StagedColumns.Proofs.Address.Canonical
import StagedColumns.Proofs.Planner.GivenSearch
import StagedColumns.Proofs.Query.Scoping
import StagedColumns.Proofs.Planner.Scoping
import StagedColumns.Proofs.Planner.SharedSource
import StagedColumns.Proofs.Planner.Misuse
import StagedColumns.Proofs.Planner.Dealings
import StagedColumns.Proofs.PendingWrite
import StagedColumns.Proofs.Planner.Completion
import StagedColumns.Proofs.Planner.WaysToWrite
import StagedColumns.Proofs.Checked
import StagedColumns.Proofs.Stage.Reader
import StagedColumns.Proofs.Field.Spelling
import StagedColumns.Proofs.Field.Reader
import StagedColumns.Proofs.Field.Table
import StagedColumns.Proofs.Sql.Literal
import StagedColumns.Proofs.Text.Blank
import StagedColumns.Proofs.Address.CanonicalForm
import StagedColumns.Proofs.Planner.FinalRow
import StagedColumns.Proofs.Planner.AssumedKeys
import StagedColumns.Proofs.Sql.Membership
import StagedColumns.Proofs.Log.Scope
import StagedColumns.Proofs.Sql.Lexeme
import StagedColumns.Proofs.Sql.Formula
import StagedColumns.Proofs.Sql.ConditionTree
import StagedColumns.Proofs.Sql.Grammar
import StagedColumns.Proofs.Sql.Spelling
import StagedColumns.Proofs.Sql.Ordinary
import StagedColumns.Proofs.Sql.Agreement
import StagedColumns.Proofs.Query.Upsert
import StagedColumns.Proofs.Query.Execution
import StagedColumns.Proofs.Sql.ColumnFormula
import StagedColumns.Proofs.Query.Grouping
import StagedColumns.Proofs.Planner.Notices
import StagedColumns.Proofs.Text.Lowercase
import StagedColumns.Proofs.Stage.Layout
import StagedColumns.Proofs.Failure.Circumstances
import StagedColumns.Proofs.Failure.Report
import StagedColumns.Proofs.Signature
import StagedColumns.Proofs.Stage.Coercion
import StagedColumns.Proofs.Planner.DefaultColumns
