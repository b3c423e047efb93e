import MetricLayer.Proofs.Registry.Reachability
import MetricLayer.Service.Columns
import MetricLayer.Service.Metrics
import MetricLayer.Service.Optimized
import MetricLayer.Service.Rollups
import MetricLayer.Service.Routes
import MetricLayer.Warehouse.Script
import MetricLayer.Proofs.Formula.Expansion
import MetricLayer.Proofs.Registry.Order
import MetricLayer.Proofs.Registry.Agreement
import MetricLayer.Proofs.Registry.Consistency
import MetricLayer.Proofs.Registry.Editing
import MetricLayer.Proofs.Registry.Atomicity
import MetricLayer.Proofs.Warehouse.Interleaving
import MetricLayer.Proofs.Service.Refreshes
import MetricLayer.Proofs.Service.Sessions
import MetricLayer.Proofs.Service.Staleness
import MetricLayer.Proofs.Sql.Value
import MetricLayer.Proofs.Sql.Evaluation
import MetricLayer.Proofs.Sql.Interpretation
import MetricLayer.Proofs.Formula.Meaning
import MetricLayer.Proofs.Formula.Columns
import MetricLayer.Proofs.Rollup.Contents
import MetricLayer.Proofs.Route.Needs
import MetricLayer.Proofs.Route.Answers
import MetricLayer.Proofs.Route.Exactness
import MetricLayer.Proofs.Route.Reaggregation
import MetricLayer.Proofs.Formula.Shape
import MetricLayer.Proofs.Sql.Lexing
import MetricLayer.Proofs.Sql.Reading
import MetricLayer.Proofs.Sql.Written
import MetricLayer.Proofs.Sql.Escapes
import MetricLayer.Proofs.Formula.Spelling
import MetricLayer.Proofs.Formula.Emission
import MetricLayer.Proofs.Sql.Sums
import MetricLayer.Proofs.Formula.Misplacement
import MetricLayer.Proofs.Sql.Keys
import MetricLayer.Proofs.Sql.Columns
import MetricLayer.Proofs.Optimized.KeyNames
import MetricLayer.Proofs.Rollup.Optimized
import MetricLayer.Proofs.Sql.DuckDb
import MetricLayer.Proofs.Sql.Quotients
import MetricLayer.Proofs.Formula.Dialects
import MetricLayer.Proofs.Formula.Occurrences
import MetricLayer.Proofs.Ranking
import MetricLayer.Proofs.Route.Rules
import MetricLayer.Proofs.Rollup.History
import MetricLayer.Proofs.Service.Traffic
import MetricLayer.Proofs.Service.Protocol
import MetricLayer.Proofs.Service.Plans
import MetricLayer.Proofs.Service.Upkeep
import MetricLayer.Proofs.Rollup.ColumnNames
import MetricLayer.Proofs.Route.Columns
import MetricLayer.Proofs.Rollup.Flagged
import MetricLayer.Proofs.Sql.Literals
import MetricLayer.Proofs.RowExpression
import MetricLayer.Proofs.Registry.Acceptance
import MetricLayer.Proofs.Service.Edits
import MetricLayer.Proofs.Json.RoundTrip
import MetricLayer.Proofs.Schema.RoundTrip
import MetricLayer.Proofs.Time.Date
import MetricLayer.Proofs.Sql.Tables
import MetricLayer.Proofs.Warehouse.Execution
import MetricLayer.Proofs.Optimized.Incremental
import MetricLayer.Proofs.Sql.Names
import MetricLayer.Proofs.Registry.StoredCompilations
import MetricLayer.Proofs.Registry.Reordering
import MetricLayer.Proofs.Optimized.KeyAnalysis
import MetricLayer.Proofs.Service.Fitting
import MetricLayer.Proofs.Route.Advice
import MetricLayer.Proofs.Registry.Cascades
import MetricLayer.Proofs.Formula.Dependencies
import MetricLayer.Proofs.Formula.Grammar
import MetricLayer.Proofs.Registry.Cycles
import MetricLayer.Proofs.Registry.LeastOrder
import MetricLayer.Proofs.Registry.MixedOrder
import MetricLayer.Proofs.Formula.Stack
import MetricLayer.Proofs.Formula.Circles
import MetricLayer.Proofs.Registry.ReportedCircles
import MetricLayer.Proofs.Registry.Traversals
import MetricLayer.Proofs.Sql.Guarding
import MetricLayer.Proofs.Formula.Guarded
import MetricLayer.Proofs.RowExpression.Blanked
import MetricLayer.Proofs.RowExpression.Calls
import MetricLayer.Proofs.RowExpression.Spans
import MetricLayer.Proofs.Sql.Texts
import MetricLayer.Proofs.Formula.Texts
import MetricLayer.Proofs.Warehouse.Caching
import MetricLayer.Proofs.Rollup.GroupKeys
import MetricLayer.Proofs.Route.Scores
import MetricLayer.Proofs.Optimized.Statements
import MetricLayer.Proofs.Service.Replanning
import MetricLayer.Proofs.Service.NamedColumns
