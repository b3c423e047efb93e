import MetricLayer.Optimized.Source
import MetricLayer.Warehouse.Questions

/-!
# Refreshing an optimized source

The whole table is built anew, or the dates that it lacks are added. Rows can
be added only to a table that was built by the current plan; if it is not
ready, it is built as a whole.
-/

namespace MetricLayer

inductive RefreshMode where
  | full
  | incremental
  deriving DecidableEq, Repr

def RefreshMode.name : RefreshMode → String
  | .full => "full"
  | .incremental => "incremental"

structure RefreshSummary where
  /-- What was done, which need not be what was asked for. -/
  mode : RefreshMode
  partitionsAdded : List Date
  rowCount : UInt64
  deriving DecidableEq

namespace OptimizedSource

variable {σ : Type} (s : OptimizedSource)

/-- What is done when `mode` is asked for. -/
def effectiveMode (mode : RefreshMode) : RefreshMode := if s.build.isReady then mode else .full

/-- Bring the table up to date; the dates added are the answer. -/
def rebuild : RefreshMode → Work σ (List Date)
  | .full => do
    let _ ← Work.execute s.fullRefresh
    pure []
  | .incremental => do
    let missing ← Work.missingPartitions s.sourceTable s.optimizedTable s.partitionColumn
    match s.incremental? missing with
    | none => pure missing
    | some statement => do
      let _ ← Work.execute statement
      pure missing

def runRefresh (mode : RefreshMode) : Work σ (RefreshSummary × TableStats) := do
  let partitionsAdded ← s.rebuild mode
  let stats ← Work.tableStats s.optimizedTable
  pure (⟨mode, partitionsAdded, stats.rowCount⟩, stats)

/-- The summary or the failure of a refresh, and the source that bears witness
to it. Whatever fails is a failure of the warehouse. -/
def recordRefresh (now : Timestamp) (result : Except Error (RefreshSummary × TableStats)) :
    Except Error RefreshSummary × OptimizedSource :=
  match result with
  | .ok (summary, stats) => (.ok summary, { s with build := s.build.markReady stats now })
  | .error e =>
    (.error e.asWarehouse, { s with build := s.build.markFailed e.asWarehouse.message })

/-- Refresh the table and record the outcome at the time that the clock shows
then. -/
def refresh (clock : σ → Timestamp) (mode : RefreshMode) :
    Work σ (Except Error RefreshSummary × OptimizedSource) := do
  let result ← (s.runRefresh (s.effectiveMode mode)).attempt
  let now ← Work.view clock
  pure (s.recordRefresh now result)

end OptimizedSource

end MetricLayer
