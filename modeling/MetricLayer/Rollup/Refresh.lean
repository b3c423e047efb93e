import MetricLayer.Rollup.Select
import MetricLayer.Warehouse.Questions

/-!
# Refreshing a rollup
-/

namespace MetricLayer.RollupDefinition

variable {σ : Type} (r : RollupDefinition)

/-- The size of the table or the failure to build it, and the definition that
bears witness to it. Whatever fails is a failure of the warehouse. -/
def recordRefresh (now : Timestamp) (result : Except Error TableStats) :
    Except Error TableStats × RollupDefinition :=
  match result with
  | .ok stats => (.ok stats, { r with build := r.build.markReady stats now })
  | .error e =>
    (.error e.asWarehouse, { r with build := r.build.markFailed e.asWarehouse.message })

/-- Build the table and ask for its size. -/
def runRefresh (statement : Sql.Statement) : Work σ TableStats := do
  let _ ← Work.execute statement
  Work.tableStats r.targetTableName

/-- Build the table anew and record the outcome at the time that the clock shows
then. A definition for which there is no statement is left as it is. -/
def refresh (b : RollupSource) (clock : σ → Timestamp) :
    Work σ (Except Error TableStats × RollupDefinition) :=
  match b.statement r with
  | .error e => pure (.error e, r)
  | .ok statement => do
    let result ← (r.runRefresh statement).attempt
    let now ← Work.view clock
    pure (r.recordRefresh now result)

end MetricLayer.RollupDefinition
