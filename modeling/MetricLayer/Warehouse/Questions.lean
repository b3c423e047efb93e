import MetricLayer.BuildState
import MetricLayer.Text.Order
import MetricLayer.Warehouse.Work

/-!
# Questions to a warehouse

What is asked about tables: how many rows one has, about how many values a
column has, up to which date one reaches, and which dates are in one table and
not in another.
-/

namespace MetricLayer

/-- The date at the beginning of a value of a partition column, which may go on
with a time of day. -/
def partitionDate (raw : String) : Except Error Date :=
  let cs := raw.toList
  let day := (Text.takeBytes? 10 cs).getD cs
  (Date.read day).mapError fun fault =>
    .warehouse s!"unexpected partition value '{raw}': {fault.message}"

def cardinalityQuery (table column : String) : CountQuery :=
  { statement := .cardinality table column
    noCount := .warehouse s!"no cardinality returned for {table}.{column}" }

namespace Work

variable {σ : Type}

/-- The columns of a table. -/
def fetchColumns (table : String) : Work σ TableColumns := call (.columns table)

def tableStats (table : String) : Work σ TableStats := do
  let answer ← execute (.rowCount table)
  pure { rowCount := answer.count?.getD 0 }

def cardinality (table column : String) : Work σ UInt64 := do
  let q := cardinalityQuery table column
  let answer ← execute q.statement
  q.read answer

/-- The dates of `source` that do not occur in `target`, in increasing order. -/
def missingPartitions (source target column : String) : Work σ (List Date) := do
  let answer ← execute (.missingPartitions source target column)
  let dates ← ((answer.texts "partition_date").mapM partitionDate : Except Error (List Date))
  pure (sortedSet dates)

/-- The last date of a table, if it has one. -/
def maxPartition (table column : String) : Work σ (Option Date) := do
  let answer ← execute (.maxPartition table column)
  match answer.texts "max_date" with
  | [] => pure none
  | raw :: _ => do
    let date ← partitionDate raw
    pure (some date)

end Work

end MetricLayer
