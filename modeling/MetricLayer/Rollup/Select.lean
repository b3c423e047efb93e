import MetricLayer.Optimized.Source
import MetricLayer.Rollup.Definition
import MetricLayer.RowExpression

/-!
# The query of a rollup

A rollup selects its dimensions and then the columns of its metrics, grouped by
the dimensions. It reads from the optimized source if that is ready; a metric
over several columns then counts the values of their key column.
-/

namespace MetricLayer

open Sql (Expr SelectItem)

/-- What rollups are built from. -/
structure RollupSource where
  registry : Registry
  dialect : Sql.Dialect
  /-- An optimized source that is ready. -/
  optimized : Option OptimizedSource := none

namespace RollupSource

def ofRegistry (registry : Registry) (dialect : Sql.Dialect)
    (optimized : Option OptimizedSource) : RollupSource :=
  { registry, dialect, optimized := optimized.filter (·.build.isReady) }

variable (b : RollupSource)

def table : String :=
  match b.optimized with
  | some o => o.optimizedTable
  | none => b.registry.sourceTable

/-- The expression of a dimension of the rollup `rollupId`. -/
def dimensionExpr (rollupId dimensionId : String) : Except Error Expr :=
  match b.registry.dimension? dimensionId with
  | some (.column d) => .ok (.ofColumn d.columnName)
  | some (.calculated d) => do
    let c ← RowExpression.compile b.dialect d.sqlExpression
    .ok (.nested (.raw c.sql))
  | none => .error (.schema (.unknownDimensionOf rollupId dimensionId))

/-- The key column that stands for the columns of a metric, if there is one. -/
def keyColumn? (m : BaseMetric) : Option String :=
  if m.isComposite then
    b.optimized.bind fun o => (KeyMapping.find? o.keyMappings m.sourceColumns).map (·.keyColumnName)
  else none

def metricInput (m : BaseMetric) : Expr :=
  match b.keyColumn? m with
  | some column => .ofColumn column
  | none => m.input

/-- An aggregate over the rows in which the flag column is 1. -/
def flaggedAggregate (aggregation : Aggregation) (input : Expr) (flag : String) : Expr :=
  let flagged := Expr.binary .eq (.ofColumn flag) (.ofInt 1)
  match aggregation with
  | .sum => .aggregate .sum (.cases [(flagged, input)] (.ofInt 0))
  | .count => .countIf flagged
  | aggregation => .aggregate aggregation (.cases [(flagged, input)] (.literal .null))

/-- The columns of one metric of the rollup `rollupId`. -/
def metricItems (rollupId : String) (m : RollupMetric) : Except Error (List SelectItem) :=
  match b.registry.baseMetric? m.metricId with
  | none => .error (.schema (.notBaseMetricOf rollupId m.metricId))
  | some base =>
    let input := b.metricInput base
    let plain : SelectItem := { expr := .aggregate base.aggregation input, label := some base.id }
    if !m.includeConditional then .ok [plain]
    else match m.flag? with
      | none => .error (.schema (.noFlagColumn m.metricId))
      | some flag =>
        .ok [plain,
          { expr := flaggedAggregate base.aggregation input flag
            label := some (flaggedColumn base.id) }]

def query (r : RollupDefinition) : Except Error Sql.Select := do
  let dimensions ← r.dimensions.mapM (b.dimensionExpr r.id)
  let metrics ← r.metrics.mapM (b.metricItems r.id)
  .ok {
    source := b.table
    items := (dimensions.zip r.dimensions).map (fun (expr, id) => { expr, label := some id }) ++
      metrics.flatten
    groupBy := dimensions }

/-- The statement that builds the table of a rollup. -/
def statement (r : RollupDefinition) : Except Error Sql.Statement := do
  let query ← b.query r
  .ok (.createTable r.targetTableName query none [])

end RollupSource

end MetricLayer
