import MetricLayer.BuildState

/-!
# Rollups

A rollup is a table of metrics that are already aggregated, grouped by some
dimensions. For each metric it may hold a second column, of which the rows
without a flag are no part.
-/

namespace MetricLayer

def flaggedSuffix : String := "_flagged"

/-- The column of a metric over flagged rows only. -/
def flaggedColumn (metricId : String) : String := metricId ++ flaggedSuffix

structure RollupMetric where
  metricId : String
  /-- Whether the metric over flagged rows is there too. -/
  includeConditional : Bool := false
  /-- The column that is 1 in flagged rows. -/
  flagColumn : Option String := none
  deriving DecidableEq, Repr

namespace RollupMetric

/-- The columns that the metric takes in the table. -/
def outputColumns (m : RollupMetric) : List String :=
  if m.includeConditional then [m.metricId, flaggedColumn m.metricId] else [m.metricId]

/-- The flag column, unless its name is blank. -/
def flag? (m : RollupMetric) : Option String := m.flagColumn.filter (!Text.isBlankText ·)

def toJson (m : RollupMetric) : Json :=
  .ofFields [
    ("metric_id", .text m.metricId),
    ("include_conditional", .bool m.includeConditional),
    ("flag_column", .ofOption .text m.flagColumn)]

def readField (m : RollupMetric) (name : String) (v : Json) : Except Json.Fault RollupMetric :=
  match name with
  | "metric_id" => do
    let metricId ← v.asText
    .ok { m with metricId }
  | "include_conditional" => do
    let includeConditional ← v.asBool
    .ok { m with includeConditional }
  | "flag_column" => do
    let flagColumn ← v.asOption Json.asText
    .ok { m with flagColumn }
  | _ => .ok m

def ofJson (v : Json) : Except Json.Fault RollupMetric := do
  let fields ← v.asFields
  let m ← Json.readFields { metricId := "" } readField fields
  Json.require ["metric_id"] fields
  .ok m

end RollupMetric

structure RollupDefinition where
  id : String
  displayName : Option String := none
  description : Option String := none
  /-- The dimensions that rows are grouped by. -/
  dimensions : List String
  metrics : List RollupMetric
  targetTableName : String := ""
  build : BuildState := {}
  createdAt : Option Timestamp := none
  updatedAt : Option Timestamp := none
  deriving DecidableEq, Repr

namespace RollupDefinition

/-- The columns of metrics that queries can read. -/
def availableMetrics (r : RollupDefinition) : List String :=
  r.metrics.flatMap RollupMetric.outputColumns

def metric? (r : RollupDefinition) (metricId : String) : Option RollupMetric :=
  r.metrics.find? (·.metricId == metricId)

/-- Whether a table built by one definition is the table of the other. -/
def sameLayout (r other : RollupDefinition) : Bool :=
  r.dimensions == other.dimensions && r.metrics == other.metrics &&
    r.targetTableName == other.targetTableName

def toJson (r : RollupDefinition) : Json :=
  .ofFields ([
    ("id", .text r.id),
    ("display_name", .ofOption .text r.displayName),
    ("description", .ofOption .text r.description),
    ("dimensions", .texts r.dimensions),
    ("metrics", .list (r.metrics.map RollupMetric.toJson)),
    ("target_table_name", .text r.targetTableName),
    ("created_at", .ofOption Timestamp.toJson r.createdAt),
    ("updated_at", .ofOption Timestamp.toJson r.updatedAt)] ++ r.build.fields)

def readField (r : RollupDefinition) (name : String) (v : Json) :
    Except Json.Fault RollupDefinition :=
  match name with
  | "id" => do
    let id ← v.asText
    .ok { r with id }
  | "display_name" => do
    let displayName ← v.asOption Json.asText
    .ok { r with displayName }
  | "description" => do
    let description ← v.asOption Json.asText
    .ok { r with description }
  | "dimensions" => do
    let dimensions ← v.asTexts
    .ok { r with dimensions }
  | "metrics" => do
    let metrics ← v.asList RollupMetric.ofJson
    .ok { r with metrics }
  | "target_table_name" => do
    let targetTableName ← v.asText
    .ok { r with targetTableName }
  | "created_at" => do
    let createdAt ← v.asOption Json.asTimestamp
    .ok { r with createdAt }
  | "updated_at" => do
    let updatedAt ← v.asOption Json.asTimestamp
    .ok { r with updatedAt }
  | other => do
    let build ← r.build.readField other v
    .ok { r with build }

def ofJson (v : Json) : Except Json.Fault RollupDefinition := do
  let fields ← v.asFields
  let r ← Json.readFields { id := "", dimensions := [], metrics := [] } readField fields
  Json.require ["id", "dimensions", "metrics"] fields
  .ok r

end RollupDefinition

/-- Where a rollup is stored that names no table of its own. -/
def defaultTargetTable (sourceTable rollupId : String) : String :=
  sourceTable ++ "_rollup_" ++ rollupId

end MetricLayer
