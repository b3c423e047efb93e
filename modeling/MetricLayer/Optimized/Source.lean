import MetricLayer.BuildState
import MetricLayer.Config
import MetricLayer.Optimized.Key
import MetricLayer.Sql.Statement

/-!
# Optimized sources

An optimized source is a copy of a table with a key column for each combination
of columns that metrics count, in partitions by date and clustered by columns
that queries group by. It is built as a whole (`fullRefresh`), or the rows of
dates that it lacks are added (`incremental?`).
-/

namespace MetricLayer

structure OptimizedSource where
  sourceTable : String
  optimizedTable : String
  partitionColumn : String
  clusterColumns : List String := []
  keyMappings : List KeyMapping := []
  build : BuildState := {}
  deriving DecidableEq, Repr

namespace OptimizedSource

def ofTable (sourceTable partitionColumn : String) (config : OptimizerConfig) : OptimizedSource :=
  { sourceTable
    optimizedTable := sourceTable ++ config.tableSuffix
    partitionColumn }

/-- Whether a table built by one plan is the table of the other. -/
def samePlan (s other : OptimizedSource) : Bool :=
  s.optimizedTable == other.optimizedTable && s.partitionColumn == other.partitionColumn &&
    s.clusterColumns == other.clusterColumns && s.keyMappings == other.keyMappings

/-- Every column of the source, and the key columns. -/
def query (s : OptimizedSource) : Sql.Select :=
  { source := s.sourceTable
    items := { expr := .wildcard } :: s.keyMappings.map fun m =>
      { expr := .compositeKey m.sourceColumns, label := some m.keyColumnName } }

def fullRefresh (s : OptimizedSource) : Sql.Statement :=
  .createTable s.optimizedTable s.query (some s.partitionColumn) s.clusterColumns

/-- The statement that adds the rows of some dates, unless there is no date. -/
def incremental? (s : OptimizedSource) (missing : List Date) : Option Sql.Statement :=
  if missing.isEmpty then none
  else
    let ofDates := Sql.Expr.inList (.ofColumn s.partitionColumn) (missing.map .date) false
    some (.insert s.optimizedTable { s.query with filters := [ofDates] })

def toJson (s : OptimizedSource) : Json :=
  .ofFields ([
    ("source_table", .text s.sourceTable),
    ("optimized_table", .text s.optimizedTable),
    ("partition_column", .text s.partitionColumn),
    ("cluster_columns", .texts s.clusterColumns),
    ("key_mappings", .list (s.keyMappings.map KeyMapping.toJson))] ++ s.build.fields)

def readField (s : OptimizedSource) (name : String) (v : Json) :
    Except Json.Fault OptimizedSource :=
  match name with
  | "source_table" => do
    let sourceTable ← v.asText
    .ok { s with sourceTable }
  | "optimized_table" => do
    let optimizedTable ← v.asText
    .ok { s with optimizedTable }
  | "partition_column" => do
    let partitionColumn ← v.asText
    .ok { s with partitionColumn }
  | "cluster_columns" => do
    let clusterColumns ← v.asTexts
    .ok { s with clusterColumns }
  | "key_mappings" => do
    let keyMappings ← v.asList KeyMapping.ofJson
    .ok { s with keyMappings }
  | other => do
    let build ← s.build.readField other v
    .ok { s with build }

def ofJson (v : Json) : Except Json.Fault OptimizedSource := do
  let fields ← v.asFields
  let s ← Json.readFields { sourceTable := "", optimizedTable := "", partitionColumn := "" }
    readField fields
  Json.require ["source_table", "optimized_table", "partition_column"] fields
  .ok s

end OptimizedSource

end MetricLayer
