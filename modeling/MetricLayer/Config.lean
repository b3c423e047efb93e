import MetricLayer.Error
import MetricLayer.Toml.Reader

/-!
# Configuration

Every section and every setting has a default. A configuration is read from a
text of tables, in which names that mean nothing here are passed over, and is
looked for in three places in turn.
-/

namespace MetricLayer

/-- How rollups are scored. -/
structure RouterConfig where
  /-- The score that every usable rollup starts from. -/
  baseScore : Int64 := 100
  /-- Added where a rollup's dimensions are just those of the request. -/
  exactMatchBonus : Int64 := 50
  /-- Taken off for each dimension beyond the request. -/
  extraDimensionPenalty : Int64 := 5
  deriving DecidableEq, Repr

structure OptimizerConfig where
  maxClusterColumns : UInt64 := 4
  /-- What the names of key columns begin with. -/
  keyPrefix : String := "_key_"
  /-- What is added to a table's name for its optimized copy. -/
  tableSuffix : String := "_optimized"
  deriving DecidableEq, Repr

/-- How long and how many column lists are kept. -/
structure SchemaCacheConfig where
  ttlSecs : UInt64 := 3600
  maxSize : UInt64 := 1000
  deriving DecidableEq, Repr

structure ValidationConfig where
  /-- Let missing columns pass. -/
  warnOnly : Bool := false
  /-- Have the warehouse check expressions. -/
  dryRun : Bool := true
  deriving DecidableEq, Repr

structure BigQueryConfig where
  useQueryCache : Bool := true
  maximumBytesBilled : Int64 := 0
  maxConcurrentQueries : UInt64 := 30
  queueTimeoutMs : UInt64 := 1500
  deriving DecidableEq, Repr

structure DuckDbConfig where
  maxConcurrency : UInt64 := 16
  deriving DecidableEq, Repr

structure Config where
  router : RouterConfig := {}
  optimizer : OptimizerConfig := {}
  schemaCache : SchemaCacheConfig := {}
  validation : ValidationConfig := {}
  bigQuery : BigQueryConfig := {}
  duckDb : DuckDbConfig := {}
  deriving DecidableEq, Repr

namespace RouterConfig

def toJson (c : RouterConfig) : Json :=
  .ofFields [
    ("base_score", .integer c.baseScore.toInt),
    ("exact_match_bonus", .integer c.exactMatchBonus.toInt),
    ("extra_dimension_penalty", .integer c.extraDimensionPenalty.toInt)]

def readField (c : RouterConfig) (name : String) (v : Json) : Except Json.Fault RouterConfig :=
  match name with
  | "base_score" => do
    let baseScore ← v.asInt64
    .ok { c with baseScore }
  | "exact_match_bonus" => do
    let exactMatchBonus ← v.asInt64
    .ok { c with exactMatchBonus }
  | "extra_dimension_penalty" => do
    let extraDimensionPenalty ← v.asInt64
    .ok { c with extraDimensionPenalty }
  | _ => .ok c

def ofJson (v : Json) : Except Json.Fault RouterConfig := do
  Json.readFields {} readField (← v.asOptionalFields)

end RouterConfig

namespace OptimizerConfig

def toJson (c : OptimizerConfig) : Json :=
  .ofFields [
    ("max_cluster_columns", .ofNat c.maxClusterColumns.toNat),
    ("key_prefix", .text c.keyPrefix),
    ("table_suffix", .text c.tableSuffix)]

def readField (c : OptimizerConfig) (name : String) (v : Json) :
    Except Json.Fault OptimizerConfig :=
  match name with
  | "max_cluster_columns" => do
    let maxClusterColumns ← v.asUInt64
    .ok { c with maxClusterColumns }
  | "key_prefix" => do
    let keyPrefix ← v.asText
    .ok { c with keyPrefix }
  | "table_suffix" => do
    let tableSuffix ← v.asText
    .ok { c with tableSuffix }
  | _ => .ok c

def ofJson (v : Json) : Except Json.Fault OptimizerConfig := do
  Json.readFields {} readField (← v.asOptionalFields)

end OptimizerConfig

namespace SchemaCacheConfig

def toJson (c : SchemaCacheConfig) : Json :=
  .ofFields [("ttl_secs", .ofNat c.ttlSecs.toNat), ("max_size", .ofNat c.maxSize.toNat)]

def readField (c : SchemaCacheConfig) (name : String) (v : Json) :
    Except Json.Fault SchemaCacheConfig :=
  match name with
  | "ttl_secs" => do
    let ttlSecs ← v.asUInt64
    .ok { c with ttlSecs }
  | "max_size" => do
    let maxSize ← v.asUInt64
    .ok { c with maxSize }
  | _ => .ok c

def ofJson (v : Json) : Except Json.Fault SchemaCacheConfig := do
  Json.readFields {} readField (← v.asOptionalFields)

end SchemaCacheConfig

namespace ValidationConfig

def toJson (c : ValidationConfig) : Json :=
  .ofFields [("warn_only", .bool c.warnOnly), ("dry_run", .bool c.dryRun)]

def readField (c : ValidationConfig) (name : String) (v : Json) :
    Except Json.Fault ValidationConfig :=
  match name with
  | "warn_only" => do
    let warnOnly ← v.asBool
    .ok { c with warnOnly }
  | "dry_run" => do
    let dryRun ← v.asBool
    .ok { c with dryRun }
  | _ => .ok c

def ofJson (v : Json) : Except Json.Fault ValidationConfig := do
  Json.readFields {} readField (← v.asOptionalFields)

end ValidationConfig

namespace BigQueryConfig

def toJson (c : BigQueryConfig) : Json :=
  .ofFields [
    ("use_query_cache", .bool c.useQueryCache),
    ("maximum_bytes_billed", .integer c.maximumBytesBilled.toInt),
    ("max_concurrent_queries", .ofNat c.maxConcurrentQueries.toNat),
    ("queue_timeout_ms", .ofNat c.queueTimeoutMs.toNat)]

def readField (c : BigQueryConfig) (name : String) (v : Json) :
    Except Json.Fault BigQueryConfig :=
  match name with
  | "use_query_cache" => do
    let useQueryCache ← v.asBool
    .ok { c with useQueryCache }
  | "maximum_bytes_billed" => do
    let maximumBytesBilled ← v.asInt64
    .ok { c with maximumBytesBilled }
  | "max_concurrent_queries" => do
    let maxConcurrentQueries ← v.asUInt64
    .ok { c with maxConcurrentQueries }
  | "queue_timeout_ms" => do
    let queueTimeoutMs ← v.asUInt64
    .ok { c with queueTimeoutMs }
  | _ => .ok c

def ofJson (v : Json) : Except Json.Fault BigQueryConfig := do
  Json.readFields {} readField (← v.asOptionalFields)

end BigQueryConfig

namespace DuckDbConfig

def toJson (c : DuckDbConfig) : Json :=
  .ofFields [("max_concurrency", .ofNat c.maxConcurrency.toNat)]

def readField (c : DuckDbConfig) (name : String) (v : Json) : Except Json.Fault DuckDbConfig :=
  match name with
  | "max_concurrency" => do
    let maxConcurrency ← v.asUInt64
    .ok { c with maxConcurrency }
  | _ => .ok c

def ofJson (v : Json) : Except Json.Fault DuckDbConfig := do
  Json.readFields {} readField (← v.asOptionalFields)

end DuckDbConfig

namespace Config

def toJson (c : Config) : Json :=
  .ofFields [
    ("router", c.router.toJson),
    ("optimizer", c.optimizer.toJson),
    ("schema_cache", c.schemaCache.toJson),
    ("validation", c.validation.toJson),
    ("bigquery", c.bigQuery.toJson),
    ("duckdb", c.duckDb.toJson)]

def readField (c : Config) (name : String) (v : Json) : Except Json.Fault Config :=
  match name with
  | "router" => do
    let router ← RouterConfig.ofJson v
    .ok { c with router }
  | "optimizer" => do
    let optimizer ← OptimizerConfig.ofJson v
    .ok { c with optimizer }
  | "schema_cache" => do
    let schemaCache ← SchemaCacheConfig.ofJson v
    .ok { c with schemaCache }
  | "validation" => do
    let validation ← ValidationConfig.ofJson v
    .ok { c with validation }
  | "bigquery" => do
    let bigQuery ← BigQueryConfig.ofJson v
    .ok { c with bigQuery }
  | "duckdb" => do
    let duckDb ← DuckDbConfig.ofJson v
    .ok { c with duckDb }
  | _ => .ok c

def ofJson (v : Json) : Except Json.Fault Config := do
  Json.readFields {} readField (← v.asOptionalFields)

/-- The configuration that a text describes. -/
def ofText (text : String) : Except Error Config :=
  match Toml.read? text with
  | none => .error .configUnreadable
  | some v => (ofJson v).mapError fun _ => .configUnreadable

/-- The configuration in a file, given its text if there is such a file. -/
def ofFile : Option String → Except Error Config
  | none => .error .configMissing
  | some text => ofText text

/-- The first of these files that holds a configuration, or else the defaults. -/
def ofFirst (files : List (Option String)) : Config :=
  (files.findSome? fun file => (ofFile file).toOption).getD {}

end Config

end MetricLayer
