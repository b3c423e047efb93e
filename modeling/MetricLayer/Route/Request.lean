import MetricLayer.Json.Decode

/-!
# Requests for metrics, and where they are sent

A request names metrics, the dimensions to group them by and the dimensions to
filter by. It is answered from one table: the raw one, its optimized copy, or a
rollup.
-/

namespace MetricLayer

structure RouteRequest where
  dimensions : List String := []
  metrics : List String
  /-- The values that dimensions are restricted to, in the order of the
  dimensions. -/
  filters : List (String × List Json) := []
  /-- Whether only a rollup will do. -/
  requireRollup : Bool := false

namespace RouteRequest

def readField (r : RouteRequest) (name : String) (v : Json) : Except Json.Fault RouteRequest :=
  match name with
  | "dimensions" => do
    let dimensions ← v.asTexts
    .ok { r with dimensions }
  | "metrics" => do
    let metrics ← v.asTexts
    .ok { r with metrics }
  | "filters" => do
    let filters ← (← v.asFields).mapM fun (name, values) => do
      let values ← values.asList .ok
      .ok (name, values)
    .ok { r with filters }
  | "require_rollup" => do
    let requireRollup ← v.asBool
    .ok { r with requireRollup }
  | _ => .ok r

def ofJson (v : Json) : Except Json.Fault RouteRequest := do
  let fields ← v.asFields
  let r ← Json.readFields { metrics := [] } readField fields
  Json.require ["metrics"] fields
  .ok r

/-- The dimensions to group by, and then those to filter by. -/
def allDimensions (r : RouteRequest) : List String := r.dimensions ++ r.filters.map (·.1)

end RouteRequest

/-- The kind of table that answers a request. -/
inductive RouteTarget where
  | raw
  | optimized
  | rollup
  deriving DecidableEq, Repr

def RouteTarget.name : RouteTarget → String
  | .raw => "raw"
  | .optimized => "optimized"
  | .rollup => "rollup"

/-- Why a request is sent where it is sent. -/
inductive RouteReason where
  | reaggregated (rollupId : String)
  | exact (rollupId : String)
  | unroutable (metric : String)
  | noExactRollup
  | noRollup
  deriving DecidableEq, Repr

def RouteReason.text : RouteReason → String
  | .reaggregated id =>
    s!"rollup {id} covers the request and is re-aggregated to the requested dimensions"
  | .exact id => s!"rollup {id} matches the requested dimensions exactly"
  | .unroutable metric => s!"{metric} cannot be served from a rollup"
  | .noExactRollup =>
    "no ready rollup matches the requested dimensions exactly, as distinct counts require"
  | .noRollup => "no ready rollup covers the requested dimensions and metrics"

/-- A rollup that can answer a request. -/
structure RollupCandidate where
  rollupId : String
  score : Int64
  /-- The rollup is finer than the request, and its rows must be grouped again. -/
  needsReaggregation : Bool
  deriving DecidableEq, Repr

structure RouteDecision where
  /-- The rollup chosen, if one is. -/
  rollup : Option RollupCandidate
  reason : RouteReason
  target : RouteTarget
  table : String
  deriving DecidableEq, Repr

namespace RouteDecision

def useRollup (d : RouteDecision) : Bool := d.rollup.isSome

def needsReaggregation (d : RouteDecision) : Bool := d.rollup.any (·.needsReaggregation)

def toJson (d : RouteDecision) : Json :=
  .ofFields [
    ("use_rollup", .bool d.useRollup),
    ("rollup_id", .ofOption (fun c => .text c.rollupId) d.rollup),
    ("needs_reaggregation", .bool d.needsReaggregation),
    ("reason", .text d.reason.text),
    ("score", .ofOption (fun c => .integer c.score.toInt) d.rollup),
    ("source", .text d.target.name),
    ("table", .text d.table)]

end RouteDecision

def RollupCandidate.toJson (c : RollupCandidate) : Json :=
  .ofFields [
    ("rollup_id", .text c.rollupId),
    ("score", .integer c.score.toInt),
    ("needs_reaggregation", .bool c.needsReaggregation)]

end MetricLayer
