import MetricLayer.Optimized.Source
import MetricLayer.Ranking
import MetricLayer.Registry.Graph
import MetricLayer.Rollup.Definition
import MetricLayer.Route.Request

/-!
# Which table answers a request

A rollup can answer a request if it is ready, groups by every dimension that the
request names and holds every metric that it needs; a calculated metric needs
the base metrics that it rests on. Distinct counts cannot be added up, so they
only come from a rollup that groups by no other dimensions. Of the rollups that
can answer, the one with the highest score does.
-/

namespace MetricLayer

structure Router where
  registry : Registry
  rollups : List RollupDefinition
  optimized : Option OptimizedSource := none
  config : RouterConfig := {}

/-- What a request needs from a table. -/
structure RouteNeeds where
  /-- The dimensions grouped or filtered by, as a sorted set. -/
  dimensions : List String := []
  /-- The columns of metrics, as a sorted set. -/
  columns : List String := []
  hasDistinct : Bool := false
  /-- The first metric that no rollup can serve. -/
  unroutable : Option String := none

/-- The part of an id before the ending of flagged columns, if there is one. -/
def unflagged? (id : String) : Option String :=
  let cs := id.toList.reverse
  let ending := flaggedSuffix.toList.reverse
  if ending.isPrefixOf cs && cs.length > ending.length then
    some (String.ofList (cs.drop ending.length).reverse)
  else none

/-- What one requested metric stands for. -/
inductive RequestedMetric where
  /-- A column of this base metric, over all rows or over flagged ones. -/
  | base (metric : BaseMetric)
  | calculated (metric : CalculatedMetric)
  | system
  | unknown

namespace CalculatedMetric

/-- Whether the formula itself refers to a system metric. -/
def readsSystemMetric (m : CalculatedMetric) : Bool :=
  match extractReferences m.formula with
  | .ok references => references.any fun r => (SystemMetric.ofId? r.name).isSome
  | .error _ => false

end CalculatedMetric

namespace Registry

def requested (r : Registry) (id : String) : RequestedMetric :=
  match r.metric? id with
  | some (.base m) => .base m
  | some (.calculated m) => .calculated m
  | some (.system _) => .system
  | none =>
    match (unflagged? id).bind r.baseMetric? with
    | some m => .base m
    | none => .unknown

/-- Whether a calculated metric or one that it rests on refers to a system
metric. -/
def usesSystemMetric (r : Registry) (id : String) : Bool :=
  ((DependencyGraph.ofRegistry r).reachable id).any fun other =>
    (r.calculatedMetric? other).any (·.readsSystemMetric)

end Registry

namespace RouteNeeds

/-- What is needed for one more metric. -/
def addMetric (r : Registry) (needs : RouteNeeds) (id : String) : RouteNeeds :=
  match r.requested id with
  | .base m =>
    { needs with
      columns := insertSorted id needs.columns
      hasDistinct := needs.hasDistinct || m.aggregation.isDistinct }
  | .calculated m =>
    let bases := (DependencyGraph.ofRegistry r).transitiveBases m.id
    { needs with
      columns := bases.foldl (fun columns base => insertSorted base columns) needs.columns
      hasDistinct := needs.hasDistinct ||
        bases.any fun base => (r.baseMetric? base).any (·.aggregation.isDistinct)
      unroutable :=
        if r.usesSystemMetric m.id then needs.unroutable.or (some id) else needs.unroutable }
  | .system => { needs with unroutable := needs.unroutable.or (some id) }
  | .unknown => needs

/-- The ids of a request that mean nothing, dimensions once each and before
metrics. -/
def unknownIds (r : Registry) (request : RouteRequest) : List String :=
  (request.allDimensions.filter fun id => (r.dimension? id).isNone).eraseDups ++
    request.metrics.filter fun id =>
      match r.requested id with
      | .unknown => true
      | _ => false

def ofRequest (r : Registry) (request : RouteRequest) : Except Error RouteNeeds :=
  let unknown := unknownIds r request
  if !unknown.isEmpty then .error (.unknownReferences unknown)
  else
    .ok (request.metrics.foldl (addMetric r) { dimensions := sortedSet request.allDimensions })

end RouteNeeds

namespace Router

variable (router : Router)

/-- The score of a rollup that can answer. -/
def score? (needs : RouteNeeds) (rollup : RollupDefinition) : Option Int64 :=
  let dimensions := sortedSet rollup.dimensions
  let exact := dimensions.length == needs.dimensions.length
  if needs.unroutable.isSome || !rollup.build.isReady ||
      !needs.dimensions.all dimensions.contains ||
      !needs.columns.all rollup.availableMetrics.contains ||
      (needs.hasDistinct && !exact) then none
  else
    let extra := Int64.ofNat (dimensions.length - needs.dimensions.length)
    let score := router.config.baseScore - extra * router.config.extraDimensionPenalty
    some (if exact then score + router.config.exactMatchBonus else score)

def candidate? (needs : RouteNeeds) (rollup : RollupDefinition) : Option RollupCandidate :=
  (router.score? needs rollup).map fun score =>
    { rollupId := rollup.id
      score
      needsReaggregation := rollup.dimensions.length > needs.dimensions.length }

/-- The rollups that can answer, the best first. -/
def candidates (needs : RouteNeeds) : List RollupCandidate :=
  ranked (·.score) (router.rollups.filterMap (router.candidate? needs))

/-- The score of a rollup, or -1 if it cannot answer. -/
def score (rollup : RollupDefinition) (request : RouteRequest) : Except Error Int64 := do
  let needs ← RouteNeeds.ofRequest router.registry request
  .ok ((router.score? needs rollup).getD (-1))

def findSuitableRollups (request : RouteRequest) : Except Error (List RollupCandidate) := do
  let needs ← RouteNeeds.ofRequest router.registry request
  .ok (router.candidates needs)

/-- The table of the first rollup of this id. -/
def tableOf (rollupId : String) : String :=
  ((router.rollups.find? (·.id == rollupId)).map (·.targetTableName)).getD ""

def toRollup (best : RollupCandidate) : RouteDecision :=
  { rollup := some best
    reason := if best.needsReaggregation then .reaggregated best.rollupId else .exact best.rollupId
    target := .rollup
    table := router.tableOf best.rollupId }

/-- The optimized source if it is ready, and the raw table otherwise. -/
def withoutRollup (reason : RouteReason) : RouteDecision :=
  match router.optimized.filter (·.build.isReady) with
  | some o => { rollup := none, reason, target := .optimized, table := o.optimizedTable }
  | none => { rollup := none, reason, target := .raw, table := router.registry.sourceTable }

def reasonAgainst (needs : RouteNeeds) : RouteReason :=
  match needs.unroutable with
  | some metric => .unroutable metric
  | none => if needs.hasDistinct then .noExactRollup else .noRollup

def route (request : RouteRequest) : Except Error RouteDecision := do
  let needs ← RouteNeeds.ofRequest router.registry request
  match router.candidates needs with
  | best :: _ => .ok (router.toRollup best)
  | [] =>
    if request.requireRollup && needs.hasDistinct then
      .error (.routingInfeasible needs.dimensions)
    else .ok (router.withoutRollup (reasonAgainst needs))

end Router

end MetricLayer
