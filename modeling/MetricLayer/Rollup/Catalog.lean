import MetricLayer.Registry.Graph
import MetricLayer.Rollup.Definition

/-!
# The rollups of a table

Rollups are kept in the order of their creation. A new or changed rollup must
group by known dimensions and hold base metrics, each once; a rollup that was
built becomes stale when its dimensions or metrics change, or when a metric that
it holds does.
-/

namespace MetricLayer

/-- What is to change in a rollup. -/
structure RollupUpdate where
  displayName : Option String := none
  description : Option String := none
  dimensions : Option (List String) := none
  metrics : Option (List RollupMetric) := none
  targetTableName : Option String := none

structure RollupCatalog where
  rollups : List RollupDefinition := []
  deriving DecidableEq, Repr

namespace RollupCatalog

def checkDimensions (r : Registry) (dimensions : List String) : Except Error Unit := do
  let _ ← dimensions.foldlM (fun (seen : List String) id =>
    if seen.contains id then .error (.schema (.listedTwice .dimension id))
    else if (r.dimension? id).isNone then .error (.schema (.unknown .dimension id))
    else .ok (id :: seen)) []
  .ok ()

def checkMetric (r : Registry) (m : RollupMetric) : Except Error Unit :=
  if (r.baseMetric? m.metricId).isNone then
    if (r.calculatedMetric? m.metricId).isSome then
      .error (.schema (.calculatedMetric m.metricId
        ((DependencyGraph.ofRegistry r).transitiveBases m.metricId)))
    else .error (.schema (.unknown .metric m.metricId))
  else if m.includeConditional && m.flag?.isNone then .error (.schema (.noFlagColumn m.metricId))
  else .ok ()

def checkMetrics (r : Registry) (metrics : List RollupMetric) : Except Error Unit := do
  let _ ← metrics.foldlM (fun (seen : List String) m =>
    if seen.contains m.metricId then .error (.schema (.listedTwice .metric m.metricId))
    else do
      checkMetric r m
      .ok (m.metricId :: seen)) []
  .ok ()

/-- What a rollup groups by and holds must be there in the registry. -/
def checkShape (r : Registry) (dimensions : List String) (metrics : List RollupMetric) :
    Except Error Unit :=
  if dimensions.isEmpty then .error (.schema .noDimensions)
  else if metrics.isEmpty then .error (.schema .noMetrics)
  else do
    checkDimensions r dimensions
    checkMetrics r metrics

variable (c : RollupCatalog)

def find? (id : String) : Option RollupDefinition := c.rollups.find? (·.id == id)

/-- Change the first rollup of that id. -/
def modify (id : String) (change : RollupDefinition → RollupDefinition) : RollupCatalog :=
  ⟨go c.rollups⟩
where
  go : List RollupDefinition → List RollupDefinition
    | [] => []
    | r :: rest => if r.id == id then change r :: rest else r :: go rest

def create (r : Registry) (now : Timestamp) (definition : RollupDefinition) :
    Except Error (RollupDefinition × RollupCatalog) := do
  Registry.checkId definition.id
  if (c.find? definition.id).isSome then
    .error (.schema (.alreadyThere .rollup definition.id))
  else
    checkShape r definition.dimensions definition.metrics
    let targetTableName :=
      if Text.isBlankText definition.targetTableName then
        defaultTargetTable r.sourceTable definition.id
      else definition.targetTableName
    let created :=
      { definition with targetTableName, createdAt := some now, updatedAt := some now }
    .ok (created, ⟨c.rollups ++ [created]⟩)

/-- A rollup after a change that is allowed. -/
def updated (current : RollupDefinition) (change : RollupUpdate) (now : Timestamp) :
    RollupDefinition :=
  let dimensions := change.dimensions.getD current.dimensions
  let metrics := change.metrics.getD current.metrics
  let shapeChanged := dimensions != current.dimensions || metrics != current.metrics
  { current with
    displayName := change.displayName.or current.displayName
    description := change.description.or current.description
    targetTableName :=
      (change.targetTableName.filter (!Text.isBlankText ·)).getD current.targetTableName
    dimensions
    metrics
    build := if shapeChanged then current.build.markStale else current.build
    updatedAt := some now }

def update (r : Registry) (now : Timestamp) (id : String) (change : RollupUpdate) :
    Except Error (RollupDefinition × RollupCatalog) :=
  match c.find? id with
  | none => .error (.unknown id)
  | some current => do
    checkShape r (change.dimensions.getD current.dimensions)
      (change.metrics.getD current.metrics)
    .ok (updated current change now, c.modify id fun current => updated current change now)

def removeFirst (id : String) : List RollupDefinition → List RollupDefinition
  | [] => []
  | r :: rest => if r.id == id then rest else r :: removeFirst id rest

def delete (id : String) : Except Error (RollupDefinition × RollupCatalog) :=
  match c.find? id with
  | none => .error (.unknown id)
  | some r => .ok (r, ⟨removeFirst id c.rollups⟩)

/-- Whether a rollup holds one of these metrics. -/
def holdsAny (ids : List String) (r : RollupDefinition) : Bool :=
  r.metrics.any fun m => ids.contains m.metricId

/-- Mark the rollups that hold one of these metrics stale, and list them. -/
def markStaleForMetrics (ids : List String) : List String × RollupCatalog :=
  ((c.rollups.filter (holdsAny ids)).map (·.id),
    ⟨c.rollups.map fun r =>
      if holdsAny ids r then { r with build := r.build.markStale } else r⟩)

end RollupCatalog

end MetricLayer
