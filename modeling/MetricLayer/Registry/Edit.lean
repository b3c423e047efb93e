import MetricLayer.Registry.Cascade
import MetricLayer.RowExpression

/-!
# Editing a registry

Each edit takes a registry to its result and the registry afterwards. New
metrics and dimensions are compiled before they are stored; a changed metric is
stored and the metrics that rest on it are then compiled again.
-/

namespace MetricLayer.Registry

/-- What an edit answers, and the registry after it. -/
abbrev Edited (α : Type) := Except Error α × Registry

variable (r : Registry)

/-- An edit that leaves the registry as it is when it fails. -/
def edit (outcome : Except Error (α × Registry)) : Edited α :=
  match outcome with
  | .ok (a, r) => (.ok a, r)
  | .error e => (.error e, r)

def ensureMetricFree (id : String) : Except Error Unit :=
  if (r.metric? id).isSome then .error (.schema (.alreadyThere .metric id)) else .ok ()

def ensureDimensionFree (id : String) : Except Error Unit :=
  if (r.dimension? id).isSome then .error (.schema (.alreadyThere .dimension id)) else .ok ()

def withBaseMetrics (ms : List BaseMetric) : Registry :=
  { r with document := { r.document with baseMetrics := ms } }

def withCalculatedMetrics (ms : List CalculatedMetric) : Registry :=
  { r with document := { r.document with calculatedMetrics := ms } }

def withDimensions (ds : List Dimension) : Registry :=
  { r with document := { r.document with dimensions := ds } }

def withCalculatedDimensions (ds : List CalculatedDimension) : Registry :=
  { r with document := { r.document with calculatedDimensions := ds } }

def addBaseMetric (m : BaseMetric) : Edited Unit :=
  r.edit do
    m.validate.mapError Error.baseMetric
    r.ensureMetricFree m.id
    .ok ((), r.withBaseMetrics (r.baseMetrics ++ [m]))

/-- The metrics resting on `id` are compiled again and stored. -/
def cascadeAndApply (d : Sql.Dialect) (id : String) : Edited CascadeOutcome :=
  r.edit do
    let outcome ← r.cascade d id
    .ok (outcome, r.applyCascade outcome)

def putBase (m : BaseMetric) : Registry :=
  r.withBaseMetrics (r.baseMetrics.map fun old => if old.id == m.id then m else old)

def updateBaseMetric (d : Sql.Dialect) (m : BaseMetric) : Edited CascadeOutcome :=
  match m.validate with
  | .error fault => (.error (.baseMetric fault), r)
  | .ok () =>
    if (r.baseMetric? m.id).isNone then (.error (.unknown m.id), r)
    else (r.putBase m).cascadeAndApply d m.id

def addCalculatedMetric (d : Sql.Dialect) (m : CalculatedMetric) : Edited CalculatedMetric :=
  r.edit do
    checkId m.id
    r.ensureMetricFree m.id
    let c ← r.compile d m.formula (some m.id)
    let m := m.withCompiled c
    .ok (m, r.withCalculatedMetrics (r.calculatedMetrics ++ [m]))

def updateCalculatedMetric (d : Sql.Dialect) (m : CalculatedMetric) : Edited CascadeOutcome :=
  if (r.calculatedMetric? m.id).isNone then (.error (.unknown m.id), r)
  else match r.compile d m.formula (some m.id) with
    | .error e => (.error e, r)
    | .ok c => (r.putCalculated (m.withCompiled c)).cascadeAndApply d m.id

/-- A metric goes only if no calculated metric refers to it. -/
def removeMetric (id : String) : Edited Unit :=
  r.edit do
    let dependents := (DependencyGraph.ofRegistry r).dependents id
    if !dependents.isEmpty then .error (.schema (.referenced id dependents))
    else if (r.baseMetric? id).isNone && (r.calculatedMetric? id).isNone then .error (.unknown id)
    else
      .ok ((), (r.withBaseMetrics (r.baseMetrics.filter (·.id != id))).withCalculatedMetrics
        (r.calculatedMetrics.filter (·.id != id)))

def addDimension (dim : Dimension) : Edited Unit :=
  r.edit do
    checkId dim.id
    r.ensureDimensionFree dim.id
    .ok ((), r.withDimensions (r.dimensions ++ [dim]))

/-- Answers the warnings about the expression. -/
def addCalculatedDimension (d : Sql.Dialect) (dim : CalculatedDimension) :
    Edited (List String) :=
  r.edit do
    checkId dim.id
    r.ensureDimensionFree dim.id
    let c ← RowExpression.compile d dim.sqlExpression
    let dim := { dim with compiledSql := c.sql, dependsOn := c.dependsOn }
    .ok (c.warnings, r.withCalculatedDimensions (r.calculatedDimensions ++ [dim]))

def removeDimension (id : String) : Edited Unit :=
  r.edit do
    if (r.dimension? id).isNone then .error (.unknown id)
    else
      .ok ((), (r.withDimensions (r.dimensions.filter (·.id != id))).withCalculatedDimensions
        (r.calculatedDimensions.filter (·.id != id)))

def revalidateMetric (d : Sql.Dialect) (m : CalculatedMetric) :
    CalculatedMetric × Option (String × Error) :=
  match r.compile d m.formula (some m.id) with
  | .ok c => (m.withCompiled c, none)
  | .error e => (m, some (m.id, e))

def revalidateDimension (d : Sql.Dialect) (dim : CalculatedDimension) :
    CalculatedDimension × Option (String × Error) :=
  match RowExpression.compile d dim.sqlExpression with
  | .ok c => ({ dim with compiledSql := c.sql, dependsOn := c.dependsOn }, none)
  | .error e => (dim, some (dim.id, e))

/-- Compile every calculated metric and dimension again. Those that fail keep
what they last compiled to and are listed. -/
def validateAll (d : Sql.Dialect) : List (String × Error) × Registry :=
  let metrics := r.calculatedMetrics.map (r.revalidateMetric d)
  let dimensions := r.calculatedDimensions.map (revalidateDimension d)
  (metrics.filterMap (·.2) ++ dimensions.filterMap (·.2),
    (r.withCalculatedMetrics (metrics.map (·.1))).withCalculatedDimensions
      (dimensions.map (·.1)))

end MetricLayer.Registry
