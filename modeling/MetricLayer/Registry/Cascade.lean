import MetricLayer.Formula.Compile

/-!
# Cascades

When a metric changes, the calculated metrics that rest on it are compiled
again, each after those that it refers to. One that no longer compiles is set
aside and does not keep the others from going on.
-/

namespace MetricLayer

namespace CalculatedMetric

/-- The metric with what its formula compiles to now. -/
def withCompiled (m : CalculatedMetric) (c : CompiledFormula) : CalculatedMetric :=
  { m with
    compiledSql := c.sql
    dependsOnBase := c.dependsOnBase
    dependsOnCalculated := c.dependsOnCalculated }

end CalculatedMetric

structure CascadeOutcome where
  /-- The metrics compiled again, each after those it refers to. -/
  updated : List CalculatedMetric := []
  /-- The metrics that no longer compile, each with the reason. -/
  skipped : List (String × Error) := []

namespace Registry

/-- Compile one metric again. -/
def recompile (r : Registry) (d : Sql.Dialect) (outcome : CascadeOutcome) (id : String) :
    CascadeOutcome :=
  match r.calculatedMetric? id with
  | none => outcome
  | some m =>
    match r.compile d m.formula (some id) with
    | .ok c => { outcome with updated := outcome.updated ++ [m.withCompiled c] }
    | .error e => { outcome with skipped := outcome.skipped ++ [(id, e)] }

/-- The metrics that rest on `id`, compiled again. The registry stays as it is. -/
def cascade (r : Registry) (d : Sql.Dialect) (id : String) : Except Error CascadeOutcome :=
  if (r.baseMetric? id).isNone && (r.calculatedMetric? id).isNone then .error (.unknown id)
  else do
    let g := DependencyGraph.ofRegistry r
    let order ← g.topologicalOrder (g.transitiveDependents id)
    .ok (order.foldl (r.recompile d) {})

def putCalculated (r : Registry) (m : CalculatedMetric) : Registry :=
  { r with document := { r.document with
      calculatedMetrics := r.calculatedMetrics.map fun old => if old.id == m.id then m else old } }

/-- Write the metrics of a cascade back. -/
def applyCascade (r : Registry) (outcome : CascadeOutcome) : Registry :=
  outcome.updated.foldl putCalculated r

end Registry

end MetricLayer
