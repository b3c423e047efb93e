import MetricLayer.Service.Basic

/-!
# Metrics of stored tables

The registry of a table is changed through these calls. A base metric that
changes makes the rollups that hold it stale, and a metric that a rollup holds
cannot be removed.
-/

namespace MetricLayer.Service

variable (service : Service)

def compileFormula (table formula : String) (current : Option String) : Act CompiledFormula := do
  let r ← loadRegistry table
  r.compile service.dialect formula current

def addCalculatedMetric (table : String) (m : CalculatedMetric) : Act CalculatedMetric :=
  editRegistry table (·.addCalculatedMetric service.dialect m)

def updateBaseMetric (table : String) (m : BaseMetric) : Act CascadeOutcome := do
  let outcome ← editRegistry table (·.updateBaseMetric service.dialect m)
  let _ ← editCatalog table fun c => .ok (c.markStaleForMetrics [m.id])
  pure outcome

def updateCalculatedMetric (table : String) (m : CalculatedMetric) : Act CascadeOutcome :=
  editRegistry table (·.updateCalculatedMetric service.dialect m)

def removeMetric (table id : String) : Act Unit := do
  let c ← loadCatalog table
  let holders := c.rollups.filter (RollupCatalog.holdsAny [id])
  if holders.isEmpty then editRegistry table (·.removeMetric id)
  else throw (.schema (.stored id (holders.map (·.id))))

/-- Compile the metrics that rest on `id` again. The registry is saved only if
one of them compiles. -/
def cascade (table id : String) : Act CascadeOutcome := do
  let r ← loadRegistry table
  let outcome ← r.cascade service.dialect id
  if outcome.updated.isEmpty then pure outcome
  else do
    let _ ← save (r.applyCascade outcome)
    pure outcome

def keyMappings (table : String) : Act (List KeyMapping) := do
  let r ← loadRegistry table
  pure (r.keyMappings service.dialect service.config.optimizer.keyPrefix)

end MetricLayer.Service
