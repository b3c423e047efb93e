import MetricLayer.Optimized.Cluster
import MetricLayer.Optimized.Refresh
import MetricLayer.Optimized.Staleness
import MetricLayer.Service.Metrics

/-!
# The optimized source of a stored table

The plan of an optimized source follows the metrics and dimensions of its table.
While it is refreshed its status is `building`; how the refresh ended is recorded
on what is stored by then. If the refresh is dropped, the status is put back, and
if the plan has changed meanwhile, the source becomes stale.
-/

namespace MetricLayer.Service

variable (service : Service)

/-- A plan with these key columns and cluster columns. A source that was built by
another plan becomes stale. -/
def replan (plan : OptimizedSource) (keyMappings : List KeyMapping)
    (clusterColumns : List String) : OptimizedSource :=
  if keyMappings != plan.keyMappings || clusterColumns != plan.clusterColumns then
    { plan with keyMappings, clusterColumns, build := plan.build.markStale }
  else plan

/-- The stored plan, or a new one, is brought up to date and saved. -/
def storePlan (table : String) (r : Registry) (keyMappings : List KeyMapping)
    (clusterColumns : List String) : Act OptimizedSource := do
  let stored ← loadOptimized table
  let plan := stored.getD (.ofTable r.sourceTable r.dateColumn service.config.optimizer)
  let plan := replan plan keyMappings clusterColumns
  saveOptimized table plan
  pure plan

def planOptimized (table : String) : Task OptimizedSource := do
  let r ← (loadRegistry table : Act Registry)
  let keyMappings := r.keyMappings service.dialect service.config.optimizer.keyPrefix
  let clusterColumns ← Work.clusterColumns r service.config.optimizer.maxClusterColumns
  service.storePlan table r keyMappings clusterColumns

/-- Change the build state of the stored source, if there is one. -/
def editOptimizedBuild (table : String) (edit : BuildState → BuildState) : Act Unit := do
  match ← loadOptimized table with
  | none => pure ()
  | some stored => saveOptimized table { stored with build := edit stored.build }

/-- Put a build state back, unless the refresh is not under way any more. -/
def restoreBuild (previous current : BuildState) : BuildState :=
  if current.status = .building then previous else current

/-- Save how a refresh ended. A plan that was changed meanwhile is kept. -/
def recordOptimized (table : String) (built : OptimizedSource) : Act Unit := do
  match ← loadOptimized table with
  | none => saveOptimized table built
  | some stored =>
    if stored.samePlan built then saveOptimized table built
    else saveOptimized table { stored with build := built.build.markStale }

def optimizedKey (table : String) : String := "optimized:" ++ table

def refreshOptimized (table : String) (mode : RefreshMode) : Task RefreshSummary := do
  claim (optimizedKey table)
  let stored ← (loadOptimized table : Act (Option OptimizedSource))
  let source ← match stored with
    | some source => pure source
    | none => service.planOptimized table
  (editOptimizedBuild table BuildState.markBuilding : Act Unit)
  Work.protect (after (editOptimizedBuild table (restoreBuild source.build)))
  let (result, built) ← source.refresh (·.now) mode
  Work.release
  (recordOptimized table built : Act Unit)
  Work.change fun s => { s with columns := s.columns.invalidate built.optimizedTable }
  result

def checkStaleness (table : String) : Task Staleness := do
  let stored ← (loadOptimized table : Act (Option OptimizedSource))
  match stored with
  | none => throw (.schema (.noOptimizedSource table))
  | some source => do
    let current ← (service.keyMappings table : Act (List KeyMapping))
    source.checkStaleness current

end MetricLayer.Service
