import MetricLayer.Rollup.Refresh
import MetricLayer.Service.Basic

/-!
# Rollups of a stored table

While a rollup is refreshed its status is `building`; how the refresh ended is
recorded on the definition that is stored by then. If the refresh is dropped,
the status is put back; if the definition was changed meanwhile, it keeps its
changes and becomes stale; if it was deleted, it stays deleted.
-/

namespace MetricLayer.Service

variable (service : Service)

def listRollups (table : String) : Act (List RollupDefinition) := do
  let c ← loadCatalog table
  pure c.rollups

def getRollup (table id : String) : Act RollupDefinition := do
  let c ← loadCatalog table
  match c.find? id with
  | none => throw (.unknown id)
  | some r => pure r

def createRollup (table : String) (definition : RollupDefinition) : Act RollupDefinition := do
  let r ← loadRegistry table
  let s ← get
  editCatalog table (·.create r s.now definition)

def updateRollup (table id : String) (change : RollupUpdate) : Act RollupDefinition := do
  let r ← loadRegistry table
  let s ← get
  editCatalog table (·.update r s.now id change)

def deleteRollup (table id : String) : Act RollupDefinition := editCatalog table (·.delete id)

/-- The statement that builds a rollup, as it would run now. -/
def previewRollup (table id : String) : Act Sql.Statement := do
  let r ← loadRegistry table
  let definition ← getRollup table id
  let optimized ← loadOptimized table
  (RollupSource.ofRegistry r service.dialect optimized).statement definition

def rollupKey (table id : String) : String := "rollup:" ++ table ++ ":" ++ id

/-- Mark a rollup as building, and answer it as it was. -/
def beginBuild (id : String) (c : RollupCatalog) :
    Except Error (RollupDefinition × RollupCatalog) :=
  match c.find? id with
  | none => .error (.unknown id)
  | some r => .ok (r, c.modify id fun r => { r with build := r.build.markBuilding })

/-- Put a build state back, unless the refresh is not under way any more. -/
def restoreRollup (id : String) (previous : BuildState) (c : RollupCatalog) : RollupCatalog :=
  c.modify id fun r => if r.build.status = .building then { r with build := previous } else r

/-- Take over how the build of `built` ended. -/
def recordBuild (built : RollupDefinition) (c : RollupCatalog) : RollupCatalog :=
  c.modify built.id fun stored =>
    let build := if stored.sameLayout built then built.build else built.build.markStale
    { stored with build }

def refreshRollup (table id : String) : Task RollupDefinition := do
  claim (rollupKey table id)
  let r ← (loadRegistry table : Act Registry)
  let optimized ← (loadOptimized table : Act (Option OptimizedSource))
  let definition ← (editCatalog table (beginBuild id) : Act RollupDefinition)
  Work.protect
    (after (editCatalog table fun c => .ok ((), restoreRollup id definition.build c)))
  let (result, built) ← definition.refresh (.ofRegistry r service.dialect optimized) (·.now)
  Work.release
  (editCatalog table fun c => .ok ((), recordBuild built c) : Act Unit)
  let _ ← result
  pure built

end MetricLayer.Service
