import MetricLayer.Service.Basic
import MetricLayer.Warehouse.Questions

/-!
# Checks against the warehouse

The columns that a registry names must be columns of its table, and an
expression must be one that the warehouse would run. The columns of a table are
asked for once and then kept for a while.
-/

namespace MetricLayer

/-- Every column that a registry names, in the order of its document, the date
column first. -/
def Registry.namedColumns (r : Registry) : List String :=
  r.dateColumn :: (r.baseMetrics.flatMap (·.sourceColumns) ++
    r.dimensions.map (·.columnName) ++ r.calculatedDimensions.flatMap (·.dependsOn))

namespace Service

variable (service : Service)

/-- The columns of a table, kept ones if there are any. -/
def ensureColumns (table : String) : Task TableColumns := do
  let kept ← Work.view fun s => s.columns.get? table
  match kept with
  | some columns => pure columns
  | none => do
    let columns ← Work.fetchColumns table
    Work.change fun s => { s with columns := s.columns.insert table columns }
    pure columns

/-- Columns that are missing are an error, unless they are let pass. -/
def checkMissing (missing : List String) : Except Error Unit :=
  if missing.isEmpty || service.config.validation.warnOnly then .ok ()
  else .error (.unknownReferences missing)

def validateExpression (table expression : String) : Task RowExpression.Compiled := do
  let r ← (loadRegistry table : Act Registry)
  let compiled ← RowExpression.compile service.dialect expression
  let columns ← ensureColumns r.sourceTable
  service.checkMissing (compiled.dependsOn.filter fun name => !columns.has name)
  if service.config.validation.dryRun then
    let refused ← (Work.call (.dryRun (.probe r.sourceTable compiled.sql))).attempt
    refused.mapError Error.asWarehouse
    pure compiled
  else pure compiled

def validateColumns (table : String) : Task Unit := do
  let r ← (loadRegistry table : Act Registry)
  let columns ← ensureColumns r.sourceTable
  service.checkMissing (r.namedColumns.filter fun name => !columns.has name).eraseDups

end Service

end MetricLayer
