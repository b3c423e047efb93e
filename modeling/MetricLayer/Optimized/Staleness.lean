import MetricLayer.Optimized.Source
import MetricLayer.Warehouse.Questions

/-!
# Staleness of an optimized source

An optimized source is stale if it is not ready, if its key columns are not the
ones that metrics ask for now, or if its table has later dates than the copy.
-/

namespace MetricLayer

/-- Why an optimized source is stale. -/
inductive StaleReason where
  | notReady (status : BuildStatus)
  | notMaterialized (keyColumn : String)
  | noLongerUsed (keyColumn : String)
  | behind (source optimized : Option Date)
  deriving DecidableEq

/-- A date as it stands in a reason. -/
def shownDate (date : Option Date) : String := (date.map Date.text).getD "(empty)"

def StaleReason.text : StaleReason → String
  | .notReady status => s!"optimized source is {status.name}"
  | .notMaterialized key => s!"key column {key} is not materialized"
  | .noLongerUsed key => s!"key column {key} is no longer used"
  | .behind source optimized =>
    s!"source has data through {shownDate source} but optimized source only through " ++
      shownDate optimized

structure Staleness where
  reasons : List StaleReason := []
  sourceMaxDate : Option Date := none
  optimizedMaxDate : Option Date := none
  deriving DecidableEq

def Staleness.isStale (s : Staleness) : Bool := !s.reasons.isEmpty

/-- Whether one table reaches beyond another. A table without dates reaches
nowhere. -/
def reachesBeyond : Option Date → Option Date → Bool
  | some a, some b => decide (b < a)
  | some _, none => true
  | none, _ => false

namespace OptimizedSource

/-- Each key column with the columns it combines, in the order of columns within
that of names. -/
def keySet (mappings : List KeyMapping) : List (List String) :=
  sortedSet (mappings.map fun m => m.keyColumnName :: m.sourceColumns)

/-- The reasons that need no warehouse, given the key columns asked for now. -/
def planReasons (s : OptimizedSource) (current : List KeyMapping) : List StaleReason :=
  let wanted := keySet current
  let materialized := keySet s.keyMappings
  (if s.build.isReady then [] else [.notReady s.build.status]) ++
    (without wanted materialized).map (fun key => .notMaterialized (key.headD "")) ++
    (without materialized wanted).map (fun key => .noLongerUsed (key.headD ""))

def checkStaleness {σ : Type} (s : OptimizedSource) (current : List KeyMapping) :
    Work σ Staleness := do
  let reasons := s.planReasons current
  let sourceMaxDate ← Work.maxPartition s.sourceTable s.partitionColumn
  if s.build.isReady then
    let optimizedMaxDate ← Work.maxPartition s.optimizedTable s.partitionColumn
    let lag :=
      if reachesBeyond sourceMaxDate optimizedMaxDate then
        [.behind sourceMaxDate optimizedMaxDate]
      else []
    pure { reasons := reasons ++ lag, sourceMaxDate, optimizedMaxDate }
  else pure { reasons, sourceMaxDate }

end OptimizedSource

end MetricLayer
