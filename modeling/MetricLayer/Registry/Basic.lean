import MetricLayer.Error
import MetricLayer.Schema.Document

/-!
# Registries

A registry is a schema document whose ids are well formed and used once: base
and calculated metrics share one set of ids, which the system metrics are no
part of, and the two kinds of dimension share another. `Registry.ofDocument`
checks this; what calculated metrics and dimensions were last compiled to is
taken as it is.
-/

namespace MetricLayer

structure Registry where
  document : SchemaDocument
  deriving DecidableEq, Repr

/-- What a metric id stands for. -/
inductive MetricKind where
  | base (metric : BaseMetric)
  | calculated (metric : CalculatedMetric)
  | system (metric : SystemMetric)

/-- What a dimension id stands for. -/
inductive DimensionKind where
  | column (dimension : Dimension)
  | calculated (dimension : CalculatedDimension)

namespace Registry

def empty (table sourceTable : String) : Registry := ⟨{ table, sourceTable }⟩

def checkId (id : String) : Except Error Unit :=
  if isName id then .ok () else .error (.invalidId id)

/-- The ids seen, with one more that must not be among them. -/
def claimId (entity : Entity) (seen : List String) (id : String) : Except Error (List String) :=
  if seen.contains id then .error (.schema (.duplicate entity id)) else .ok (id :: seen)

def checkMetrics (document : SchemaDocument) : Except Error Unit := do
  let ids ← document.baseMetrics.foldlM (fun seen m => do
    m.validate.mapError Error.baseMetric
    claimId .metric seen m.id) []
  let ids ← document.calculatedMetrics.foldlM (fun seen m => do
    checkId m.id
    claimId .metric seen m.id) ids
  match SystemMetric.all.find? fun s => ids.contains s.id with
  | some s => .error (.schema (.reserved s.id))
  | none => .ok ()

def checkDimensions (document : SchemaDocument) : Except Error Unit := do
  let ids ← document.dimensions.foldlM (fun seen d => do
    checkId d.id
    claimId .dimension seen d.id) []
  let _ ← document.calculatedDimensions.foldlM (fun seen d => do
    checkId d.id
    claimId .dimension seen d.id) ids
  .ok ()

def ofDocument (document : SchemaDocument) : Except Error Registry := do
  checkMetrics document
  checkDimensions document
  .ok ⟨document⟩

variable (r : Registry)

abbrev table : String := r.document.table

abbrev sourceTable : String := r.document.sourceTable

abbrev dateColumn : String := r.document.dateColumn

abbrev baseMetrics : List BaseMetric := r.document.baseMetrics

abbrev calculatedMetrics : List CalculatedMetric := r.document.calculatedMetrics

abbrev dimensions : List Dimension := r.document.dimensions

abbrev calculatedDimensions : List CalculatedDimension := r.document.calculatedDimensions

def baseMetric? (id : String) : Option BaseMetric := r.baseMetrics.find? (·.id == id)

def calculatedMetric? (id : String) : Option CalculatedMetric :=
  r.calculatedMetrics.find? (·.id == id)

def metric? (id : String) : Option MetricKind :=
  match r.baseMetric? id with
  | some m => some (.base m)
  | none =>
    match r.calculatedMetric? id with
    | some m => some (.calculated m)
    | none => (SystemMetric.ofId? id).map .system

def dimension? (id : String) : Option DimensionKind :=
  match r.dimensions.find? (·.id == id) with
  | some d => some (.column d)
  | none => (r.calculatedDimensions.find? (·.id == id)).map .calculated

end Registry

end MetricLayer
