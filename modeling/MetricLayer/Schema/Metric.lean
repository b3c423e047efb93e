import MetricLayer.Reference
import MetricLayer.Schema.Aggregation

/-!
# Metrics

A base metric aggregates one or more columns of a table, a calculated metric is
a formula over other metrics, and a system metric comes with every table. A
metric over several columns counts their distinct combinations.
-/

namespace MetricLayer

/-- How the values of a metric are shown. -/
inductive MetricFormat where
  | number
  | percent
  | currency
  | duration
  deriving DecidableEq, Repr

namespace MetricFormat

def name : MetricFormat → String
  | .number => "number"
  | .percent => "percent"
  | .currency => "currency"
  | .duration => "duration"

def all : List MetricFormat := [.number, .percent, .currency, .duration]

def ofName? (s : String) : Option MetricFormat := all.find? (·.name == s)

theorem ofName?_name (f : MetricFormat) : ofName? f.name = some f := by cases f <;> decide

def toJson (f : MetricFormat) : Json := .text f.name

def ofJson : Json → Except Json.Fault MetricFormat := Json.asVariant ofName?

end MetricFormat

structure BaseMetric where
  id : String
  displayName : Option String := none
  description : Option String := none
  sourceColumns : List String
  aggregation : Aggregation
  category : Option String := none
  format : MetricFormat := .number
  decimalPlaces : Option UInt8 := none
  deriving DecidableEq, Repr

structure CalculatedMetric where
  id : String
  displayName : Option String := none
  description : Option String := none
  category : Option String := none
  formula : String
  /-- What the formula was last compiled to, and the metrics it then named. -/
  compiledSql : String := ""
  dependsOnBase : List String := []
  dependsOnCalculated : List String := []
  format : MetricFormat := .number
  deriving DecidableEq, Repr

inductive SystemMetric where
  /-- The days from the earliest to the latest date in scope, both included. -/
  | daysInRange
  deriving DecidableEq, Repr

namespace SystemMetric

def id : SystemMetric → String
  | .daysInRange => "days_in_range"

def all : List SystemMetric := [.daysInRange]

def ofId? (id : String) : Option SystemMetric := all.find? (·.id == id)

end SystemMetric

namespace BaseMetric

/-- Why a base metric is refused. -/
inductive Fault where
  | invalidId (id : String)
  | noColumn (id : String)
  | severalColumns (id : String) (count : Nat)
  deriving DecidableEq, Repr

def isComposite (m : BaseMetric) : Bool := m.sourceColumns.length > 1

def validate (m : BaseMetric) : Except Fault Unit :=
  if !isName m.id then .error (.invalidId m.id)
  else if m.sourceColumns.isEmpty || m.sourceColumns.any (·.isEmpty) then .error (.noColumn m.id)
  else if m.isComposite && !m.aggregation.isDistinct then
    .error (.severalColumns m.id m.sourceColumns.length)
  else .ok ()

end BaseMetric

end MetricLayer
