import MetricLayer.Json.Decode

/-!
# Aggregations
-/

namespace MetricLayer

/-- How the rows of a group become one value. -/
inductive Aggregation where
  | sum
  | count
  | avg
  | min
  | max
  | countDistinct
  | approxCountDistinct
  deriving DecidableEq, Repr

namespace Aggregation

/-- A distinct count of a coarser group is not the sum of those of its parts. -/
def isDistinct : Aggregation → Bool
  | .countDistinct | .approxCountDistinct => true
  | _ => false

def name : Aggregation → String
  | .sum => "SUM"
  | .count => "COUNT"
  | .avg => "AVG"
  | .min => "MIN"
  | .max => "MAX"
  | .countDistinct => "COUNT_DISTINCT"
  | .approxCountDistinct => "APPROX_COUNT_DISTINCT"

def all : List Aggregation :=
  [.sum, .count, .avg, .min, .max, .countDistinct, .approxCountDistinct]

def ofName? (s : String) : Option Aggregation := all.find? (·.name == s)

theorem ofName?_name (a : Aggregation) : ofName? a.name = some a := by cases a <;> decide

def toJson (a : Aggregation) : Json := .text a.name

def ofJson : Json → Except Json.Fault Aggregation := Json.asVariant ofName?

end Aggregation

end MetricLayer
