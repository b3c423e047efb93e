import MetricLayer.Json.Decode

/-!
# Dimensions

A dimension is a column by which metrics are grouped and filtered, or an
expression over the columns of one row.
-/

namespace MetricLayer

inductive DataType where
  | string
  | integer
  | float
  | date
  | boolean
  deriving DecidableEq, Repr

namespace DataType

def name : DataType → String
  | .string => "STRING"
  | .integer => "INTEGER"
  | .float => "FLOAT"
  | .date => "DATE"
  | .boolean => "BOOLEAN"

def all : List DataType := [.string, .integer, .float, .date, .boolean]

def ofName? (s : String) : Option DataType := all.find? (·.name == s)

theorem ofName?_name (t : DataType) : ofName? t.name = some t := by cases t <;> decide

def toJson (t : DataType) : Json := .text t.name

def ofJson : Json → Except Json.Fault DataType := Json.asVariant ofName?

end DataType

structure Dimension where
  id : String
  displayName : Option String := none
  description : Option String := none
  columnName : String
  dataType : DataType := .string
  isFilterable : Bool := true
  isGroupable : Bool := true
  deriving DecidableEq, Repr

structure CalculatedDimension where
  id : String
  displayName : Option String := none
  description : Option String := none
  sqlExpression : String
  /-- What the expression was last compiled to, and the columns it then named. -/
  compiledSql : String := ""
  dependsOn : List String := []
  dataType : DataType := .string
  isFilterable : Bool := true
  isGroupable : Bool := true
  deriving DecidableEq, Repr

end MetricLayer
