import MetricLayer.Schema.Dimension
import MetricLayer.Schema.Metric
import MetricLayer.Time.Timestamp

/-!
# Schema documents

What is stored of one table: where its rows come from, its metrics and its
dimensions, and the version of all this.
-/

namespace MetricLayer

structure SchemaDocument where
  table : String
  sourceTable : String
  dateColumn : String := "date"
  baseMetrics : List BaseMetric := []
  calculatedMetrics : List CalculatedMetric := []
  dimensions : List Dimension := []
  calculatedDimensions : List CalculatedDimension := []
  version : UInt64 := 0
  createdAt : Option Timestamp := none
  updatedAt : Option Timestamp := none
  deriving DecidableEq, Repr

end MetricLayer
