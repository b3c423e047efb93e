import MetricLayer.Ranking
import MetricLayer.Registry.Basic
import MetricLayer.Warehouse.Questions

/-!
# Columns to cluster by

An optimized source is clustered by the columns that queries group by, those
with most values first. Dates are left to partitions.
-/

namespace MetricLayer

/-- The columns of dimensions that can be grouped by and hold no dates, each
once, in the order of the dimensions. -/
def Registry.clusterCandidates (r : Registry) : List String :=
  ((r.dimensions.filter fun d =>
      d.isGroupable && d.dataType != .date && d.columnName != r.dateColumn).map
    (·.columnName)).eraseDups

/-- At most `most` columns to cluster by. Columns with equally many values stay
in the order of the dimensions. -/
def Work.clusterColumns {σ : Type} (r : Registry) (most : UInt64) : Work σ (List String) :=
  let candidates := r.clusterCandidates
  if candidates.isEmpty || most == 0 then pure []
  else do
    let cardinalities ← counts (candidates.map (cardinalityQuery r.sourceTable))
    pure (((ranked (·.2) (candidates.zip cardinalities)).take most.toNat).map (·.1))

end MetricLayer
