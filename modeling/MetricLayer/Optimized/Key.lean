import MetricLayer.Formula.Compile
import MetricLayer.Sql.CompositeKey
import MetricLayer.Text.LowerCase
import MetricLayer.Text.Blank

/-!
# Key columns

A metric over several columns counts their distinct combinations. An optimized
source has one column for each set of columns that some metric combines, named
after the set. Sets of columns are compared in lower case, without the blanks
around names and without regard to order.
-/

namespace MetricLayer

/-- The columns in increasing order, in lower case, each once. -/
def normalizeColumns (columns : List String) : List String :=
  sortedSet (columns.map fun c => Text.lowerCase (String.ofList (Text.trim c.toList)))

def keyColumnName (prefixText : String) (columns : List String) : String :=
  prefixText ++ "_".intercalate (normalizeColumns columns)

/-- A column that stands for a combination of others. -/
structure KeyMapping where
  keyColumnName : String
  /-- The columns that are combined, normalized. -/
  sourceColumns : List String
  /-- The metrics that combine them, in increasing order. -/
  metricIds : List String
  deriving DecidableEq, Repr

namespace KeyMapping

def toJson (m : KeyMapping) : Json :=
  .ofFields [
    ("key_column_name", .text m.keyColumnName),
    ("source_columns", .texts m.sourceColumns),
    ("metric_ids", .texts m.metricIds)]

def readField (m : KeyMapping) (name : String) (v : Json) : Except Json.Fault KeyMapping :=
  match name with
  | "key_column_name" => do
    let keyColumnName ← v.asText
    .ok { m with keyColumnName }
  | "source_columns" => do
    let sourceColumns ← v.asTexts
    .ok { m with sourceColumns }
  | "metric_ids" => do
    let metricIds ← v.asTexts
    .ok { m with metricIds }
  | _ => .ok m

def ofJson (v : Json) : Except Json.Fault KeyMapping := do
  let fields ← v.asFields
  let m ← Json.readFields ⟨"", [], []⟩ readField fields
  Json.require ["key_column_name", "source_columns", "metric_ids"] fields
  .ok m

/-- The mapping for a set of columns. -/
def find? (mappings : List KeyMapping) (columns : List String) : Option KeyMapping :=
  mappings.find? (·.sourceColumns == normalizeColumns columns)

end KeyMapping

/-- The sets of two or more columns that are combined somewhere in `e`. -/
def Sql.Expr.columnSets (e : Expr) : List (List String) :=
  (e.nodes.filterMap fun node => node.columnsOfKey?.map normalizeColumns).filter (2 ≤ ·.length)

namespace Registry

/-- The sets of columns that each metric combines. Metrics that do not compile
are left out. -/
def combinations (r : Registry) (d : Sql.Dialect) : List (List String × String) :=
  (r.baseMetrics.flatMap fun m => m.expr.columnSets.map fun set => (set, m.id)) ++
    r.calculatedMetrics.flatMap fun m =>
      match r.compile d m.formula (some m.id) with
      | .ok c => c.expr.columnSets.map fun set => (set, m.id)
      | .error _ => []

/-- A mapping for each set of columns that some metric combines, in the order of
the sets. -/
def keyMappings (r : Registry) (d : Sql.Dialect) (prefixText : String) : List KeyMapping :=
  let combinations := r.combinations d
  (sortedSet (combinations.map (·.1))).map fun columns =>
    { keyColumnName := MetricLayer.keyColumnName prefixText columns
      sourceColumns := columns
      metricIds := sortedSet ((combinations.filter (·.1 == columns)).map (·.2)) }

end Registry

end MetricLayer
