import MetricLayer.Error
import MetricLayer.Schema.Document

/-!
# Schema documents, written and read

Every field is written, with null for what is absent. When a document is read,
fields that have a default may be missing, and a field of another name is an
error. A base metric may name one column instead of a list, and a dimension may
be given by its column alone.
-/

namespace MetricLayer

namespace BaseMetric

def toJson (m : BaseMetric) : Json :=
  .ofFields [
    ("id", .text m.id),
    ("display_name", .ofOption .text m.displayName),
    ("description", .ofOption .text m.description),
    ("source_columns", .texts m.sourceColumns),
    ("aggregation", m.aggregation.toJson),
    ("category", .ofOption .text m.category),
    ("format", m.format.toJson),
    ("decimal_places", .ofOption (fun n => .ofNat n.toNat) m.decimalPlaces)]

/-- A base metric whose columns are not settled yet. -/
structure Draft where
  metric : BaseMetric := { id := "", sourceColumns := [], aggregation := .sum }
  sourceColumn : Option String := none
  sourceColumns : Option (List String) := none

def Draft.read (d : Draft) (name : String) (v : Json) : Except Json.Fault Draft :=
  match name with
  | "id" => do
    let id ← v.asText
    .ok { d with metric.id := id }
  | "display_name" => do
    let displayName ← v.asOption Json.asText
    .ok { d with metric.displayName := displayName }
  | "description" => do
    let description ← v.asOption Json.asText
    .ok { d with metric.description := description }
  | "source_column" => do
    let sourceColumn ← v.asOption Json.asText
    .ok { d with sourceColumn }
  | "source_columns" => do
    let sourceColumns ← v.asOption Json.asTexts
    .ok { d with sourceColumns }
  | "aggregation" => do
    let aggregation ← Aggregation.ofJson v
    .ok { d with metric.aggregation := aggregation }
  | "category" => do
    let category ← v.asOption Json.asText
    .ok { d with metric.category := category }
  | "format" => do
    let format ← MetricFormat.ofJson v
    .ok { d with metric.format := format }
  | "decimal_places" => do
    let decimalPlaces ← v.asOption Json.asUInt8
    .ok { d with metric.decimalPlaces := decimalPlaces }
  | other => .error (.unknown other)

/-- A list of columns counts before a single column. -/
def Draft.finish (d : Draft) : Except Json.Fault BaseMetric :=
  match d.sourceColumns, d.sourceColumn with
  | some columns, _ => .ok { d.metric with sourceColumns := columns }
  | none, some column => .ok { d.metric with sourceColumns := [column] }
  | none, none =>
    .error (.refused (s!"base metric {d.metric.id}: either source_column or source_columns " ++
      "must be specified"))

/-- The metric that a document describes, not yet checked against its rules. -/
def ofJsonUnchecked (v : Json) : Except Json.Fault BaseMetric := do
  let fields ← v.asFields
  let draft ← Json.readFields {} Draft.read fields
  Json.require ["id", "aggregation"] fields
  draft.finish

def ofJson (v : Json) : Except Json.Fault BaseMetric := do
  let m ← ofJsonUnchecked v
  m.validate.mapError fun fault => .refused fault.message
  .ok m

end BaseMetric

namespace CalculatedMetric

def toJson (m : CalculatedMetric) : Json :=
  .ofFields [
    ("id", .text m.id),
    ("display_name", .ofOption .text m.displayName),
    ("description", .ofOption .text m.description),
    ("category", .ofOption .text m.category),
    ("formula", .text m.formula),
    ("compiled_sql", .text m.compiledSql),
    ("depends_on_base", .texts m.dependsOnBase),
    ("depends_on_calculated", .texts m.dependsOnCalculated),
    ("format", m.format.toJson)]

def readField (m : CalculatedMetric) (name : String) (v : Json) :
    Except Json.Fault CalculatedMetric :=
  match name with
  | "id" => do
    let id ← v.asText
    .ok { m with id }
  | "display_name" => do
    let displayName ← v.asOption Json.asText
    .ok { m with displayName }
  | "description" => do
    let description ← v.asOption Json.asText
    .ok { m with description }
  | "category" => do
    let category ← v.asOption Json.asText
    .ok { m with category }
  | "formula" => do
    let formula ← v.asText
    .ok { m with formula }
  | "compiled_sql" => do
    let compiledSql ← v.asText
    .ok { m with compiledSql }
  | "depends_on_base" => do
    let dependsOnBase ← v.asTexts
    .ok { m with dependsOnBase }
  | "depends_on_calculated" => do
    let dependsOnCalculated ← v.asTexts
    .ok { m with dependsOnCalculated }
  | "format" => do
    let format ← MetricFormat.ofJson v
    .ok { m with format }
  | other => .error (.unknown other)

def ofJson (v : Json) : Except Json.Fault CalculatedMetric := do
  let fields ← v.asFields
  let m ← Json.readFields { id := "", formula := "" } readField fields
  Json.require ["id", "formula"] fields
  .ok m

end CalculatedMetric

namespace Dimension

/-- The dimension that is a column of the same name. -/
def ofColumn (name : String) : Dimension := { id := name, columnName := name }

def toJson (d : Dimension) : Json :=
  .ofFields [
    ("id", .text d.id),
    ("display_name", .ofOption .text d.displayName),
    ("description", .ofOption .text d.description),
    ("column_name", .text d.columnName),
    ("data_type", d.dataType.toJson),
    ("is_filterable", .bool d.isFilterable),
    ("is_groupable", .bool d.isGroupable)]

/-- A dimension whose column may be left to its id. -/
structure Draft where
  dimension : Dimension := ofColumn ""
  columnName : Option String := none

def Draft.read (d : Draft) (name : String) (v : Json) : Except Json.Fault Draft :=
  match name with
  | "id" => do
    let id ← v.asText
    .ok { d with dimension.id := id }
  | "display_name" => do
    let displayName ← v.asOption Json.asText
    .ok { d with dimension.displayName := displayName }
  | "description" => do
    let description ← v.asOption Json.asText
    .ok { d with dimension.description := description }
  | "column_name" => do
    let columnName ← v.asOption Json.asText
    .ok { d with columnName }
  | "data_type" => do
    let dataType ← DataType.ofJson v
    .ok { d with dimension.dataType := dataType }
  | "is_filterable" => do
    let isFilterable ← v.asBool
    .ok { d with dimension.isFilterable := isFilterable }
  | "is_groupable" => do
    let isGroupable ← v.asBool
    .ok { d with dimension.isGroupable := isGroupable }
  | other => .error (.unknown other)

def ofJson : Json → Except Json.Fault Dimension
  | .text column => .ok (ofColumn column)
  | v => do
    let fields ← v.asFields
    let draft ← Json.readFields {} Draft.read fields
    Json.require ["id"] fields
    .ok { draft.dimension with columnName := draft.columnName.getD draft.dimension.id }

end Dimension

namespace CalculatedDimension

def toJson (d : CalculatedDimension) : Json :=
  .ofFields [
    ("id", .text d.id),
    ("display_name", .ofOption .text d.displayName),
    ("description", .ofOption .text d.description),
    ("sql_expression", .text d.sqlExpression),
    ("compiled_sql", .text d.compiledSql),
    ("depends_on", .texts d.dependsOn),
    ("data_type", d.dataType.toJson),
    ("is_filterable", .bool d.isFilterable),
    ("is_groupable", .bool d.isGroupable)]

def readField (d : CalculatedDimension) (name : String) (v : Json) :
    Except Json.Fault CalculatedDimension :=
  match name with
  | "id" => do
    let id ← v.asText
    .ok { d with id }
  | "display_name" => do
    let displayName ← v.asOption Json.asText
    .ok { d with displayName }
  | "description" => do
    let description ← v.asOption Json.asText
    .ok { d with description }
  | "sql_expression" => do
    let sqlExpression ← v.asText
    .ok { d with sqlExpression }
  | "compiled_sql" => do
    let compiledSql ← v.asText
    .ok { d with compiledSql }
  | "depends_on" => do
    let dependsOn ← v.asTexts
    .ok { d with dependsOn }
  | "data_type" => do
    let dataType ← DataType.ofJson v
    .ok { d with dataType }
  | "is_filterable" => do
    let isFilterable ← v.asBool
    .ok { d with isFilterable }
  | "is_groupable" => do
    let isGroupable ← v.asBool
    .ok { d with isGroupable }
  | other => .error (.unknown other)

def ofJson (v : Json) : Except Json.Fault CalculatedDimension := do
  let fields ← v.asFields
  let d ← Json.readFields { id := "", sqlExpression := "" } readField fields
  Json.require ["id", "sql_expression"] fields
  .ok d

end CalculatedDimension

namespace SchemaDocument

def toJson (s : SchemaDocument) : Json :=
  .ofFields [
    ("table", .text s.table),
    ("source_table", .text s.sourceTable),
    ("date_column", .text s.dateColumn),
    ("base_metrics", .list (s.baseMetrics.map BaseMetric.toJson)),
    ("calculated_metrics", .list (s.calculatedMetrics.map CalculatedMetric.toJson)),
    ("dimensions", .list (s.dimensions.map Dimension.toJson)),
    ("calculated_dimensions", .list (s.calculatedDimensions.map CalculatedDimension.toJson)),
    ("version", .ofNat s.version.toNat),
    ("created_at", .ofOption Timestamp.toJson s.createdAt),
    ("updated_at", .ofOption Timestamp.toJson s.updatedAt)]

def readField (s : SchemaDocument) (name : String) (v : Json) :
    Except Json.Fault SchemaDocument :=
  match name with
  | "table" => do
    let table ← v.asText
    .ok { s with table }
  | "source_table" => do
    let sourceTable ← v.asText
    .ok { s with sourceTable }
  | "date_column" => do
    let dateColumn ← v.asText
    .ok { s with dateColumn }
  | "base_metrics" => do
    let baseMetrics ← v.asList BaseMetric.ofJson
    .ok { s with baseMetrics }
  | "calculated_metrics" => do
    let calculatedMetrics ← v.asList CalculatedMetric.ofJson
    .ok { s with calculatedMetrics }
  | "dimensions" => do
    let dimensions ← v.asList Dimension.ofJson
    .ok { s with dimensions }
  | "calculated_dimensions" => do
    let calculatedDimensions ← v.asList CalculatedDimension.ofJson
    .ok { s with calculatedDimensions }
  | "version" => do
    let version ← v.asUInt64
    .ok { s with version }
  | "created_at" => do
    let createdAt ← v.asOption Json.asTimestamp
    .ok { s with createdAt }
  | "updated_at" => do
    let updatedAt ← v.asOption Json.asTimestamp
    .ok { s with updatedAt }
  | other => .error (.unknown other)

def ofJson (v : Json) : Except Json.Fault SchemaDocument := do
  let fields ← v.asFields
  let s ← Json.readFields { table := "", sourceTable := "" } readField fields
  Json.require ["table", "source_table"] fields
  .ok s

end SchemaDocument

end MetricLayer
