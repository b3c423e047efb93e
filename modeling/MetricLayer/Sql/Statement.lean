import MetricLayer.Sql.Select

/-!
# Statements

All that is ever asked of a warehouse: building a table, adding rows to one,
and a few questions about what a table holds.
-/

namespace MetricLayer.Sql

inductive Statement where
  /-- Put the rows of a query in the place of a table. -/
  | createTable (target : String) (query : Select) (partitionBy : Option String)
      (clusterBy : List String)
  /-- Add the rows of a query to a table. -/
  | insert (target : String) (query : Select)
  /-- The values of a column that occur in one table and not in another. -/
  | missingPartitions (source target column : String)
  /-- The largest value of a column. -/
  | maxPartition (table column : String)
  | rowCount (table : String)
  /-- About how many values a column has. -/
  | cardinality (table column : String)
  /-- An expression over the columns of a table, of no rows. -/
  | probe (table sql : String)

def Statement.render (d : Dialect) : Statement → String
  | .createTable target query partitionBy clusterBy =>
    d.createTable target (query.render d) partitionBy clusterBy
  | .insert target query => "INSERT INTO " ++ d.quoteTable target ++ " " ++ query.render d
  | .missingPartitions source target column =>
    let name := d.quoteName column
    "SELECT DISTINCT CAST(" ++ name ++ " AS " ++ d.textType ++ ") AS partition_date FROM " ++
      d.quoteTable source ++ " WHERE " ++ name ++ " IS NOT NULL AND " ++ name ++
      " NOT IN (SELECT DISTINCT " ++ name ++ " FROM " ++ d.quoteTable target ++ " WHERE " ++
      name ++ " IS NOT NULL) ORDER BY partition_date"
  | .maxPartition table column =>
    "SELECT CAST(MAX(" ++ d.quoteName column ++ ") AS " ++ d.textType ++ ") AS max_date FROM " ++
      d.quoteTable table
  | .rowCount table => "SELECT COUNT(*) AS row_count FROM " ++ d.quoteTable table
  | .cardinality table column =>
    "SELECT APPROX_COUNT_DISTINCT(" ++ d.quoteName column ++ ") AS cardinality FROM " ++
      d.quoteTable table
  | .probe table sql => "SELECT " ++ sql ++ " AS __probe FROM " ++ d.quoteTable table ++ " LIMIT 0"

end MetricLayer.Sql
