import MetricLayer.Sql.Render

/-!
# Select statements
-/

namespace MetricLayer.Sql

structure SelectItem where
  expr : Expr
  label : Option String := none

structure Select where
  source : String
  items : List SelectItem := []
  filters : List Expr := []
  groupBy : List Expr := []
  limit : Option UInt64 := none

def SelectItem.render (d : Dialect) (item : SelectItem) : String :=
  match item.label with
  | some label => item.expr.render d ++ " AS " ++ d.quoteName label
  | none => item.expr.render d

/-- A clause with its parts, or nothing where there are none. -/
def clause (keyword separator : String) (parts : List String) : String :=
  if parts.isEmpty then "" else keyword ++ separator.intercalate parts

def Select.render (d : Dialect) (q : Select) : String :=
  "SELECT " ++ ", ".intercalate (q.items.map (·.render d)) ++ " FROM " ++ d.quoteTable q.source ++
    clause " WHERE " " AND " (q.filters.map (·.render d)) ++
    clause " GROUP BY " ", " (q.groupBy.map (·.render d)) ++
    (match q.limit with
      | some limit => " LIMIT " ++ toString limit.toNat
      | none => "")

end MetricLayer.Sql
