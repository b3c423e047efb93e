import MetricLayer.Proofs.Sql.Evaluation

/-!
# Tables

A table has columns in an order, and rows with a value for each (`Table`). Where a
warehouse takes several columns for one name, the first counts (`Warehouse.row`). A
query makes a table of a table (`Select.answer`): one row for each row that its
filters leave, in which `*` stands for every column, or one row for each group.
-/

namespace MetricLayer.Sql

structure Table where
  columns : List String
  rows : List (List Value)
  width : ∀ values ∈ rows, values.length = columns.length

/-- How a warehouse computes, and which names of columns are one name to it. -/
structure Warehouse where
  engine : Engine
  sameName : String → String → Bool

/-- The same columns, and the same rows in any order. -/
def Table.Same (t t' : Table) : Prop := t.columns = t'.columns ∧ t.rows.Perm t'.rows

theorem Table.Same.symm {t t' : Table} (h : t.Same t') : t'.Same t := ⟨h.1.symm, h.2.symm⟩

theorem Table.Same.trans {t t' t'' : Table} (h : t.Same t') (h' : t'.Same t'') : t.Same t'' :=
  ⟨h.1.trans h'.1, h.2.trans h'.2⟩

namespace Warehouse

variable (w : Warehouse)

/-- The values of a row under the names of its columns. -/
def row (columns : List String) (values : List Value) : Row := fun name =>
  ((columns.zip values).find? fun column => w.sameName column.1 name).bind (·.2)

/-- The values of a column, row by row. -/
def column (t : Table) (name : String) : List Value :=
  t.rows.map fun values => w.row t.columns values name

def HasColumn (columns : List String) (name : String) : Prop :=
  ∃ column ∈ columns, w.sameName column name = true

variable {w} {columns : List String} {values : List Value} {name : String}

/-- Columns that are added behind the others leave these as they are. -/
theorem row_append (hlength : values.length = columns.length) (h : w.HasColumn columns name)
    (more : List String) (others : List Value) :
    w.row (columns ++ more) (values ++ others) name = w.row columns values name := by
  obtain ⟨column, hcolumn, hname⟩ := h
  have hfound : ((columns.zip values).find? fun c => w.sameName c.1 name).isSome = true := by
    obtain ⟨i, hi, rfl⟩ := List.mem_iff_getElem.1 hcolumn
    rw [List.find?_isSome]
    refine ⟨(columns[i], values[i]), ?_, hname⟩
    exact List.mem_iff_getElem.2 ⟨i, by simp [hlength, hi], List.getElem_zip⟩
  rw [row, row, List.zip_append hlength.symm, List.find?_append]
  cases hfind : (columns.zip values).find? fun c => w.sameName c.1 name with
  | none => rw [hfind] at hfound; cases hfound
  | some c => rfl

end Warehouse

/-! ## Queries -/

/-- A value is known to be in a list if it is not null and stands there. -/
theorem Value.holds_isIn {v : Value} {list : List Value} :
    (v.isIn list false).holds = true ↔ v ≠ none ∧ v ∈ list := by
  cases v with
  | none => simp [Value.isIn, Value.holds]
  | some x =>
    by_cases hx : some x ∈ list
    · simp [Value.isIn, Value.holds, hx]
    · by_cases hnull : none ∈ list <;> simp [Value.isIn, Value.holds, hx, hnull]

/-- It is known not to be there if there is no null in the list either. -/
theorem Value.holds_isIn_negated {v : Value} {list : List Value} :
    (v.isIn list true).holds = true ↔ v ≠ none ∧ none ∉ list ∧ v ∉ list := by
  cases v with
  | none => simp [Value.isIn, Value.holds]
  | some x =>
    by_cases hx : some x ∈ list
    · simp [Value.isIn, Value.holds, hx]
    · by_cases hnull : none ∈ list <;> simp [Value.isIn, Value.holds, hx, hnull]

def Expr.isAggregate : Expr → Bool
  | .aggregate .. | .countIf _ => true
  | _ => false

/-- The column that an item makes; without a label a column keeps its name. -/
def SelectItem.name (item : SelectItem) : String :=
  match item.expr with
  | .column _ name => item.label.getD name
  | _ => item.label.getD ""

/-- The columns that an item makes of those of the table. -/
def SelectItem.columns (columns : List String) (item : SelectItem) : List String :=
  match item.expr with
  | .wildcard => columns
  | _ => [item.name]

/-- The values that an item makes of a row. -/
def SelectItem.values (w : Warehouse) (columns : List String) (values : List Value)
    (item : SelectItem) : List Value :=
  match item.expr with
  | .wildcard => values
  | e => [e.eval w.engine (w.row columns values).scope]

theorem SelectItem.length_values (w : Warehouse) {columns : List String} {values : List Value}
    (h : values.length = columns.length) (item : SelectItem) :
    (item.values w columns values).length = (item.columns columns).length := by
  rw [SelectItem.values, SelectItem.columns]
  split
  · exact h
  · rfl

namespace Select

variable (w : Warehouse) (q : Select)

/-- Whether rows are put together in groups. -/
def aggregates : Bool :=
  !q.groupBy.isEmpty || q.items.any fun item => item.expr.nodes.any Expr.isAggregate

/-- Whether the filters leave a row. -/
def keeps (columns : List String) (values : List Value) : Bool :=
  q.filters.all fun e => (e.eval w.engine (w.row columns values).scope).holds

/-- What a row becomes. -/
def project (columns : List String) (values : List Value) : List Value :=
  q.items.flatMap fun item => item.values w columns values

theorem mem_of_mem_limited {q : Select} {rows : List (List Value)} {values : List Value}
    (h : values ∈ q.limited rows) : values ∈ rows := by
  rw [limited] at h
  split at h
  · exact List.mem_of_mem_take h
  · exact h

def answer (t : Table) : Table :=
  if q.aggregates then
    { columns := q.items.map SelectItem.name
      rows := q.grouped w.engine (t.rows.map (w.row t.columns))
      width := fun values hvalues => by
        obtain ⟨group, -, rfl⟩ := List.mem_map.1 (mem_of_mem_limited hvalues)
        rw [result, List.length_map, List.length_map] }
  else
    { columns := q.items.flatMap fun item => item.columns t.columns
      rows := q.limited ((t.rows.filter (q.keeps w t.columns)).map (q.project w t.columns))
      width := fun values hvalues => by
        obtain ⟨row, hrow, rfl⟩ := List.mem_map.1 (mem_of_mem_limited hvalues)
        have hwidth := t.width row (List.mem_filter.1 hrow).1
        rw [project, List.length_flatMap, List.length_flatMap]
        exact congrArg List.sum
          (List.map_congr_left fun item _ => item.length_values w hwidth) }

variable {w q}

theorem answer_eq (haggregates : q.aggregates = false) (hlimit : q.limit = none) (t : Table) :
    (q.answer w t).columns = q.items.flatMap (fun item => item.columns t.columns) ∧
      (q.answer w t).rows = (t.rows.filter (q.keeps w t.columns)).map (q.project w t.columns) := by
  rw [answer, if_neg (by simp [haggregates])]
  refine ⟨rfl, ?_⟩
  change q.limited _ = _
  rw [limited, hlimit]

end Select

end MetricLayer.Sql
