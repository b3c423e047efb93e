import MetricLayer.Proofs.Formula.References
import MetricLayer.Proofs.Lookup
import MetricLayer.Proofs.Sql.Grouping
import MetricLayer.Proofs.Sql.Value
import MetricLayer.Sql.Select

/-!
# What queries answer

The rows that a query answers from the rows of its table. A warehouse is given
by what it makes of single values (`Engine`); how rows are filtered, grouped and
aggregated is the same everywhere (`Expr.eval`, `Select.grouped`).
-/

namespace MetricLayer.Sql

/-- The value of every column, null where there is no such column. -/
abbrev Row := String → Value

/-- How a warehouse computes with values. -/
structure Engine where
  /-- SQL that is already written, in a row. -/
  raw : String → Row → Value
  literal : Json → Value
  date : Date → Value
  call : Function → List Value → Value
  binary : BinaryOp → Value → Value → Value
  negate : Value → Value
  /-- About how many different values there are. -/
  approximate : List Datum → Nat
  /-- A number reads no columns. -/
  raw_numeral : ∀ text, Formula.IsNumeral text → ∀ row row', raw text row = raw text row'

/-- Exact arithmetic, with SQL that is already written left out. -/
def Engine.exact : Engine where
  raw _ _ := none
  literal
    | .bool b => some (.flag b)
    | .integer n => .ofRat n
    | .text s => some (.text s)
    | _ => none
  date d := some (.day d.order)
  call
    | .safeDivide, [some (.number a), some (.number b)] => if b = 0 then none else .ofRat (a / b)
    | _, _ => none
  binary
    | .add, some (.number a), some (.number b) => .ofRat (a + b)
    | .subtract, some (.number a), some (.number b) => .ofRat (a - b)
    | .multiply, some (.number a), some (.number b) => .ofRat (a * b)
    | .eq, some a, some b => some (.flag (a = b))
    | _, _, _ => none
  negate
    | some (.number a) => .ofRat (-a)
    | _ => none
  approximate vs := vs.dedup.length
  raw_numeral _ _ _ _ := rfl

/-- Where an expression is evaluated: aggregates range over a group of rows, and
what stands outside aggregates is read from one row. -/
structure Scope where
  row : Row
  group : List Row

/-- A row outside any group. -/
def Row.scope (row : Row) : Scope := ⟨row, []⟩

/-- A group, with its first row to read from. -/
def Scope.ofGroup (group : List Row) : Scope := ⟨group.headD fun _ => none, group⟩

theorem Scope.row_ofGroup_mem {group : List Row} (h : group ≠ []) :
    (Scope.ofGroup group).row ∈ group := by
  cases group with
  | nil => exact absurd rfl h
  | cons row rows => exact List.mem_cons_self

/-- Whether a condition with this value holds. -/
def Value.holds (v : Value) : Bool := v == some (.flag true)

/-- Whether `v` is among `list`, null if that is not known. -/
def Value.isIn (v : Value) (list : List Value) (negated : Bool) : Value :=
  match v with
  | none => none
  | some x =>
    if list.contains (some x) then some (.flag !negated)
    else if list.contains none then none
    else some (.flag negated)

namespace Expr

variable (engine : Engine)

mutual

def eval (scope : Scope) : Expr → Value
  | .column _ name => scope.row name
  | .literal value => engine.literal value
  | .date value => engine.date value
  | .wildcard => none
  | .raw sql => engine.raw sql scope.row
  | .call function arguments => engine.call function (evalAll scope arguments)
  | .cases branches otherwise => (evalBranches scope branches).getD (otherwise.eval scope)
  | .binary op left right => engine.binary op (left.eval scope) (right.eval scope)
  | .negate operand => engine.negate (operand.eval scope)
  | .nested inner => inner.eval scope
  | .aggregate aggregation input =>
    aggregation.eval engine.approximate (scope.group.map fun row => input.eval row.scope)
  | .countIf condition =>
    Aggregation.count.eval engine.approximate (scope.group.map fun row =>
      if (condition.eval row.scope).holds then some (.flag true) else none)
  | .inList value list negated => (value.eval scope).isIn (evalAll scope list) negated

def evalAll (scope : Scope) : List Expr → List Value
  | [] => []
  | e :: rest => e.eval scope :: evalAll scope rest

/-- The value of the first branch whose condition holds. -/
def evalBranches (scope : Scope) : List (Expr × Expr) → Option Value
  | [] => none
  | (condition, result) :: rest =>
    if (condition.eval scope).holds then some (result.eval scope) else evalBranches scope rest

end

theorem evalAll_eq_map (scope : Scope) (es : List Expr) :
    evalAll engine scope es = es.map (·.eval engine scope) := by
  induction es with
  | nil => rfl
  | cons e es ih => rw [evalAll, List.map_cons, ih]

end Expr

namespace Select

variable (engine : Engine) (q : Select)

/-- The rows that the filters leave. -/
def kept (table : List Row) : List Row :=
  table.filter fun row => q.filters.all fun e => (e.eval engine row.scope).holds

/-- The values that a row is grouped by. -/
def key (row : Row) : List Value := q.groupBy.map fun e => e.eval engine row.scope

/-- What a group or a row becomes. -/
def result (scope : Scope) : List Value := q.items.map fun item => item.expr.eval engine scope

def limited (rows : List (List Value)) : List (List Value) :=
  match q.limit with
  | some limit => rows.take limit.toNat
  | none => rows

/-- The groups of the rows kept. Without anything to group by, all rows are one
group, even if there are none. -/
def groups (table : List Row) : List (List Row) :=
  if q.groupBy.isEmpty then [q.kept engine table]
  else groupsBy (q.key engine) (q.kept engine table)

/-- The answer to a query that aggregates: a row for each group. -/
def grouped (table : List Row) : List (List Value) :=
  q.limited ((q.groups engine table).map fun group => q.result engine (.ofGroup group))

/-- The answer to a query that does not: a row for each row kept. -/
def ungrouped (table : List Row) : List (List Value) :=
  q.limited ((q.kept engine table).map fun row => q.result engine row.scope)

/-- A row of the answer, as a row of the table that is made of it. -/
def rowOf (values : List Value) : Row := fun name =>
  ((q.items.zip values).find? fun (item, _) => item.label == some name).bind (·.2)

/-- The table that is made of the answer. -/
def table (source : List Row) : List Row := (q.grouped engine source).map q.rowOf

variable {engine q}

theorem rowOf_result (scope : Scope) (name : String) :
    q.rowOf (q.result engine scope) name =
      (q.items.find? fun item => item.label == some name).bind (·.expr.eval engine scope) := by
  have hzip : q.items.zip (q.result engine scope) =
      q.items.map fun item => (item, item.expr.eval engine scope) := by
    rw [result, ← List.map_id q.items, List.map_id, ← List.zip_map', List.map_id']
  rw [rowOf, hzip, List.find?_map, Option.bind_map]
  rfl

/-- The column of a label that stands once. -/
theorem rowOf_result_of_mem (hq : (q.items.map (·.label)).Nodup) {item : SelectItem}
    (hitem : item ∈ q.items) {name : String} (hname : item.label = some name) (scope : Scope) :
    q.rowOf (q.result engine scope) name = item.expr.eval engine scope := by
  rw [rowOf_result, (find?_eq_some_iff_of_nodup hq).2 ⟨hitem, hname⟩, Option.bind_some]

theorem grouped_eq (hlimit : q.limit = none) (table : List Row) :
    q.grouped engine table =
      (q.groups engine table).map fun group => q.result engine (.ofGroup group) := by
  rw [grouped, limited, hlimit]

theorem ungrouped_eq (hlimit : q.limit = none) (table : List Row) :
    q.ungrouped engine table =
      (q.kept engine table).map fun row => q.result engine row.scope := by
  rw [ungrouped, limited, hlimit]

theorem groups_eq (h : q.groupBy ≠ []) (table : List Row) :
    q.groups engine table = groupsBy (q.key engine) (q.kept engine table) := by
  rw [groups, if_neg (by simpa using h)]

theorem groups_of_nil (h : q.groupBy = []) (table : List Row) :
    q.groups engine table = [q.kept engine table] := by
  rw [groups, if_pos (by simp [h])]

/-- But for a query without anything to group by over no rows, the groups are those
of the key. -/
theorem groups_eq_groupsBy {table : List Row} (h : q.groupBy = [] → q.kept engine table ≠ []) :
    q.groups engine table = groupsBy (q.key engine) (q.kept engine table) := by
  by_cases hnil : q.groupBy = []
  · rw [groups_of_nil hnil, groupsBy_of_forall_eq (k := []) (h hnil)]
    intro row _
    rw [key, hnil, List.map_nil]
  · exact groups_eq hnil table

/-- Rows grouped by a finer key give the answer just where it tells no rows of a
group apart, and there is a row if all rows are one group. -/
theorem groupsBy_perm_groups_iff {β γ : Type} [DecidableEq β] {fine : Row → β} {table : List Row}
    (hfine : ∀ x y, fine x = fine y → q.key engine x = q.key engine y) (f : List Row → γ) :
    ((groupsBy fine (q.kept engine table)).map f).Perm ((q.groups engine table).map f) ↔
      (∀ x ∈ q.kept engine table, ∀ y ∈ q.kept engine table,
        q.key engine x = q.key engine y → fine x = fine y) ∧
      (q.groupBy = [] → q.kept engine table ≠ []) := by
  constructor
  · intro hperm
    have hlength := hperm.length_eq
    rw [List.length_map, List.length_map] at hlength
    have hne : q.groupBy = [] → q.kept engine table ≠ [] := by
      intro hnil hkept
      rw [groups_of_nil hnil, hkept] at hlength
      cases hlength
    rw [groups_eq_groupsBy hne, length_groupsBy_eq_iff hfine] at hlength
    exact ⟨hlength, hne⟩
  · rintro ⟨hkey, hne⟩
    rw [groups_eq_groupsBy hne]
    exact (groupsBy_perm_of_iff fun x hx y hy => ⟨hfine x y, hkey x hx y hy⟩).map f

end Select

end MetricLayer.Sql
