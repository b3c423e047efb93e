import MetricLayer.Formula.Functions
import MetricLayer.Formula.Reader
import MetricLayer.Registry.Graph
import MetricLayer.Sql.CompositeKey
import MetricLayer.Sql.Render

/-!
# Compiling formulas

A formula becomes an SQL expression over the columns of its table: references to
base metrics become aggregates, references to calculated metrics the formulas
behind them in parentheses, and a division becomes one that is null for a zero
divisor. `Registry.compile` checks before that that every reference is known and
that none leads back to the metric whose formula it is, and afterwards that the
text is safe to stand in a statement.
-/

namespace MetricLayer

open Sql (Expr)

namespace BaseMetric

/-- The value of one row that the metric aggregates. -/
def input (m : BaseMetric) : Expr :=
  if m.isComposite then .compositeKey m.sourceColumns
  else .ofColumn (m.sourceColumns.head?.getD "")

def expr (m : BaseMetric) : Expr := .aggregate m.aggregation m.input

end BaseMetric

namespace SystemMetric

def expr (dateColumn : String) : SystemMetric → Expr
  | .daysInRange =>
    .binary .add
      (.call .dateDiff
        [.aggregate .min (.ofColumn dateColumn), .aggregate .max (.ofColumn dateColumn)])
      (.ofInt 1)

end SystemMetric

/-- The operator of a sum, a difference, a product or a remainder. A division has
a function in its place. -/
def ArithOp.apply : ArithOp → Expr → Expr → Expr
  | .add, l, r => .binary .add l r
  | .subtract, l, r => .binary .subtract l r
  | .multiply, l, r => .binary .multiply l r
  | .divide, l, r => .call .safeDivide [l, r]
  | .modulo, l, r => .binary .modulo l r

namespace Formula

mutual

/-- The expression of a formula, each reference standing for what `resolve`
gives. -/
def lower (resolve : String → Except Error Expr) : Formula → Except Error Expr
  | .reference name => resolve name
  | .number digits => .ok (.raw digits)
  | .literal value => .ok (.ofText value)
  | .negate operand => do
    let e ← operand.lower resolve
    .ok (.negate e)
  | .group inner => do
    let e ← inner.lower resolve
    .ok (.nested e)
  | .binary op left right => do
    let l ← left.lower resolve
    let r ← right.lower resolve
    .ok (op.apply l r)
  | .call name arguments =>
    match Sql.Function.ofFormulaName? name with
    | none => .error (.functionNotAllowed (Text.upperAscii name))
    | some f =>
      if f.arity.admits arguments.length then do
        let es ← lowerAll resolve arguments
        .ok (.call f es)
      else .error (.wrongArity (Text.upperAscii name) f.arity arguments.length)

def lowerAll (resolve : String → Except Error Expr) : List Formula → Except Error (List Expr)
  | [] => .ok []
  | f :: rest => do
    let e ← f.lower resolve
    let es ← lowerAll resolve rest
    .ok (e :: es)

end

end Formula

namespace Registry

variable (r : Registry)

/-- The calculated metrics outside `visiting`, which bound how deep references
to calculated metrics can lead. -/
def unvisited (visiting : List String) : List CalculatedMetric :=
  r.calculatedMetrics.filter fun m => !visiting.contains m.id

theorem length_unvisited_append_lt {visiting : List String} {name : String} {m : CalculatedMetric}
    (hm : r.calculatedMetric? name = some m) (hv : visiting.contains name = false) :
    (r.unvisited (visiting ++ [name])).length < (r.unvisited visiting).length := by
  have hid : m.id = name := by simpa using List.find?_some hm
  have hmem : m ∈ r.unvisited visiting := by
    simp only [unvisited, List.mem_filter, hid, hv, Bool.not_false, and_true]
    exact List.mem_of_find?_eq_some hm
  have hsub : r.unvisited (visiting ++ [name]) =
      (r.unvisited visiting).filter fun m => !(m.id == name) := by
    simp only [unvisited, List.filter_filter]
    congr 1
    funext m
    by_cases h : m.id = name <;> simp [h]
  rw [hsub, List.length_filter_lt_length_iff_exists]
  exact ⟨m, hmem, by simp [hid]⟩

/-- The expression that a reference stands for, inside the calculated metrics
`visiting`, outermost first. -/
def expand (visiting : List String) (name : String) : Except Error Expr :=
  match r.baseMetric? name with
  | some m => .ok m.expr
  | none =>
    match hm : r.calculatedMetric? name with
    | some m =>
      if hv : visiting.contains name then .error (.circularDependency (visiting ++ [name]))
      else
        have := r.length_unvisited_append_lt hm (by simpa using hv)
        do
        let f ← (Formula.read m.formula).mapError Error.formula
        let e ← f.lower fun inner => expand (visiting ++ [name]) inner
        .ok (.nested e)
    | none =>
      match SystemMetric.ofId? name with
      | some m => .ok (m.expr r.dateColumn)
      | none => .error (.unknown name)
termination_by (r.unvisited visiting).length

end Registry

/-- A formula as SQL, with the metrics that it names. -/
structure CompiledFormula where
  sql : String
  expr : Expr
  dependsOnBase : List String
  dependsOnCalculated : List String

namespace Registry

/-- Whether a formula of the metric `current` may refer to `name` as to a
calculated metric. -/
def isCalculatedFor (r : Registry) (current : Option String) (name : String) : Bool :=
  (r.calculatedMetric? name).isSome || current == some name

/-- The base metrics, the calculated metrics and the unknown ids among
`names`. -/
def classify (r : Registry) (current : Option String) (names : List String) :
    List String × List String × List String :=
  let (bases, rest) := names.partition fun name => (r.baseMetric? name).isSome
  let (calculated, rest) := rest.partition (r.isCalculatedFor current)
  (bases, calculated, rest.filter fun name => (SystemMetric.ofId? name).isNone)

def compile (r : Registry) (d : Sql.Dialect) (formula : String) (current : Option String) :
    Except Error CompiledFormula := do
  let references ← (extractReferences formula).mapError Error.reference
  let (dependsOnBase, dependsOnCalculated, unknown) :=
    r.classify current (uniqueNames references)
  if !unknown.isEmpty then .error (.unknownReferences unknown)
  else
    let cycle? := current.bind fun id =>
      (DependencyGraph.ofRegistry r).cycleThrough? id dependsOnCalculated
    match cycle? with
    | some cycle => .error (.circularDependency cycle)
    | none => do
      let f ← (Formula.read formula).mapError Error.formula
      let expr ← f.lower (r.expand current.toList)
      let sql := expr.render d
      (Sql.guardSql sql).mapError Error.guard
      .ok { sql, expr, dependsOnBase, dependsOnCalculated }

end Registry

end MetricLayer
