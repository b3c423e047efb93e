import Mathlib.Data.Nat.Cast.Order.Ring
import MetricLayer.Proofs.Rollup.ColumnNames

/-!
# Metrics over flagged rows

Beside a metric a rollup may hold the metric over flagged rows. In each group the column
is worth what the metric makes of the flagged rows (`RollupSource.agree_flagged_iff`),
unless it is a count of values and there are flagged rows without one: the column counts
the flagged rows.
-/

namespace MetricLayer

open Sql (Datum Engine Expr Row Scope Select Value)

/-! ## Aggregates of values of which some are left out -/

namespace Sql.Value

theorem total_cons (v : Value) (vs : List Value) :
    total (v :: vs) = Option.merge (· + ·) v.number? (total vs) := rfl

theorem present_map_some (ds : List Datum) : present (ds.map some) = ds := by
  simp [present, List.filterMap_map]

theorem present_cons_some (d : Datum) (vs : List Value) :
    present (some d :: vs) = d :: present vs := rfl

theorem present_cons_none (vs : List Value) : present (none :: vs) = present vs := rfl

/-- Folding skips null. -/
theorem foldr_present {op : Value → Value → Value} (hop : ∀ v, op none v = v) (vs : List Value) :
    ((present vs).map some).foldr op none = vs.foldr op none := by
  induction vs with
  | nil => rfl
  | cons v vs ih =>
    cases v with
    | none => rw [present_cons_none, ih, List.foldr_cons, hop]
    | some d => rw [present_cons_some, List.map_cons, List.foldr_cons, List.foldr_cons, ih]

theorem total_present (vs : List Value) : total ((present vs).map some) = total vs := by
  induction vs with
  | nil => rfl
  | cons v vs ih =>
    cases v with
    | none =>
      rw [present_cons_none, ih, total_cons, number?, Option.bind_none, Option.merge_none_left]
    | some d => rw [present_cons_some, List.map_cons, total_cons, total_cons, ih]

theorem getD_total_cons (v : Value) (vs : List Value) :
    (total (v :: vs)).getD 0 = v.number?.getD 0 + (total vs).getD 0 := by
  rw [total_cons]
  cases v.number? <;> cases total vs <;> simp

end Sql.Value

namespace Aggregation

variable {α : Type} {approximate : List Datum → Nat} {a : Aggregation}

/-- Null counts for nothing. -/
theorem eval_present (a : Aggregation) (vs : List Value) :
    a.eval approximate ((Value.present vs).map some) = a.eval approximate vs := by
  cases a with
  | sum => rw [eval, eval, Value.total_present]
  | avg =>
    have hnumbers : (((Value.present vs).map some).filterMap Value.number?) =
        vs.filterMap Value.number? := by
      rw [List.filterMap_map, Value.present, List.filterMap_filterMap]
      rfl
    rw [eval, eval, Value.total_present, hnumbers]
  | min | max => exact Value.foldr_present (fun _ => Option.merge_none_left) vs
  | count | countDistinct | approxCountDistinct =>
    simp only [eval, Value.present_map_some]

theorem present_map_ite (p : α → Bool) (f : α → Value) (xs : List α) :
    Value.present (xs.map fun x => if p x then f x else none) =
      Value.present ((xs.filter p).map f) := by
  induction xs with
  | nil => rfl
  | cons x xs ih =>
    cases hp : p x with
    | true =>
      rw [List.filter_cons_of_pos hp, List.map_cons, List.map_cons, hp, if_pos rfl]
      cases f x with
      | none => exact ih
      | some d => exact congrArg (d :: ·) ih
    | false =>
      rw [List.filter_cons_of_neg (by simp [hp]), List.map_cons, hp, if_neg Bool.false_ne_true]
      exact ih

/-- Values that are left out may be null instead. -/
theorem eval_map_ite (p : α → Bool) (f : α → Value) (xs : List α) :
    a.eval approximate (xs.map fun x => if p x then f x else none) =
      a.eval approximate ((xs.filter p).map f) := by
  rw [← eval_present, present_map_ite, eval_present]

/-- In a sum they may be zero instead. -/
theorem total_map_ite (p : α → Bool) (f : α → Value) (xs : List α) :
    (Value.total (xs.map fun x => if p x then f x else .ofRat 0)).getD 0 =
      (Value.total ((xs.filter p).map f)).getD 0 := by
  induction xs with
  | nil => rfl
  | cons x xs ih =>
    rw [List.map_cons, Value.getD_total_cons, ih]
    cases hp : p x with
    | true => rw [List.filter_cons_of_pos hp, List.map_cons, Value.getD_total_cons, if_pos rfl]
    | false =>
      rw [List.filter_cons_of_neg (by simp [hp]), if_neg Bool.false_ne_true]
      exact zero_add _

theorem eval_count_map (f : α → Value) (xs : List α) :
    count.eval approximate (xs.map f) = .ofRat (xs.countP fun x => (f x).isSome) := by
  rw [eval, Value.present, List.filterMap_map, List.length_filterMap_eq_countP]
  rfl

/-- Two values are the same, where null is the sum of nothing. -/
def Agree (a : Aggregation) (v w : Value) : Prop :=
  if a = .sum then v.getD (.number 0) = w.getD (.number 0) else v = w

end Aggregation

/-! ## Flagged rows -/

/-- A warehouse compares with one as usual. -/
structure Sql.Engine.Compares (engine : Engine) : Prop where
  null : engine.literal .null = none
  zero : engine.literal (.integer 0) = .ofRat 0
  one : engine.literal (.integer 1) = .ofRat 1
  eq_one : ∀ v : Value, (engine.binary .eq v (.ofRat 1)).holds = decide (v = .ofRat 1)

theorem Sql.Engine.compares_exact : Engine.exact.Compares where
  null := rfl
  zero := rfl
  one := rfl
  eq_one v := by
    cases v with
    | none => rfl
    | some d => by_cases h : d = .number 1 <;> simp [Engine.exact, Value.holds, Value.ofRat, h]

def Sql.Row.IsFlagged (flag : String) (row : Row) : Prop := row flag = .ofRat 1

instance (flag : String) (row : Row) : Decidable (row.IsFlagged flag) :=
  inferInstanceAs (Decidable (row flag = .ofRat 1))

namespace RollupSource

variable {engine : Engine} {a : Aggregation} {input : Expr} {flag : String}

/-- The condition of columns over flagged rows. -/
theorem holds_flagged (hengine : engine.Compares) (row : Row) :
    ((Expr.binary .eq (.ofColumn flag) (.ofInt 1)).eval engine row.scope).holds =
      decide (row.IsFlagged flag) := by
  have hone : (Expr.ofInt 1).eval engine row.scope = .ofRat 1 := hengine.one
  rw [Expr.eval, hone, hengine.eq_one]
  rfl

theorem eval_cases_flagged (hengine : engine.Compares) (row : Row) (otherwise : Expr) :
    (Expr.cases [(.binary .eq (.ofColumn flag) (.ofInt 1), input)] otherwise).eval engine
      row.scope = if decide (row.IsFlagged flag) then input.eval engine row.scope
        else otherwise.eval engine row.scope := by
  rw [Expr.eval, Expr.evalBranches, Expr.evalBranches, holds_flagged hengine]
  split <;> rfl

theorem eval_aggregate (group : List Row) : (Expr.aggregate a input).eval engine (.ofGroup group) =
    a.eval engine.approximate (group.map fun row => input.eval engine row.scope) := rfl

theorem eval_countIf_flagged (hengine : engine.Compares) (group : List Row) :
    (flaggedAggregate .count input flag).eval engine (.ofGroup group) =
      .ofRat (group.countP fun row => row.IsFlagged flag) := by
  change Aggregation.count.eval _ _ = _
  simp only [holds_flagged hengine]
  rw [Aggregation.eval_count_map]
  congr 3
  funext row
  by_cases h : row.IsFlagged flag <;> simp [h]

/-- Over flagged rows a metric is what it makes of these rows alone, but a count of
values is so only if all of them have one. -/
theorem agree_flaggedAggregate_iff (hengine : engine.Compares) (group : List Row) :
    a.Agree ((flaggedAggregate a input flag).eval engine (.ofGroup group))
        ((Expr.aggregate a input).eval engine
          (.ofGroup (group.filter fun row => row.IsFlagged flag))) ↔
      (a = .count → ∀ row ∈ group, row.IsFlagged flag → input.eval engine row.scope ≠ none) := by
  have hnull (row : Row) : (Expr.literal .null).eval engine row.scope = none := hengine.null
  have hzero (row : Row) : (Expr.ofInt 0).eval engine row.scope = .ofRat 0 := hengine.zero
  have hplain (ha : flaggedAggregate a input flag = .aggregate a
      (.cases [(.binary .eq (.ofColumn flag) (.ofInt 1), input)] (.literal .null))) :
      (flaggedAggregate a input flag).eval engine (.ofGroup group) =
        (Expr.aggregate a input).eval engine
          (.ofGroup (group.filter fun row => row.IsFlagged flag)) := by
    rw [ha, eval_aggregate, eval_aggregate]
    simp only [eval_cases_flagged hengine, hnull]
    exact Aggregation.eval_map_ite ..
  cases a with
  | count =>
    have hcount : (group.countP fun row => row.IsFlagged flag) =
        (group.filter fun row => row.IsFlagged flag).length := List.countP_eq_length_filter ..
    rw [Aggregation.Agree, if_neg (by decide), eval_countIf_flagged hengine, eval_aggregate,
      Aggregation.eval_count_map, hcount]
    simp only [Value.ofRat, Option.some.injEq, Datum.number.injEq, Nat.cast_inj, forall_const]
    rw [eq_comm, List.countP_eq_length]
    simp [Option.isSome_iff_ne_none]
  | sum =>
    refine iff_of_true ?_ fun hcount => by cases hcount
    rw [Aggregation.Agree, if_pos rfl]
    have hsum := Aggregation.total_map_ite (fun row : Row => decide (row.IsFlagged flag))
      (fun row => input.eval engine row.scope) group
    have hgetD (o : Option ℚ) : (o.map Datum.number).getD (.number 0) = .number (o.getD 0) := by
      cases o <;> rfl
    change ((Expr.aggregate .sum (.cases [(_, input)] (.ofInt 0))).eval engine _).getD _ = _
    rw [eval_aggregate, eval_aggregate]
    simp only [eval_cases_flagged hengine, hzero, Aggregation.eval, hgetD, hsum]
  | avg | min | max | countDistinct | approxCountDistinct =>
    refine iff_of_true ?_ fun hcount => by cases hcount
    rw [Aggregation.Agree, if_neg (by decide)]
    exact hplain rfl

theorem countP_le_iff {α : Type} (p s : α → Bool) (xs : List α) :
    xs.countP p ≤ xs.countP s ↔
      (xs.countP fun x => p x && !s x) ≤ xs.countP fun x => !p x && s x := by
  have hsplit : xs.countP p + (xs.countP fun x => !p x && s x) =
      xs.countP s + xs.countP fun x => p x && !s x := by
    induction xs with
    | nil => rfl
    | cons x xs ih =>
      simp only [List.countP_cons]
      cases p x <;> cases s x <;> simp <;> omega
  omega

/-- There are no more flagged rows than values just where no more flagged rows lack a
value than others have one. -/
theorem count_flagged_le_iff (hengine : engine.Compares) (group : List Row) :
    ((flaggedAggregate .count input flag).eval engine (.ofGroup group)).number?.getD 0 ≤
        ((Expr.aggregate .count input).eval engine (.ofGroup group)).number?.getD 0 ↔
      (group.countP fun row => row.IsFlagged flag && !(input.eval engine row.scope).isSome) ≤
        group.countP fun row => !row.IsFlagged flag && (input.eval engine row.scope).isSome := by
  rw [eval_countIf_flagged hengine, eval_aggregate, Aggregation.eval_count_map]
  change ((_ : ℕ) : ℚ) ≤ ((_ : ℕ) : ℚ) ↔ _
  rw [Nat.cast_le]
  exact countP_le_iff ..

/-- **Metrics over flagged rows.** In every group the column over flagged rows is what
the metric makes of these rows, and for counts just where each of them has a value; a
count of flagged rows is no greater than the count of all values just where no more
flagged rows lack a value than others have one. -/
theorem agree_flagged_iff {b : RollupSource} {rollup : RollupDefinition} {q : Select}
    (h : b.query rollup = .ok q) {m : RollupMetric} (hm : m ∈ rollup.metrics)
    (hconditional : m.includeConditional = true) (hengine : engine.Compares) :
    ∃ base flag plain flagged, b.registry.baseMetric? m.metricId = some base ∧
      m.flag? = some flag ∧ plain = .aggregate base.aggregation (b.metricInput base) ∧
      ⟨plain, some m.metricId⟩ ∈ q.items ∧
      ⟨flagged, some (flaggedColumn m.metricId)⟩ ∈ q.items ∧
      ∀ group : List Row,
        (base.aggregation.Agree (flagged.eval engine (.ofGroup group))
            (plain.eval engine (.ofGroup (group.filter fun row => row.IsFlagged flag))) ↔
          (base.aggregation = .count → ∀ row ∈ group, row.IsFlagged flag →
            (b.metricInput base).eval engine row.scope ≠ none)) ∧
        (base.aggregation = .count →
          ((flagged.eval engine (.ofGroup group)).number?.getD 0 ≤
              (plain.eval engine (.ofGroup group)).number?.getD 0 ↔
            (group.countP fun row => row.IsFlagged flag &&
              !((b.metricInput base).eval engine row.scope).isSome) ≤
            group.countP fun row => !row.IsFlagged flag &&
              ((b.metricInput base).eval engine row.scope).isSome)) := by
  obtain ⟨items, hitems, hsub⟩ := exists_metric_items h hm
  obtain ⟨base, hbase, ⟨hnot, -⟩ | ⟨-, flag, hflag, rfl⟩⟩ := items_of_metricItems hitems
  · simp [hconditional] at hnot
  refine ⟨base, flag, _, _, hbase, hflag, rfl, hsub List.mem_cons_self,
    hsub (List.mem_cons_of_mem _ List.mem_cons_self), fun group =>
      ⟨agree_flaggedAggregate_iff hengine group, fun hcount => ?_⟩⟩
  rw [hcount]
  exact count_flagged_le_iff hengine group

/-- Orders by date, counted by their id. -/
def ordersDocument : SchemaDocument where
  table := "orders"
  sourceTable := "raw.orders"
  baseMetrics := [{ id := "orders", sourceColumns := ["order_id"], aggregation := .count }]
  dimensions := [{ id := "date", columnName := "date", dataType := .date }]

def paidOrders : RollupMetric := ⟨"orders", true, some "is_paid"⟩

def ordersRollup : RollupDefinition where
  id := "daily"
  dimensions := ["date"]
  metrics := [paidOrders]
  targetTableName := "raw.orders_daily"
  createdAt := some ⟨0, 0⟩
  updatedAt := some ⟨0, 0⟩

/-- An order of some day, with or without an id. -/
def orderRow (id : Value) (paid : ℚ) : Row := fun column =>
  if column = "order_id" then id else if column = "is_paid" then .ofRat paid else some (.day 1)

/-- The only order without an id has not been paid. -/
theorem agree_paid_orders :
    let group := [orderRow (.ofRat 7) 1, orderRow none 0, orderRow (.ofRat 8) 0]
    ∃ q plain flagged,
      (ofRegistry ⟨ordersDocument⟩ .bigQuery none).query ordersRollup = .ok q ∧
      ⟨plain, some "orders"⟩ ∈ q.items ∧ ⟨flagged, some "orders_flagged"⟩ ∈ q.items ∧
      flagged.eval .exact (.ofGroup group) =
        plain.eval .exact (.ofGroup [orderRow (.ofRat 7) 1]) := by
  intro group
  obtain ⟨q, hq⟩ := Except.exists_of_toBool (x := (ofRegistry ⟨ordersDocument⟩ .bigQuery none).query
    ordersRollup) (by decide +kernel)
  obtain ⟨base, flag, plain, flagged, hbase, hflag, -, hplain, hflagged, hagree⟩ :=
    agree_flagged_iff hq (m := paidOrders) List.mem_cons_self rfl Engine.compares_exact
  obtain rfl := Option.some.inj hbase
  obtain rfl : "is_paid" = flag := Option.some.inj hflag
  refine ⟨q, plain, flagged, hq, hplain, hflagged, ?_⟩
  exact (hagree group).1.2 fun _ => by decide +kernel

/-- A paid order without an id is counted among paid orders, but not among orders. -/
theorem exists_flagged_not_agree :
    Registry.ofDocument ordersDocument = .ok ⟨ordersDocument⟩ ∧
      RollupCatalog.Accepts ⟨ordersDocument⟩ ordersRollup ∧
      ∃ q plain flagged,
        (ofRegistry ⟨ordersDocument⟩ .bigQuery none).query ordersRollup = .ok q ∧
        ⟨plain, some "orders"⟩ ∈ q.items ∧ ⟨flagged, some "orders_flagged"⟩ ∈ q.items ∧
        plain.eval .exact (.ofGroup [orderRow none 1]) = .ofRat 0 ∧
        flagged.eval .exact (.ofGroup [orderRow none 1]) = .ofRat 1 := by
  obtain ⟨q, hq⟩ := Except.exists_of_toBool (x := (ofRegistry ⟨ordersDocument⟩ .bigQuery none).query
    ordersRollup) (by decide +kernel)
  obtain ⟨items, hitems, hsub⟩ := exists_metric_items hq (m := paidOrders) List.mem_cons_self
  obtain rfl := Except.ok.inj hitems
  exact ⟨by decide +kernel,
    ⟨{}, ⟨[ordersRollup]⟩, ⟨0, 0⟩, .inl ⟨ordersRollup, by decide +kernel⟩⟩,
    q, .aggregate .count (.ofColumn "order_id"),
    flaggedAggregate .count (.ofColumn "order_id") "is_paid", hq, hsub List.mem_cons_self,
    hsub (List.mem_cons_of_mem _ List.mem_cons_self), by decide +kernel, by decide +kernel⟩

end RollupSource

end MetricLayer
