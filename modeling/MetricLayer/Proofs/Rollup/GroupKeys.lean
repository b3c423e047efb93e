import MetricLayer.Proofs.Route.Rules
import MetricLayer.Proofs.Sql.Tables

/-!
# Group keys of rollups

The query of a rollup selects what it groups by and aggregates, and nothing else. Its keys
are the items that are no aggregates, one for each dimension (`groupBy_eq_filter`,
`groupedBy_of_query`); metrics, over flagged rows or not, add no key and drop none. The
router decides from the definition of a rollup alone; `columns_of_query` says that the
columns it counts on are those of the query, dimensions as keys and metrics as aggregates.
-/

namespace MetricLayer

open Sql (Expr Select SelectItem)

/-- What rows are grouped by for a dimension: its column, or its expression in the dialect,
in parentheses. -/
inductive Registry.GroupedBy (r : Registry) (d : Sql.Dialect) (id : String) : Expr → Prop
  | column {c : Dimension} (known : r.dimension? id = some (.column c)) :
      GroupedBy r d id (.ofColumn c.columnName)
  | calculated {c : CalculatedDimension} {compiled : RowExpression.Compiled}
      (known : r.dimension? id = some (.calculated c))
      (compiles : RowExpression.compile d c.sqlExpression = .ok compiled) :
      GroupedBy r d id (.nested (.raw compiled.sql))

namespace Registry.GroupedBy

variable {r : Registry} {d : Sql.Dialect} {id : String} {e e' : Expr}

theorem unique (h : r.GroupedBy d id e) (h' : r.GroupedBy d id e') : e = e' := by
  cases h with
  | column known =>
    cases h' with
    | column known' => rw [known] at known'; cases known'; rfl
    | calculated known' _ => rw [known] at known'; cases known'
  | calculated known compiles =>
    cases h' with
    | column known' => rw [known] at known'; cases known'
    | calculated known' compiles' =>
      rw [known] at known'
      cases known'
      rw [compiles] at compiles'
      cases compiles'
      rfl

theorem isAggregate_eq_false (h : r.GroupedBy d id e) : e.isAggregate = false := by
  cases h <;> rfl

/-- The keys of a list of dimensions are determined by it. -/
theorem unique_list {ids : List String} {es es' : List Expr}
    (h : List.Forall₂ (r.GroupedBy d) ids es) (h' : List.Forall₂ (r.GroupedBy d) ids es') :
    es = es' := by
  induction h generalizing es' with
  | nil => exact (List.forall₂_nil_left_iff.1 h').symm
  | cons he _ ih =>
    obtain ⟨e', rest', he', hrest', rfl⟩ := List.forall₂_cons_left_iff.1 h'
    rw [he.unique he', ih hrest']

end Registry.GroupedBy

namespace RollupSource

variable {r : Registry} {d : Sql.Dialect} {optimized : Option OptimizedSource}
  {rollup : RollupDefinition} {q : Select}

theorem groupedBy_of_dimensionExpr {rollupId id : String} {e : Expr}
    (h : (ofRegistry r d optimized).dimensionExpr rollupId id = .ok e) : r.GroupedBy d id e := by
  rw [dimensionExpr] at h
  cases hdim : r.dimension? id with
  | none => simp [ofRegistry, hdim] at h
  | some kind =>
    cases kind with
    | column c =>
      simp only [ofRegistry, hdim] at h
      obtain rfl := Except.ok.inj h
      exact .column hdim
    | calculated c =>
      simp only [ofRegistry, hdim, bind, Except.bind_eq_ok] at h
      obtain ⟨compiled, compiles, h⟩ := h
      obtain rfl := Except.ok.inj h
      exact .calculated hdim compiles

theorem groupedBy_of_query (h : (ofRegistry r d optimized).query rollup = .ok q) :
    List.Forall₂ (r.GroupedBy d) rollup.dimensions q.groupBy := by
  obtain ⟨dimensions, metrics, hdimensions, -, rfl⟩ := query_eq_ok h
  exact hdimensions.imp fun _ _ => groupedBy_of_dimensionExpr

section

variable {b : RollupSource} {rollupId : String}

theorem isAggregate_flaggedAggregate (aggregation : Aggregation) (input : Expr) (flag : String) :
    (flaggedAggregate aggregation input flag).isAggregate = true := by
  cases aggregation <;> rfl

theorem isAggregate_of_metricItems {m : RollupMetric} {items : List SelectItem}
    (h : b.metricItems rollupId m = .ok items) :
    ∀ item ∈ items, item.expr.isAggregate = true := by
  obtain ⟨base, -, ⟨-, rfl⟩ | ⟨-, flag, -, rfl⟩⟩ := items_of_metricItems h
  · rw [List.forall_mem_singleton]
    rfl
  · rw [List.forall_mem_cons, List.forall_mem_singleton]
    exact ⟨rfl, isAggregate_flaggedAggregate base.aggregation (b.metricInput base) flag⟩

theorem isAggregate_flatten {ms : List RollupMetric} {itemss : List (List SelectItem)}
    (h : List.Forall₂ (fun m items => b.metricItems rollupId m = .ok items) ms itemss) :
    ∀ item ∈ itemss.flatten, item.expr.isAggregate = true := by
  induction h with
  | nil => simp
  | cons hitems _ ih =>
    rw [List.flatten_cons, List.forall_mem_append]
    exact ⟨isAggregate_of_metricItems hitems, ih⟩

end

/-! ## Keys and aggregates among the items -/

/-- A query selects a key for each dimension and then aggregates. -/
theorem items_of_query (h : (ofRegistry r d optimized).query rollup = .ok q) :
    ∃ keys aggregates, q.items = keys ++ aggregates ∧
      keys.length = rollup.dimensions.length ∧ q.groupBy = keys.map (·.expr) ∧
      (∀ item ∈ keys, item.expr.isAggregate = false) ∧
      ∀ item ∈ aggregates, item.expr.isAggregate = true := by
  have hgrouped := groupedBy_of_query h
  obtain ⟨dimensions, metrics, -, hmetrics, rfl⟩ := query_eq_ok h
  have hlength : dimensions.length = rollup.dimensions.length := hgrouped.length_eq.symm
  refine ⟨_, metrics.flatten, rfl, ?_, ?_, ?_, isAggregate_flatten hmetrics⟩
  · rw [List.length_map, List.length_zip, hlength, Nat.min_self]
  · rw [List.map_map]
    exact (List.map_fst_zip hlength.le).symm
  · rw [List.forall_mem_map]
    rintro ⟨e, id⟩ hmem
    obtain ⟨id', hkey, -⟩ := exists_mem_zip_of_forall₂ hgrouped.flip (List.of_mem_zip hmem).1
    exact Registry.GroupedBy.isAggregate_eq_false hkey

theorem take_labels (h : (ofRegistry r d optimized).query rollup = .ok q) :
    (q.items.take rollup.dimensions.length).map (·.label) = rollup.dimensions.map some := by
  rw [List.map_take, labels_query h, List.map_append,
    List.take_left' (by rw [List.length_map])]

theorem drop_labels (h : (ofRegistry r d optimized).query rollup = .ok q) :
    (q.items.drop rollup.dimensions.length).map (·.label) = rollup.availableMetrics.map some := by
  rw [List.map_drop, labels_query h, List.map_append,
    List.drop_left' (by rw [List.length_map])]

/-- **The columns of a rollup.** The query of a rollup selects its dimensions and then the
columns of its metrics. It groups by what it selects for the dimensions, which is all that
it selects beside aggregates: the column or the expression of each dimension, in order, as
does every query with the same dimensions. So the router lets a rollup answer where the
dimensions needed are among the keys of its query and the metrics needed among the
aggregates. -/
theorem columns_of_query (h : (ofRegistry r d optimized).query rollup = .ok q) :
    q.items.map (·.label) = (rollup.dimensions ++ rollup.availableMetrics).map some ∧
    q.groupBy = (q.items.take rollup.dimensions.length).map (·.expr) ∧
    q.items.take rollup.dimensions.length =
      q.items.filter (fun item => !item.expr.isAggregate) ∧
    List.Forall₂ (r.GroupedBy d) rollup.dimensions q.groupBy ∧
    (∀ (optimized' : Option OptimizedSource) (rollup' : RollupDefinition) (q' : Select),
      (ofRegistry r d optimized').query rollup' = .ok q' →
        rollup'.dimensions = rollup.dimensions → q'.groupBy = q.groupBy) ∧
    ∀ (router : Router) (needs : RouteNeeds), (router.score? needs rollup).isSome ↔
      needs.unroutable = none ∧ rollup.build.isReady = true ∧
        (∀ id ∈ needs.dimensions,
          some id ∈ (q.items.take rollup.dimensions.length).map (·.label)) ∧
        (∀ column ∈ needs.columns,
          some column ∈ (q.items.drop rollup.dimensions.length).map (·.label)) ∧
        (needs.hasDistinct = true →
          (sortedSet rollup.dimensions).length = needs.dimensions.length) := by
  have hgrouped := groupedBy_of_query h
  obtain ⟨keys, aggregates, hitems, hlength, hkeys, hplain, haggregate⟩ := items_of_query h
  have htake : q.items.take rollup.dimensions.length = keys := by
    rw [hitems, List.take_left' hlength]
  refine ⟨labels_query h, by rw [htake, hkeys], ?_, hgrouped, ?_, fun router needs => ?_⟩
  · rw [htake, hitems, List.filter_append, List.filter_eq_self.2, List.filter_eq_nil_iff.2,
      List.append_nil]
    · simpa using haggregate
    · simpa using hplain
  · intro optimized' rollup' q' h' hdimensions
    exact Registry.GroupedBy.unique_list (hdimensions ▸ groupedBy_of_query h') hgrouped
  · rw [Router.isSome_score?, take_labels h, drop_labels h]
    simp only [List.mem_map, Option.some.injEq, exists_eq_right, List.subset_def]

/-! ## An example -/

/-- Visits to a site, in which a visitor is a user in a city. -/
def cityVisits : SchemaDocument where
  table := "visits"
  sourceTable := "raw.visits"
  baseMetrics := [
    { id := "visitors", sourceColumns := ["user", "city"], aggregation := .countDistinct },
    { id := "cost", sourceColumns := ["cost"], aggregation := .sum }]
  dimensions := [{ id := "day", columnName := "visit_day" }]
  calculatedDimensions := [
    { id := "kind", sqlExpression := "CASE WHEN \x7bis_new\x7d = 1 THEN 'new' ELSE 'known' END" }]

def cityVisitsKeys : OptimizedSource where
  sourceTable := "raw.visits"
  optimizedTable := "raw.visits_optimized"
  partitionColumn := "visit_day"
  keyMappings := [
    { keyColumnName := "_key_user_city", sourceColumns := ["user", "city"],
      metricIds := ["visitors"] }]
  build := { status := .ready }

def visitsByKind : RollupDefinition where
  id := "by_kind"
  dimensions := ["kind", "day"]
  metrics := [⟨"visitors", true, some "is_new"⟩, ⟨"cost", false, none⟩]
  build := { status := .ready }

theorem columns_of_query_visitsByKind :
    ∃ q, (ofRegistry ⟨cityVisits⟩ .duckDb (some cityVisitsKeys)).query visitsByKind = .ok q ∧
      q.items.map (·.label) =
        [some "kind", some "day", some "visitors", some "visitors_flagged", some "cost"] ∧
      q.groupBy.map (·.render .duckDb) =
        ["(CASE WHEN \"is_new\" = 1 THEN 'new' ELSE 'known' END)", "\"visit_day\""] ∧
      ∀ router : Router, (router.score?
        { dimensions := ["kind"], columns := ["cost", "visitors_flagged"] }
        visitsByKind).isSome := by
  obtain ⟨q, hq, hlabels⟩ := Except.exists_of_any
    (x := (ofRegistry ⟨cityVisits⟩ .duckDb (some cityVisitsKeys)).query visitsByKind)
    (p := fun q => q.groupBy.map (·.render .duckDb) =
      ["(CASE WHEN \"is_new\" = 1 THEN 'new' ELSE 'known' END)", "\"visit_day\""])
    (by decide +kernel)
  obtain ⟨labels, -, -, -, -, routes⟩ := columns_of_query hq
  refine ⟨q, hq, labels, of_decide_eq_true hlabels, fun router => (routes router _).2 ?_⟩
  rw [take_labels hq, drop_labels hq]
  decide

end RollupSource

end MetricLayer
