import MetricLayer.Proofs.Formula.Columns
import MetricLayer.Proofs.Rollup.Contents
import MetricLayer.Proofs.Route.Needs

/-!
# Two ways to answer a request

A request is answered from the source table by filtering, grouping and
aggregating its rows (`Registry.directQuery`), or from the table of a rollup by
filtering its rows and reading their columns (`Registry.servedQuery`). Where a row
of the rollup holds the columns of a group of source rows, both give the same
value for each metric (`Registry.servedExpr_of_directExpr`).
-/

namespace MetricLayer

open Relation (ReflTransGen)
open Sql (Engine Expr Row Scope SelectItem Select Value)

namespace Registry

variable (r : Registry)

/-- A requested metric, as an aggregate of source rows. -/
def directExpr (d : Sql.Dialect) (rollup : RollupDefinition) (id : String) : Except Error Expr :=
  match r.requested id with
  | .base _ => r.columnExpr rollup id
  | .calculated m => (r.compile d m.formula (some m.id)).bind fun c => .ok c.expr
  | .system => .ok (SystemMetric.daysInRange.expr r.dateColumn)
  | .unknown => .error (.unknown id)

/-- A requested metric, as it is read off the columns of a rollup. -/
def servedExpr (id : String) : Except Error Expr :=
  match r.requested id with
  | .base _ => .ok (.ofColumn id)
  | .calculated m =>
    ((Formula.read m.formula).mapError Error.formula).bind fun f => f.lower (r.overColumns [m.id])
  | .system | .unknown => .error (.unknown id)

/-- The query that answers a request from the source table. Which rows count as
flagged is said by `rollup`. -/
def directQuery (d : Sql.Dialect) (rollup : RollupDefinition) (request : RouteRequest) :
    Except Error Select := do
  let dimensionExpr := (RollupSource.ofRegistry r d none).dimensionExpr rollup.id
  let dimensions ← request.dimensions.mapM dimensionExpr
  let filters ← request.filters.mapM fun (id, values) => do
    let e ← dimensionExpr id
    .ok (.inList e (values.map .literal) false)
  let metrics ← request.metrics.mapM (r.directExpr d rollup)
  .ok {
    source := r.sourceTable
    items := (dimensions ++ metrics).map fun expr => { expr }
    filters
    groupBy := dimensions }

/-- The query that answers a request from the table of a rollup, row by row. -/
def servedQuery (rollup : RollupDefinition) (request : RouteRequest) : Except Error Select := do
  let metrics ← request.metrics.mapM r.servedExpr
  .ok {
    source := rollup.targetTableName
    items := (request.dimensions.map Expr.ofColumn ++ metrics).map fun expr => { expr }
    filters := request.filters.map fun (id, values) =>
      .inList (.ofColumn id) (values.map .literal) false }

variable {r} {d : Sql.Dialect} {rollup : RollupDefinition} {engine : Engine} {id : String}

/-! ## Metrics -/

/-- A row holds the columns that a requested metric is computed from, as they are
in a scope. -/
def HoldsColumns (r : Registry) (rollup : RollupDefinition) (id : String) (engine : Engine)
    (s s' : Scope) : Prop :=
  ∀ column ∈ r.columnsOf id, ∀ e, r.columnExpr rollup column = .ok e →
    e.eval engine s = s'.row column

theorem requested_calculated {m : CalculatedMetric} (h : r.requested id = .calculated m) :
    r.calculatedMetric? id = some m := by
  rw [requested] at h
  split at h
  · cases h
  · rename_i hm
    obtain rfl := RequestedMetric.calculated.inj h
    exact (metric?_eq_calculated_iff.1 hm).2
  · cases h
  · split at h <;> cases h

theorem requested_base {m : BaseMetric} (h : r.requested id = .base m) :
    r.baseMetric? id = some m ∨
      r.metric? id = none ∧ (unflagged? id).bind r.baseMetric? = some m := by
  rw [requested] at h
  split at h
  · rename_i hm
    obtain rfl := RequestedMetric.base.inj h
    exact .inl (metric?_eq_base_iff.1 hm)
  · cases h
  · cases h
  · rename_i hnone
    split at h <;> [skip; cases h]
    rename_i hm
    obtain rfl := RequestedMetric.base.inj h
    exact .inr ⟨hnone, hm⟩

theorem freeOfSystem_of_usesSystemMetric (hr : r.WellFormed) {root : String}
    (h : r.usesSystemMetric root = false) : r.FreeOfSystem root := by
  intro m hm hroot f hread name hname
  simp only [usesSystemMetric, List.any_eq_false, DependencyGraph.mem_reachable] at h
  have hreads := h m.id hroot
  rw [hr.calculatedMetric?_eq_some_iff.2 ⟨hm, rfl⟩, Option.any_some] at hreads
  obtain ⟨references, hextract, hnames⟩ := Formula.extractReferences_of_read hread
  rw [← hnames, List.mem_map] at hname
  obtain ⟨reference, hreference, rfl⟩ := hname
  simp only [CalculatedMetric.readsSystemMetric, hextract, List.any_eq_true, not_exists,
    not_and] at hreads
  exact Option.not_isSome_iff_eq_none.1 (hreads reference hreference)

/-- What can be aggregated from source rows can be read off a rollup. -/
theorem servedExpr_of_directExpr (hr : r.WellFormed) (hroutable : r.isRoutable id = true) {e : Expr}
    (h : r.directExpr d rollup id = .ok e) :
    ∃ e', r.servedExpr id = .ok e' ∧ e.Agrees (r.HoldsColumns rollup id) e' := by
  cases hid : r.requested id with
  | base m =>
    simp only [directExpr, hid] at h
    refine ⟨.ofColumn id, by simp [servedExpr, hid], fun engine s s' hs => ?_⟩
    exact hs id (by simp [columnsOf, hid]) e h
  | calculated m =>
    simp only [directExpr, hid, Except.bind_eq_ok] at h
    obtain ⟨c, hc, h⟩ := h
    obtain rfl := Except.ok.inj h
    obtain ⟨references, f, hcompiled⟩ := compile_eq_ok_iff.1 hc
    obtain ⟨hm, hid'⟩ := hr.calculatedMetric?_eq_some_iff.1 (requested_calculated hid)
    have hsystem : r.FreeOfSystem m.id := by
      refine freeOfSystem_of_usesSystemMetric hr ?_
      simpa [isRoutable, hid] using hroutable
    obtain ⟨e', he', hagrees⟩ := lower_overColumns hr hsystem hm .refl hcompiled.parsed
      hcompiled.lowered
    refine ⟨e', by simpa [servedExpr, hid, hcompiled.parsed, Except.mapError, Except.bind] using he',
      fun engine s s' hs => hagrees engine s s' fun base hbase b hb => ?_⟩
    exact hs base (by simpa [columnsOf, hid] using hbase) b.expr (by rw [columnExpr, hb])
  | system => simp [isRoutable, hid] at hroutable
  | unknown => simp [directExpr, hid] at h

/-- An aggregate is decided by the columns that it is computed from. -/
theorem eval_directExpr_congr (hr : r.WellFormed) (hroutable : r.isRoutable id = true) {e : Expr}
    (h : r.directExpr d rollup id = .ok e) {s s' : Scope}
    (hs : ∀ column ∈ r.columnsOf id, ∀ x, r.columnExpr rollup column = .ok x →
      x.eval engine s = x.eval engine s') :
    e.eval engine s = e.eval engine s' := by
  obtain ⟨e', -, hagrees⟩ := servedExpr_of_directExpr hr hroutable h
  -- one row that holds the columns of both scopes
  let row : Row := fun column =>
    match r.columnExpr rollup column with
    | .ok x => x.eval engine s
    | .error _ => none
  have hrow : r.HoldsColumns rollup id engine s row.scope := fun column _ x hx => by
    simp only [Row.scope, row, hx]
  have hrow' : r.HoldsColumns rollup id engine s' row.scope := fun column hcolumn x hx => by
    rw [← hs column hcolumn x hx, hrow column hcolumn x hx]
  rw [hagrees engine s _ hrow, hagrees engine s' _ hrow']

/-! ## Queries -/

/-- Whether dimensions with these values satisfy the filters of a request. -/
def admits (engine : Engine) (request : RouteRequest) (value : String → Value) : Bool :=
  request.filters.all fun condition =>
    ((value condition.1).isIn (condition.2.map engine.literal) false).holds

theorem eval_inList (s : Scope) (e : Expr) (values : List Json) :
    (Expr.inList e (values.map .literal) false).eval engine s =
      (e.eval engine s).isIn (values.map engine.literal) false := by
  rw [Expr.eval, Expr.evalAll_eq_map, List.map_map]
  rfl

variable {request : RouteRequest} {direct : Select}

/-- What the direct query of a request does, where `metrics` are its metrics. -/
structure Direct (r : Registry) (d : Sql.Dialect) (rollup : RollupDefinition)
    (request : RouteRequest) (direct : Select) (metrics : List Expr) : Prop where
  exprs : List.Forall₂ (fun id e => r.directExpr d rollup id = .ok e) request.metrics metrics
  limit : direct.limit = none
  groupBy : direct.groupBy = [] ↔ request.dimensions = []
  key : ∀ engine row, direct.key engine row =
    request.dimensions.map fun id => r.dimensionValue d engine id row
  kept : ∀ engine source, direct.kept engine source =
    source.filter fun row => admits engine request fun id => r.dimensionValue d engine id row
  result : ∀ engine s, direct.result engine s =
    (request.dimensions.map fun id => r.dimensionValue d engine id s.row) ++
      metrics.map (·.eval engine s)

theorem direct_of_directQuery (h : r.directQuery d rollup request = .ok direct) :
    ∃ metrics, r.Direct d rollup request direct metrics := by
  simp only [directQuery, bind, Except.bind_eq_ok, Except.mapM_eq_ok] at h
  obtain ⟨dimensions, hdimensions, filters, hfilters, metrics, hmetrics, h⟩ := h
  obtain rfl := Except.ok.inj h
  clear h
  refine ⟨metrics, hmetrics, rfl, ?_, fun engine row => ?_, fun engine source => ?_,
    fun engine s => ?_⟩
  · have := hdimensions.length_eq
    rw [← List.length_eq_zero_iff, ← List.length_eq_zero_iff, this]
  · exact RollupSource.map_eval_dimensionExpr hdimensions row.scope
  · refine List.filter_congr fun row _ => ?_
    dsimp only
    rw [admits]
    generalize request.filters = conditions at hfilters
    induction hfilters with
    | nil => rfl
    | cons he _ ih =>
      obtain ⟨inner, hinner, he⟩ := he
      obtain rfl := Except.ok.inj he
      rw [List.all_cons, List.all_cons, ih, eval_inList,
        RollupSource.eval_dimensionExpr hinner]
      rfl
  · rw [Select.result, List.map_map, List.map_append]
    exact congrArg (· ++ _) (RollupSource.map_eval_dimensionExpr hdimensions s)

theorem Direct.key_eq_iff {metrics : List Expr} (h : r.Direct d rollup request direct metrics)
    {x y : Row} :
    direct.key engine x = direct.key engine y ↔
      ∀ id ∈ request.dimensions,
        r.dimensionValue d engine id x = r.dimensionValue d engine id y := by
  rw [h.key, h.key, List.map_inj_left]

/-- What the query of a request over a rollup does. -/
structure Served (r : Registry) (request : RouteRequest) (served : Select) (metrics : List Expr) :
    Prop where
  limit : served.limit = none
  kept : ∀ engine table, served.kept engine table =
    table.filter fun row => admits engine request row
  result : ∀ engine s, served.result engine s =
    request.dimensions.map s.row ++ metrics.map (·.eval engine s)

/-- The metrics of a request can be read off a rollup. -/
theorem servedExprs_of_directExprs (hr : r.WellFormed) {ids : List String} {es : List Expr}
    (h : List.Forall₂ (fun id e => r.directExpr d rollup id = .ok e) ids es)
    (hroutable : ∀ id ∈ ids, r.isRoutable id = true) :
    ∃ es', ids.mapM r.servedExpr = .ok es' ∧
      ∀ engine s s', (∀ id ∈ ids, r.HoldsColumns rollup id engine s s') →
        es.map (·.eval engine s) = es'.map (·.eval engine s') := by
  simp only [Except.mapM_eq_ok]
  induction h with
  | nil => exact ⟨[], .nil, fun _ _ _ _ => rfl⟩
  | @cons id e ids es he _ ih =>
    obtain ⟨es', hes', hrest⟩ := ih fun id hid => hroutable id (List.mem_cons_of_mem _ hid)
    obtain ⟨e', he', hagrees⟩ := servedExpr_of_directExpr hr (hroutable id List.mem_cons_self) he
    refine ⟨e' :: es', .cons he' hes', fun engine s s' hs => ?_⟩
    rw [List.map_cons, List.map_cons, hagrees engine s s' (hs id List.mem_cons_self),
      hrest engine s s' fun id hid => hs id (List.mem_cons_of_mem _ hid)]

/-- A request that has a direct answer is answered by a rollup, too. -/
theorem exists_served (hr : r.WellFormed)
    (hroutable : ∀ id ∈ request.metrics, r.isRoutable id = true) {metrics : List Expr}
    (h : r.Direct d rollup request direct metrics) :
    ∃ served metrics', r.servedQuery rollup request = .ok served ∧
      r.Served request served metrics' ∧
      ∀ engine s s', (∀ id ∈ request.metrics, r.HoldsColumns rollup id engine s s') →
        metrics.map (·.eval engine s) = metrics'.map (·.eval engine s') := by
  obtain ⟨metrics', hmetrics', hagrees⟩ := servedExprs_of_directExprs hr h.exprs hroutable
  refine ⟨_, metrics', by rw [servedQuery, hmetrics']; rfl, ⟨rfl, fun engine table => ?_,
    fun engine s => ?_⟩, hagrees⟩
  · refine List.filter_congr fun row _ => ?_
    rw [admits, List.all_map]
    refine congrArg _ (funext fun condition => ?_)
    exact congrArg Value.holds (eval_inList _ _ _)
  · rw [Select.result, List.map_map, List.map_append, List.map_map]
    rfl

/-- The rows of a rollup hold the columns that it has. -/
theorem holdsColumns_rowOf (hr : r.WellFormed) {q : Select}
    (hq : (RollupSource.ofRegistry r d none).query rollup = .ok q)
    (hu : rollup.Unambiguous r (r.neededColumns request)) (hid : id ∈ request.metrics)
    (hcolumns : r.columnsOf id ⊆ rollup.availableMetrics) (s : Scope) :
    r.HoldsColumns rollup id engine s (q.rowOf (q.result engine s)).scope := by
  intro column hcolumn e he
  obtain ⟨e', he', hrow⟩ :=
    RollupSource.rowOf_column hr hq hu (mem_neededColumns hid hcolumn) (hcolumns hcolumn)
  obtain rfl : e' = e := Except.ok.inj (he'.symm.trans he)
  exact (hrow engine s).symm

theorem admits_congr {value value' : String → Value}
    (h : ∀ id ∈ request.filters.map (·.1), value id = value' id) :
    admits engine request value = admits engine request value' := by
  rw [admits, admits, Bool.eq_iff_iff, List.all_eq_true, List.all_eq_true]
  exact forall₂_congr fun condition hcondition => by rw [h _ (List.mem_map_of_mem hcondition)]

/-! ## An example -/

/-- Searches, by date and country. -/
def searches : Registry := ⟨{
  table := "search"
  sourceTable := "raw.search"
  baseMetrics := [
    { id := "clicks", sourceColumns := ["clicks"], aggregation := .sum },
    { id := "cost", sourceColumns := ["cost"], aggregation := .sum },
    { id := "avg_price", sourceColumns := ["price"], aggregation := .avg }]
  calculatedMetrics := [{ id := "cost_per_click", formula := "{cost} / {clicks}" }]
  dimensions := [
    { id := "date", columnName := "date", dataType := .date },
    { id := "country", columnName := "country" }] }⟩

theorem wellFormed_searches : searches.WellFormed :=
  ⟨by decide +kernel, by decide +kernel, by decide +kernel⟩

/-- A search, with the same number in each column of numbers. -/
def searchRow (day : Int) (country : String) (number : ℚ) : Row := fun column =>
  if column = "date" then some (.day day)
  else if column = "country" then some (.text country)
  else .ofRat number

end Registry

/-- Metrics of searches by date and country, in a table that is built. -/
def RollupDefinition.daily (ids : List String) : RollupDefinition where
  id := "daily"
  dimensions := ["date", "country"]
  metrics := ids.map fun metricId => { metricId }
  targetTableName := "raw.search_daily"
  build := { status := .ready }

end MetricLayer
