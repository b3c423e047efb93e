import MetricLayer.Proofs.Registry.Agreement
import MetricLayer.Proofs.Sql.Evaluation
import MetricLayer.Rollup.Select
import MetricLayer.Route.Router

/-!
# What a rollup holds

The table of a rollup has a row for each group of source rows with the same
values of its dimensions. Such a row holds the values of the dimensions
(`RollupSource.rowOf_dimension`) and, for each column of a metric, what the
aggregate behind it makes of the group (`RollupSource.rowOf_column`).
-/

namespace MetricLayer

open Sql (Datum Engine Expr Row Scope SelectItem Select Value)

theorem unflagged?_flaggedColumn {id : String} (h : id ≠ "") :
    unflagged? (flaggedColumn id) = some id := by
  have hreverse : (flaggedColumn id).toList.reverse =
      flaggedSuffix.toList.reverse ++ id.toList.reverse := by
    simp [flaggedColumn]
  have hlength : 0 < id.toList.length := by
    rw [List.length_pos_iff]
    exact fun hnil => h (String.toList_inj.1 hnil)
  rw [unflagged?, hreverse]
  simp [hlength]

namespace Registry

theorem WellFormed.ne_empty_of_baseMetric? {r : Registry} (hr : r.WellFormed) {id : String}
    {m : BaseMetric} (h : r.baseMetric? id = some m) : id ≠ "" := by
  rintro rfl
  obtain ⟨hmem, hid⟩ := hr.baseMetric?_eq_some_iff.1 h
  have hvalid := hr.valid m.id (mem_metricIds_of_base hmem)
  rw [hid] at hvalid
  exact absurd hvalid (by decide)

/-- The value of a dimension in a row of the source table. -/
def dimensionValue (r : Registry) (d : Sql.Dialect) (engine : Engine) (id : String) (row : Row) :
    Value :=
  match r.dimension? id with
  | some (.column c) => row c.columnName
  | some (.calculated c) =>
    match RowExpression.compile d c.sqlExpression with
    | .ok compiled => engine.raw compiled.sql row
    | .error _ => none
  | none => none

/-- The aggregate of source rows that a column of metrics stands for, over flagged
rows by the flag that the rollup names. -/
def columnExpr (r : Registry) (rollup : RollupDefinition) (column : String) : Except Error Expr :=
  match r.baseMetric? column with
  | some m => .ok m.expr
  | none =>
    match (unflagged? column).bind r.baseMetric? with
    | none => .error (.unknown column)
    | some m =>
      match (rollup.metric? m.id).bind (·.flag?) with
      | none => .error (.schema (.noFlagColumn m.id))
      | some flag => .ok (RollupSource.flaggedAggregate m.aggregation m.input flag)

end Registry

/-- The columns of a rollup have names of their own, and where a column over flagged
rows is needed, no base metric has its name. -/
structure RollupDefinition.Unambiguous (r : Registry) (rollup : RollupDefinition)
    (needed : List String) : Prop where
  nodup : (rollup.dimensions ++ rollup.availableMetrics).Nodup
  flagged : ∀ m ∈ rollup.metrics, m.includeConditional = true →
    flaggedColumn m.metricId ∈ needed → r.baseMetric? (flaggedColumn m.metricId) = none

namespace RollupSource

variable {r : Registry} {d : Sql.Dialect} {rollup : RollupDefinition} {needed : List String}
  {q : Select} {engine : Engine}

theorem metricInput_ofRegistry (m : BaseMetric) :
    (ofRegistry r d none).metricInput m = m.input := by
  have hkey : (ofRegistry r d none).keyColumn? m = none := by
    rw [keyColumn?]
    split <;> rfl
  rw [metricInput, hkey]

/-- Dimensions are expressions over one row. -/
theorem eval_dimensionExpr {rollupId id : String} {e : Expr}
    (h : (ofRegistry r d none).dimensionExpr rollupId id = .ok e) (s : Scope) :
    e.eval engine s = r.dimensionValue d engine id s.row := by
  rw [dimensionExpr] at h
  rw [Registry.dimensionValue]
  cases hdim : r.dimension? id with
  | none => simp [ofRegistry, hdim] at h
  | some kind =>
    cases kind with
    | column c =>
      simp only [ofRegistry, hdim] at h
      obtain rfl := Except.ok.inj h
      rfl
    | calculated c =>
      simp only [ofRegistry, hdim, bind, Except.bind_eq_ok] at h
      obtain ⟨compiled, hcompiled, h⟩ := h
      obtain rfl := Except.ok.inj h
      simp only [hcompiled]
      rfl

theorem map_eval_dimensionExpr {rollupId : String} {ids : List String} {es : List Expr}
    (h : List.Forall₂ (fun id e => (ofRegistry r d none).dimensionExpr rollupId id = .ok e) ids es)
    (s : Scope) :
    es.map (·.eval engine s) = ids.map fun id => r.dimensionValue d engine id s.row := by
  induction h with
  | nil => rfl
  | cons he _ ih => rw [List.map_cons, List.map_cons, ih, eval_dimensionExpr he]

/-! ## The items of the query -/

theorem query_eq_ok {b : RollupSource} (h : b.query rollup = .ok q) :
    ∃ dimensions metrics,
      List.Forall₂ (fun id e => b.dimensionExpr rollup.id id = .ok e)
        rollup.dimensions dimensions ∧
      List.Forall₂ (fun m items => b.metricItems rollup.id m = .ok items)
        rollup.metrics metrics ∧
      q = {
        source := b.table
        items := (dimensions.zip rollup.dimensions).map (fun (expr, id) =>
          { expr, label := some id }) ++ metrics.flatten
        groupBy := dimensions } := by
  simp only [query, bind, Except.bind_eq_ok] at h
  obtain ⟨dimensions, hdimensions, metrics, hmetrics, h⟩ := h
  exact ⟨dimensions, metrics, Except.mapM_eq_ok.1 hdimensions, Except.mapM_eq_ok.1 hmetrics,
    (Except.ok.inj h).symm⟩

theorem baseMetric?_id {id : String} {m : BaseMetric} (h : r.baseMetric? id = some m) :
    m.id = id := by
  simpa using List.find?_some h

theorem items_of_metricItems {b : RollupSource} {rollupId : String} {m : RollupMetric}
    {items : List SelectItem} (h : b.metricItems rollupId m = .ok items) :
    ∃ base, b.registry.baseMetric? m.metricId = some base ∧
      (m.includeConditional = false ∧
          items = [⟨.aggregate base.aggregation (b.metricInput base), some m.metricId⟩] ∨
        m.includeConditional = true ∧ ∃ flag, m.flag? = some flag ∧
          items = [⟨.aggregate base.aggregation (b.metricInput base), some m.metricId⟩,
            ⟨flaggedAggregate base.aggregation (b.metricInput base) flag,
              some (flaggedColumn m.metricId)⟩]) := by
  rw [metricItems] at h
  cases hbase : b.registry.baseMetric? m.metricId with
  | none => simp [hbase] at h
  | some base =>
    have hid := baseMetric?_id hbase
    simp only [hbase, hid] at h
    refine ⟨base, rfl, ?_⟩
    split at h
    · rename_i hconditional
      exact .inl ⟨by simpa using hconditional, (Except.ok.inj h).symm⟩
    · rename_i hconditional
      cases hflag : m.flag? with
      | none => simp [hflag] at h
      | some flag =>
        simp only [hflag] at h
        exact .inr ⟨by simpa using hconditional, flag, rfl, (Except.ok.inj h).symm⟩

theorem metricItems_eq_ok {rollupId : String} {m : RollupMetric} {items : List SelectItem}
    (h : (ofRegistry r d none).metricItems rollupId m = .ok items) :
    ∃ base, r.baseMetric? m.metricId = some base ∧
      (m.includeConditional = false ∧ items = [⟨base.expr, some m.metricId⟩] ∨
        m.includeConditional = true ∧ ∃ flag, m.flag? = some flag ∧
          items = [⟨base.expr, some m.metricId⟩,
            ⟨flaggedAggregate base.aggregation base.input flag,
              some (flaggedColumn m.metricId)⟩]) := by
  obtain ⟨base, hbase, hitems⟩ := items_of_metricItems h
  rw [metricInput_ofRegistry] at hitems
  exact ⟨base, hbase, hitems⟩

section

variable {b : RollupSource}

theorem labels_metricItems {rollupId : String} {m : RollupMetric} {items : List SelectItem}
    (h : b.metricItems rollupId m = .ok items) :
    items.map (·.label) = m.outputColumns.map some := by
  obtain ⟨_, _, ⟨hconditional, rfl⟩ | ⟨hconditional, _, _, rfl⟩⟩ := items_of_metricItems h <;>
    simp [RollupMetric.outputColumns, hconditional]

theorem labels_flatten {rollupId : String} {ms : List RollupMetric}
    {itemss : List (List SelectItem)}
    (h : List.Forall₂ (fun m items => b.metricItems rollupId m = .ok items) ms itemss) :
    itemss.flatten.map (·.label) = (ms.flatMap RollupMetric.outputColumns).map some := by
  induction h with
  | nil => rfl
  | cons hitems _ ih =>
    rw [List.flatten_cons, List.map_append, ih, labels_metricItems hitems, List.flatMap_cons,
      List.map_append]

/-- The columns of the table are the dimensions and those of the metrics. -/
theorem labels_query (h : b.query rollup = .ok q) :
    q.items.map (·.label) = (rollup.dimensions ++ rollup.availableMetrics).map some := by
  obtain ⟨dimensions, metrics, hdimensions, hmetrics, rfl⟩ := query_eq_ok h
  have hzip : (dimensions.zip rollup.dimensions).map Prod.snd = rollup.dimensions :=
    List.map_snd_zip hdimensions.length_eq.le
  rw [List.map_append, List.map_append, labels_flatten hmetrics, List.map_map,
    RollupDefinition.availableMetrics]
  conv_rhs => rw [← hzip, List.map_map]
  rfl

theorem exists_dimension_item (h : b.query rollup = .ok q) {id : String}
    (hid : id ∈ rollup.dimensions) :
    ∃ e, b.dimensionExpr rollup.id id = .ok e ∧ ⟨e, some id⟩ ∈ q.items := by
  obtain ⟨dimensions, metrics, hdimensions, -, rfl⟩ := query_eq_ok h
  obtain ⟨e, he, hmem⟩ := exists_mem_zip_of_forall₂ hdimensions hid
  exact ⟨e, he, List.mem_append_left _ (List.mem_map_of_mem hmem)⟩

theorem exists_metric_items (h : b.query rollup = .ok q) {m : RollupMetric}
    (hm : m ∈ rollup.metrics) :
    ∃ items, b.metricItems rollup.id m = .ok items ∧ items ⊆ q.items := by
  obtain ⟨dimensions, metrics, -, hmetrics, rfl⟩ := query_eq_ok h
  obtain ⟨items, hitems, hmem⟩ := exists_mem_zip_of_forall₂ hmetrics hm
  exact ⟨items, hitems, fun item hitem =>
    List.mem_append_right _ (List.mem_flatten.2 ⟨items, (List.of_mem_zip hmem).1, hitem⟩)⟩

end

/-! ## The rows of the table -/

theorem nodup_labels (h : (ofRegistry r d none).query rollup = .ok q)
    (hu : rollup.Unambiguous r needed) : (q.items.map (·.label)).Nodup := by
  rw [labels_query h]
  exact hu.nodup.map (Option.some_injective _)

theorem rowOf_dimension (h : (ofRegistry r d none).query rollup = .ok q)
    (hu : rollup.Unambiguous r needed) {id : String} (hid : id ∈ rollup.dimensions) (s : Scope) :
    q.rowOf (q.result engine s) id = r.dimensionValue d engine id s.row := by
  obtain ⟨e, he, hitem⟩ := exists_dimension_item h hid
  rw [Select.rowOf_result_of_mem (nodup_labels h hu) hitem rfl, eval_dimensionExpr he]

/-- Rows are grouped by the values of the dimensions. -/
theorem key_query (h : (ofRegistry r d none).query rollup = .ok q) (row : Row) :
    q.key engine row = rollup.dimensions.map fun id => r.dimensionValue d engine id row := by
  obtain ⟨dimensions, metrics, hdimensions, -, rfl⟩ := query_eq_ok h
  exact map_eval_dimensionExpr hdimensions row.scope

theorem key_eq_iff (h : (ofRegistry r d none).query rollup = .ok q) {x y : Row} :
    q.key engine x = q.key engine y ↔
      ∀ id ∈ rollup.dimensions,
        r.dimensionValue d engine id x = r.dimensionValue d engine id y := by
  rw [key_query h, key_query h, List.map_inj_left]

theorem groups_query (h : (ofRegistry r d none).query rollup = .ok q)
    (hdimensions : rollup.dimensions ≠ []) (source : List Row) :
    q.groups engine source = groupsBy (q.key engine) source := by
  obtain ⟨dimensions, metrics, hexprs, -, rfl⟩ := query_eq_ok h
  have hne : dimensions ≠ [] := by
    rintro rfl
    exact hdimensions (List.forall₂_nil_right_iff.1 hexprs)
  rw [Select.groups_eq hne, Select.kept]
  simp

theorem table_query (h : (ofRegistry r d none).query rollup = .ok q)
    (hdimensions : rollup.dimensions ≠ []) (source : List Row) :
    q.table engine source = (groupsBy (q.key engine) source).map fun group =>
      q.rowOf (q.result engine (.ofGroup group)) := by
  have hlimit : q.limit = none := by
    obtain ⟨_, _, _, _, rfl⟩ := query_eq_ok h
    rfl
  rw [Select.table, Select.grouped_eq hlimit, groups_query h hdimensions, List.map_map]
  rfl

/-- In the row of a group the dimensions are what they are in the group. -/
theorem rowOf_group (h : (ofRegistry r d none).query rollup = .ok q)
    (hu : rollup.Unambiguous r needed) {id : String} (hid : id ∈ rollup.dimensions)
    {source : List Row} {x : Row} (hx : x ∈ source) :
    q.rowOf (q.result engine (.ofGroup (source.filter fun row =>
      q.key engine row = q.key engine x))) id = r.dimensionValue d engine id x := by
  rw [rowOf_dimension h hu hid]
  have hmem := Scope.row_ofGroup_mem (List.ne_nil_of_mem (mem_group (q.key engine) hx))
  exact (key_eq_iff h).1 (of_decide_eq_true (List.mem_filter.1 hmem).2) id hid

/-- The rows of the table that satisfy a condition on dimensions are those of the
source rows that do. -/
theorem filter_table_perm (engine : Engine) (h : (ofRegistry r d none).query rollup = .ok q)
    (hu : rollup.Unambiguous r needed) (hdimensions : rollup.dimensions ≠ []) (source : List Row)
    {p : Row → Bool} (hp : ∀ x y : Row, (∀ id ∈ rollup.dimensions, x id = y id) → p x = p y) :
    ((q.table engine source).filter p).Perm
      ((groupsBy (q.key engine) (source.filter fun row =>
        p fun id => r.dimensionValue d engine id row)).map fun group =>
          q.rowOf (q.result engine (.ofGroup group))) := by
  have hrow {x : Row} (hx : x ∈ source) :
      p (q.rowOf (q.result engine (.ofGroup (source.filter fun row =>
        q.key engine row = q.key engine x)))) = p fun id => r.dimensionValue d engine id x :=
    hp _ _ fun id hid => rowOf_group h hu hid hx
  rw [table_query h hdimensions, List.filter_map]
  refine List.Perm.map _ (filter_groupsBy_perm (fun x hx y hy hxy => ?_) fun x hx => hrow hx)
  rw [← hrow hx, ← hrow hy, hxy]

theorem metric?_of_nodup (hids : (rollup.metrics.map (·.metricId)).Nodup) {m : RollupMetric}
    (hm : m ∈ rollup.metrics) : rollup.metric? m.metricId = some m :=
  (find?_eq_some_iff_of_nodup hids).2 ⟨hm, rfl⟩

theorem metric?_of_mem (hu : rollup.Unambiguous r needed) {m : RollupMetric}
    (hm : m ∈ rollup.metrics) : rollup.metric? m.metricId = some m := by
  refine metric?_of_nodup (List.Nodup.sublist ?_ (List.nodup_append.1 hu.nodup).2.1) hm
  rw [RollupDefinition.availableMetrics, List.map_eq_flatMap]
  exact List.Sublist.flatMap_right _ fun m _ => by
    rw [RollupMetric.outputColumns]
    split <;> simp

/-- A column of metrics holds the aggregate that it stands for. -/
theorem rowOf_column (hr : r.WellFormed) (h : (ofRegistry r d none).query rollup = .ok q)
    (hu : rollup.Unambiguous r needed) {column : String} (hneeded : column ∈ needed)
    (hcolumn : column ∈ rollup.availableMetrics) :
    ∃ e, r.columnExpr rollup column = .ok e ∧
      ∀ engine s, q.rowOf (q.result engine s) column = e.eval engine s := by
  obtain ⟨m, hm, hcolumn⟩ := List.mem_flatMap.1 hcolumn
  obtain ⟨items, hitems, hsub⟩ := exists_metric_items h hm
  obtain ⟨base, hbase, hitems⟩ := metricItems_eq_ok hitems
  suffices hexpr : ∃ e, r.columnExpr rollup column = .ok e ∧ ⟨e, some column⟩ ∈ q.items by
    obtain ⟨e, he, hitem⟩ := hexpr
    exact ⟨e, he, fun _ => Select.rowOf_result_of_mem (nodup_labels h hu) hitem rfl⟩
  have hplain : r.columnExpr rollup m.metricId = .ok base.expr := by
    rw [Registry.columnExpr, hbase]
  rcases hitems with ⟨hconditional, rfl⟩ | ⟨hconditional, flag, hflag, rfl⟩
  · obtain rfl : column = m.metricId := by
      simpa [RollupMetric.outputColumns, hconditional] using hcolumn
    exact ⟨_, hplain, hsub List.mem_cons_self⟩
  · have hcolumn : column = m.metricId ∨ column = flaggedColumn m.metricId := by
      simpa [RollupMetric.outputColumns, hconditional] using hcolumn
    rcases hcolumn with rfl | rfl
    · exact ⟨_, hplain, hsub List.mem_cons_self⟩
    · have hne := hr.ne_empty_of_baseMetric? hbase
      refine ⟨_, ?_, hsub (List.mem_cons_of_mem _ List.mem_cons_self)⟩
      simp only [Registry.columnExpr, hu.flagged m hm hconditional hneeded,
        unflagged?_flaggedColumn hne, Option.bind_some, hbase, baseMetric?_id hbase,
        metric?_of_mem hu hm, hflag]

end RollupSource

end MetricLayer
