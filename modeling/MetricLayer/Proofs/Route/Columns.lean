import MetricLayer.Proofs.Rollup.ColumnNames
import MetricLayer.Proofs.Route.Reaggregation

/-!
# The columns that a request is served from

A request that is sent to a rollup reads each column that it needs by its name. The
column holds the metric that the name stands for, unless another column has the same
name (`Router.holds_neededColumns_iff`).
-/

namespace MetricLayer

open Sql (Expr Select SelectItem)

/-- The table of a query has a column of this name, and every such column holds `e`. -/
def Sql.Select.Holds (q : Select) (name : String) (e : Expr) : Prop :=
  ⟨e, some name⟩ ∈ q.items ∧ ∀ item ∈ q.items, item.label = some name → item.expr = e

namespace Registry

variable {r : Registry} {request : RouteRequest} {id column : String}

/-- A needed column is called as a base metric or as no metric. -/
theorem needed_cases (h : column ∈ r.neededColumns request) :
    (∃ m, r.baseMetric? column = some m) ∨ r.metric? column = none := by
  obtain ⟨id, -, hcolumn⟩ := List.mem_flatMap.1 h
  rw [columnsOf] at hcolumn
  split at hcolumn
  · rename_i m hid
    obtain rfl := List.mem_singleton.1 hcolumn
    exact (requested_base hid).imp (fun hm => ⟨m, hm⟩) And.left
  · exact .inl (exists_of_mem_transitiveBases hcolumn)
  · exact absurd hcolumn List.not_mem_nil
  · exact absurd hcolumn List.not_mem_nil

end Registry

namespace RollupSource

variable {b : RollupSource} {rollup : RollupDefinition} {q : Select} {id : String}

/-- What a column of a rollup is to hold: the base metric of its name, or if no metric
has that name, the one over flagged rows. -/
def metricExpr (b : RollupSource) (rollup : RollupDefinition) (id : String) : Option Expr :=
  match b.registry.metric? id with
  | some (.base m) => some (.aggregate m.aggregation (b.metricInput m))
  | some (.calculated _) | some (.system _) => none
  | none => do
    let m ← (unflagged? id).bind b.registry.baseMetric?
    let flag ← (rollup.metric? m.id).bind (·.flag?)
    some (flaggedAggregate m.aggregation (b.metricInput m) flag)

theorem metricExpr_of_baseMetric? {m : BaseMetric} (h : b.registry.baseMetric? id = some m) :
    b.metricExpr rollup id = some (.aggregate m.aggregation (b.metricInput m)) := by
  rw [metricExpr, Registry.metric?_eq_base_iff.2 h]

theorem metricInput_ne_cases (b : RollupSource) (m : BaseMetric) (branches : List (Expr × Expr))
    (otherwise : Expr) : b.metricInput m ≠ .cases branches otherwise := by
  rw [metricInput]
  split
  · exact fun h => by cases h
  · rw [BaseMetric.input]
    split <;> exact fun h => by cases h

theorem flaggedAggregate_ne_aggregate (a a' : Aggregation) (input : Expr) (flag : String)
    (b : RollupSource) (m : BaseMetric) :
    flaggedAggregate a input flag ≠ .aggregate a' (b.metricInput m) := by
  intro h
  cases a with
  | count => cases h
  | _ => exact metricInput_ne_cases b m _ _ (Expr.aggregate.inj h).2.symm

theorem dimensionExpr_cases {rollupId dimension : String} {e : Expr}
    (h : b.dimensionExpr rollupId dimension = .ok e) :
    (∃ column, e = .ofColumn column) ∨ ∃ sql, e = .nested (.raw sql) := by
  rw [dimensionExpr] at h
  split at h
  · exact .inl ⟨_, (Except.ok.inj h).symm⟩
  · simp only [bind, Except.bind_eq_ok] at h
    obtain ⟨compiled, -, h⟩ := h
    exact .inr ⟨compiled.sql, (Except.ok.inj h).symm⟩
  · cases h

theorem metricExpr_cases {e : Expr} (h : b.metricExpr rollup id = some e) :
    (∃ a input, e = .aggregate a input) ∨ ∃ condition, e = .countIf condition := by
  rw [metricExpr] at h
  split at h
  · exact .inl ⟨_, _, (Option.some.inj h).symm⟩
  · cases h
  · cases h
  · simp only [bind, Option.bind_eq_some_iff] at h
    obtain ⟨m, -, flag, -, h⟩ := h
    obtain rfl := Option.some.inj h
    cases m.aggregation with
    | count => exact .inr ⟨_, rfl⟩
    | _ => exact .inl ⟨_, _, rfl⟩

/-- No dimension is an aggregate. -/
theorem metricExpr_ne_of_dimensionExpr {rollupId dimension : String} {e : Expr}
    (h : b.dimensionExpr rollupId dimension = .ok e) : b.metricExpr rollup id ≠ some e := by
  intro hmetric
  rcases metricExpr_cases hmetric with ⟨a, input, rfl⟩ | ⟨condition, rfl⟩ <;>
    rcases dimensionExpr_cases h with ⟨column, heq⟩ | ⟨sql, heq⟩ <;> cases heq

section

variable (h : b.query rollup = .ok q) (hcolumn : id ∈ rollup.availableMetrics)
  (hdimension : id ∉ rollup.dimensions)

include h hcolumn hdimension

/-- A column with the name of a base metric holds it, unless it is one over flagged
rows. -/
theorem holds_of_baseMetric? {base : BaseMetric} (hbase : b.registry.baseMetric? id = some base)
    (hclash : ∀ m ∈ rollup.metrics, m.includeConditional = true → flaggedColumn m.metricId ≠ id) :
    q.Holds id (.aggregate base.aggregation (b.metricInput base)) := by
  obtain ⟨m, hm, hcolumn⟩ := List.mem_flatMap.1 hcolumn
  obtain ⟨items, hitems, hsub⟩ := exists_metric_items h hm
  obtain ⟨base', hbase', hitems⟩ := items_of_metricItems hitems
  obtain rfl : id = m.metricId := by
    rcases RollupMetric.mem_outputColumns.1 hcolumn with hid | ⟨hconditional, hid⟩
    · exact hid
    · exact absurd hid.symm (hclash m hm hconditional)
  obtain rfl := Option.some.inj (hbase'.symm.trans hbase)
  refine ⟨hsub ?_, fun item hitem hlabel => ?_⟩
  · rcases hitems with ⟨-, rfl⟩ | ⟨-, flag, -, rfl⟩ <;> exact List.mem_cons_self
  · rcases mem_items_cases h hitem with
      ⟨dimension, hmem, e, -, rfl⟩ |
        ⟨m', hm', base', hbase', rfl | ⟨hconditional, flag, -, rfl⟩⟩
    · exact absurd (Option.some.inj hlabel ▸ hmem) hdimension
    · rw [Option.some.inj hlabel, hbase] at hbase'
      rw [Option.some.inj hbase']
    · exact absurd (Option.some.inj hlabel) (hclash m' hm' hconditional)

/-- A column with the name of no metric is one over flagged rows. -/
theorem exists_holds_of_metric?_eq_none (hr : b.registry.WellFormed)
    (hids : (rollup.metrics.map (·.metricId)).Nodup) (hnone : b.registry.metric? id = none) :
    ∃ e, b.metricExpr rollup id = some e ∧ q.Holds id e := by
  have hplain {m : RollupMetric} {base : BaseMetric}
      (hbase : b.registry.baseMetric? m.metricId = some base) : m.metricId ≠ id := by
    rintro rfl
    rw [Registry.metric?_eq_base_iff.2 hbase] at hnone
    cases hnone
  obtain ⟨m, hm, hcolumn⟩ := List.mem_flatMap.1 hcolumn
  obtain ⟨items, hitems, hsub⟩ := exists_metric_items h hm
  obtain ⟨base, hbase, hitems⟩ := items_of_metricItems hitems
  obtain ⟨hconditional, rfl⟩ :=
    (RollupMetric.mem_outputColumns.1 hcolumn).resolve_left (hplain hbase).symm
  rcases hitems with ⟨hnot, -⟩ | ⟨-, flag, hflag, rfl⟩
  · simp [hconditional] at hnot
  refine ⟨flaggedAggregate base.aggregation (b.metricInput base) flag, ?_,
    hsub (List.mem_cons_of_mem _ List.mem_cons_self), fun item hitem hlabel => ?_⟩
  · simp only [metricExpr, hnone, unflagged?_flaggedColumn (hr.ne_empty_of_baseMetric? hbase), bind,
      Option.bind_some, hbase, baseMetric?_id hbase, metric?_of_nodup hids hm, hflag]
  · rcases mem_items_cases h hitem with
      ⟨dimension, hmem, e, -, rfl⟩ | ⟨m', hm', base', hbase', rfl | ⟨-, flag', hflag', rfl⟩⟩
    · exact absurd (Option.some.inj hlabel ▸ hmem) hdimension
    · exact absurd (Option.some.inj hlabel) (hplain hbase')
    · have hid := flaggedColumn_injective (Option.some.inj hlabel)
      obtain rfl := List.inj_on_of_nodup_map hids hm' hm hid
      rw [hbase] at hbase'
      rw [hflag] at hflag'
      rw [Option.some.inj hbase', Option.some.inj hflag']

end

/-- A column that is called as a base metric and over flagged rows of another does not
hold the base metric only. -/
theorem not_holds_of_flaggedColumn {base : BaseMetric} {m : RollupMetric}
    (h : b.query rollup = .ok q) (hm : m ∈ rollup.metrics)
    (hconditional : m.includeConditional = true) :
    ¬ q.Holds (flaggedColumn m.metricId) (.aggregate base.aggregation (b.metricInput base)) := by
  rintro ⟨-, honly⟩
  obtain ⟨items, hitems, hsub⟩ := exists_metric_items h hm
  obtain ⟨other, -, ⟨hnot, -⟩ | ⟨-, flag, -, rfl⟩⟩ := items_of_metricItems hitems
  · simp [hconditional] at hnot
  · exact flaggedAggregate_ne_aggregate _ _ _ _ b base
      (honly _ (hsub (List.mem_cons_of_mem _ List.mem_cons_self)) rfl)

/-- A column that a rollup has under the name of a metric holds that metric, unless a
dimension or a metric over flagged rows has the same name. -/
theorem holds_metricExpr_iff (hr : b.registry.WellFormed)
    (hids : (rollup.metrics.map (·.metricId)).Nodup) (h : b.query rollup = .ok q)
    (hcolumn : id ∈ rollup.availableMetrics)
    (hneeded : (∃ m, b.registry.baseMetric? id = some m) ∨ b.registry.metric? id = none) :
    (∃ e, b.metricExpr rollup id = some e ∧ q.Holds id e) ↔
      id ∉ rollup.dimensions ∧ ((b.registry.baseMetric? id).isSome →
        ∀ m ∈ rollup.metrics, m.includeConditional = true → flaggedColumn m.metricId ≠ id) := by
  constructor
  · rintro ⟨e, he, hholds⟩
    refine ⟨fun hdimension => ?_, fun hbase m hm hconditional hid => ?_⟩
    · obtain ⟨e', he', hitem⟩ := exists_dimension_item h hdimension
      obtain rfl := hholds.2 _ hitem rfl
      exact metricExpr_ne_of_dimensionExpr he' he
    · obtain ⟨base, hbase⟩ := Option.isSome_iff_exists.1 hbase
      rw [metricExpr_of_baseMetric? hbase] at he
      rw [← Option.some.inj he, ← hid] at hholds
      exact not_holds_of_flaggedColumn h hm hconditional hholds
  · rintro ⟨hdimension, hclash⟩
    rcases hneeded with ⟨base, hbase⟩ | hnone
    · exact ⟨_, metricExpr_of_baseMetric? hbase,
        holds_of_baseMetric? h hcolumn hdimension hbase (hclash (by rw [hbase]; rfl))⟩
    · exact exists_holds_of_metric?_eq_none h hcolumn hdimension hr hids hnone

end RollupSource

namespace Router

open RollupSource (clicksDocument clicksRollup)

variable {router : Router} {request : RouteRequest} {decision : RouteDecision}

/-- **Columns of a chosen rollup.** Of the columns that a request needs, those of the
rollup that it is sent to hold the metrics that they are read for just where no
dimension has the same name, nor, if it is the name of a base metric, another metric
over flagged rows. -/
theorem holds_neededColumns_iff (hr : router.registry.WellFormed)
    (hc : RollupCatalog.Accepted router.registry router.rollups)
    (hroute : router.route request = .ok decision) (huse : decision.useRollup = true) :
    ∃ rollup ∈ router.rollups, decision.rollup.map (·.rollupId) = some rollup.id ∧
      decision.table = rollup.targetTableName ∧
      ∀ d optimized q,
        (RollupSource.ofRegistry router.registry d optimized).query rollup = .ok q →
        ∀ id ∈ router.registry.neededColumns request,
          (∃ e, (RollupSource.ofRegistry router.registry d optimized).metricExpr rollup id =
            some e ∧ q.Holds id e) ↔
          id ∉ rollup.dimensions ∧ ((router.registry.baseMetric? id).isSome →
            ∀ m ∈ rollup.metrics, m.includeConditional = true → flaggedColumn m.metricId ≠ id) := by
  obtain ⟨rollup, needs, h⟩ := chosen_of_route hc hroute huse
  refine ⟨rollup, h.mem, h.named, h.table_eq, fun d optimized q hq id hid => ?_⟩
  obtain ⟨metric, hmetric, hcolumn⟩ := List.mem_flatMap.1 hid
  exact RollupSource.holds_metricExpr_iff (b := .ofRegistry router.registry d optimized) hr
    (hc.nodup_metricIds h.mem) hq (h.columnsOf_subset hmetric hcolumn)
    (Registry.needed_cases hid)

/-- Clicks by date and country, and flagged ones. -/
theorem holds_clicks_flagged :
    let rollup := { RollupDefinition.daily [] with metrics := [⟨"clicks", true, some "is_new"⟩] }
    let router : Router := { registry := .searches, rollups := [rollup] }
    let request : RouteRequest :=
      { dimensions := ["date"], metrics := ["clicks", "clicks_flagged"] }
    ∃ decision q, router.route request = .ok decision ∧ decision.useRollup = true ∧
      (RollupSource.ofRegistry .searches .bigQuery none).query rollup = .ok q ∧
      ∀ id ∈ Registry.searches.neededColumns request, ∃ e,
        (RollupSource.ofRegistry .searches .bigQuery none).metricExpr rollup id = some e ∧
          q.Holds id e := by
  intro rollup router request
  have hroute : router.route request =
      .ok ⟨some ⟨"daily", 95, true⟩, .reaggregated "daily", .rollup, "raw.search_daily"⟩ := by
    decide +kernel
  obtain ⟨rollup', hmem, -, -, hholds⟩ := holds_neededColumns_iff Registry.wellFormed_searches
    ⟨by decide +kernel, by decide +kernel⟩ hroute rfl
  obtain rfl := List.mem_singleton.1 hmem
  obtain ⟨q, hq⟩ := Except.exists_of_toBool (x := (RollupSource.ofRegistry .searches .bigQuery
    none).query rollup) (by decide +kernel)
  have hapart : ∀ id ∈ Registry.searches.neededColumns request, id ∉ rollup.dimensions ∧
      ((Registry.searches.baseMetric? id).isSome →
        ∀ m ∈ rollup.metrics, m.includeConditional = true → flaggedColumn m.metricId ≠ id) := by
    decide +kernel
  exact ⟨_, q, hroute, rfl, hq, fun id hid => (hholds .bigQuery none q hq id hid).2 (hapart id hid)⟩

/-- A metric that is called as the column for flagged clicks is read from that column. -/
theorem exists_needed_not_holds :
    let rollup := { clicksRollup ["date"] [⟨"clicks", true, some "is_new"⟩] with
      build := { status := .ready } }
    let router : Router := { registry := ⟨clicksDocument⟩, rollups := [rollup] }
    let request : RouteRequest := { dimensions := ["date"], metrics := ["clicks_flagged"] }
    Registry.ofDocument clicksDocument = .ok router.registry ∧
      RollupCatalog.Accepted router.registry router.rollups ∧
      ∃ decision q, router.route request = .ok decision ∧
        decision.rollup.map (·.rollupId) = some rollup.id ∧
        (RollupSource.ofRegistry router.registry .bigQuery none).query rollup = .ok q ∧
        ∃ id ∈ router.registry.neededColumns request, ¬ ∃ e,
          (RollupSource.ofRegistry router.registry .bigQuery none).metricExpr rollup id = some e ∧
            q.Holds id e := by
  intro rollup router request
  have hroute : router.route request =
      .ok ⟨some ⟨"daily", 150, false⟩, .exact "daily", .rollup, "raw.search_daily"⟩ := by
    decide +kernel
  obtain ⟨q, hq⟩ := Except.exists_of_toBool (x := (RollupSource.ofRegistry router.registry .bigQuery
    none).query rollup) (by decide +kernel)
  refine ⟨by decide +kernel, ⟨by decide +kernel, by decide +kernel⟩, _, q, hroute, rfl, hq,
    flaggedColumn "clicks", by decide +kernel, ?_⟩
  rintro ⟨e, he, hholds⟩
  have hbase : router.registry.baseMetric? (flaggedColumn "clicks") =
      some ⟨"clicks_flagged", none, none, ["clicks_flagged"], .sum, none, .number, none⟩ := by
    decide +kernel
  rw [RollupSource.metricExpr_of_baseMetric? hbase] at he
  rw [← Option.some.inj he] at hholds
  exact RollupSource.not_holds_of_flaggedColumn hq List.mem_cons_self rfl hholds

end Router

end MetricLayer
