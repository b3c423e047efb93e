import MetricLayer.Proofs.Rollup.Catalog
import MetricLayer.Proofs.Rollup.Contents

/-!
# The names of columns of rollups

Dimensions, metrics and metrics over flagged rows name the columns of a rollup. A
catalog keeps dimensions apart from one another, and metrics, but neither dimensions
from metrics nor metrics from the names that it makes for flagged rows
(`RollupSource.nodup_labels_iff`).
-/

namespace MetricLayer

theorem flaggedColumn_injective : Function.Injective flaggedColumn := fun a b h => by
  simpa [flaggedColumn, ← String.toList_inj] using h

theorem flaggedColumn_ne (id : String) : flaggedColumn id ≠ id := fun h => by
  have hlength := congrArg String.length h
  simp [flaggedColumn, flaggedSuffix] at hlength

namespace RollupMetric

theorem mem_outputColumns {m : RollupMetric} {column : String} :
    column ∈ m.outputColumns ↔
      column = m.metricId ∨ m.includeConditional = true ∧ column = flaggedColumn m.metricId := by
  rw [outputColumns]
  split <;> simp [*]

theorem nodup_outputColumns (m : RollupMetric) : m.outputColumns.Nodup := by
  rw [outputColumns]
  split
  · simpa using (flaggedColumn_ne m.metricId).symm
  · exact List.nodup_singleton _

/-- No metric has the name of the column for another over flagged rows. -/
def NoneFlagged (metrics : List RollupMetric) : Prop :=
  ∀ m ∈ metrics, m.includeConditional = true →
    ∀ m' ∈ metrics, m'.metricId ≠ flaggedColumn m.metricId

instance (metrics : List RollupMetric) : Decidable (NoneFlagged metrics) :=
  inferInstanceAs (Decidable (∀ m ∈ metrics, m.includeConditional = true →
    ∀ m' ∈ metrics, m'.metricId ≠ flaggedColumn m.metricId))

theorem nodup_flatMap_outputColumns_iff {metrics : List RollupMetric}
    (h : (metrics.map (·.metricId)).Nodup) :
    (metrics.flatMap outputColumns).Nodup ↔ NoneFlagged metrics := by
  rw [List.nodup_flatMap]
  constructor
  · rintro ⟨-, hdisjoint⟩ m hm hconditional m' hm' heq
    have hne : m ≠ m' := by
      rintro rfl
      exact flaggedColumn_ne m.metricId heq.symm
    have hsymm : Std.Symm (Function.onFun List.Disjoint outputColumns) := ⟨fun _ _ h => h.symm⟩
    exact hdisjoint.forall hm hm' hne
      (mem_outputColumns.2 (.inr ⟨hconditional, rfl⟩)) (mem_outputColumns.2 (.inl heq.symm))
  · intro hnone
    refine ⟨fun m _ => nodup_outputColumns m, ?_⟩
    refine (List.pairwise_map.1 h).imp_of_mem fun {m m'} hm hm' hne column hcolumn hcolumn' => ?_
    rcases mem_outputColumns.1 hcolumn with rfl | ⟨hconditional, rfl⟩ <;>
      rcases mem_outputColumns.1 hcolumn' with heq | ⟨hconditional', heq⟩
    · exact hne heq
    · exact hnone m' hm' hconditional' m hm heq
    · exact hnone m hm hconditional m' hm' heq.symm
    · exact hne (flaggedColumn_injective heq)

end RollupMetric

namespace RollupCatalog

/-- A catalog of rollups over the registry has accepted the rollup, as a new one or in
the place of one that it held. -/
def Accepts (r : Registry) (rollup : RollupDefinition) : Prop :=
  ∃ (c c' : RollupCatalog) (now : Timestamp),
    (∃ definition, c.create r now definition = .ok (rollup, c')) ∨
      ∃ id change, c.update r now id change = .ok (rollup, c')

theorem Accepts.checkShape {r : Registry} {rollup : RollupDefinition} (h : Accepts r rollup) :
    checkShape r rollup.dimensions rollup.metrics = .ok () := by
  obtain ⟨c, c', now, ⟨definition, h⟩ | ⟨id, change, h⟩⟩ := h
  · obtain ⟨-, hshape, ⟨_, rfl⟩, -⟩ := of_create h
    exact hshape
  · obtain ⟨_, -, -, hshape, -⟩ := of_update h
    exact hshape

end RollupCatalog

namespace RollupSource

open RollupCatalog (Accepts)
open Sql (Expr Select SelectItem)

/-- Every column of a rollup is a dimension, a metric, or a metric over flagged rows. -/
theorem mem_items_cases {b : RollupSource} {rollup : RollupDefinition} {q : Select}
    (h : b.query rollup = .ok q) {item : SelectItem} (hitem : item ∈ q.items) :
    (∃ id ∈ rollup.dimensions, ∃ e, b.dimensionExpr rollup.id id = .ok e ∧ item = ⟨e, some id⟩) ∨
    ∃ m ∈ rollup.metrics, ∃ base, b.registry.baseMetric? m.metricId = some base ∧
      (item = ⟨.aggregate base.aggregation (b.metricInput base), some m.metricId⟩ ∨
        m.includeConditional = true ∧ ∃ flag, m.flag? = some flag ∧
          item = ⟨flaggedAggregate base.aggregation (b.metricInput base) flag,
            some (flaggedColumn m.metricId)⟩) := by
  obtain ⟨dimensions, metrics, hdimensions, hmetrics, rfl⟩ := query_eq_ok h
  rcases List.mem_append.1 hitem with hitem | hitem
  · obtain ⟨⟨e, id⟩, hzip, rfl⟩ := List.mem_map.1 hitem
    exact .inl ⟨id, (List.of_mem_zip hzip).2, e,
      (List.forall₂_iff_zip.1 hdimensions.flip).2 hzip, rfl⟩
  · obtain ⟨items, hitems, hitem⟩ := List.mem_flatten.1 hitem
    obtain ⟨m, hm, hzip⟩ := exists_mem_zip_of_forall₂ hmetrics.flip hitems
    obtain ⟨base, hbase, hitems⟩ := items_of_metricItems hm
    refine .inr ⟨m, (List.of_mem_zip hzip).1, base, hbase, ?_⟩
    rcases hitems with ⟨-, rfl⟩ | ⟨hconditional, flag, hflag, rfl⟩
    · exact .inl (List.mem_singleton.1 hitem)
    · rcases List.mem_cons.1 hitem with rfl | hitem
      · exact .inl rfl
      · exact .inr ⟨hconditional, flag, hflag, List.mem_singleton.1 hitem⟩

/-- **Columns of rollups.** The columns of a rollup that a catalog has accepted have
names of their own just where no dimension is called as a column of a metric, and no
metric as the column of another over flagged rows. -/
theorem nodup_labels_iff {r : Registry} {rollup : RollupDefinition} (h : Accepts r rollup)
    {d : Sql.Dialect} {optimized : Option OptimizedSource} {q : Sql.Select}
    (hq : (ofRegistry r d optimized).query rollup = .ok q) :
    (q.items.map (·.label)).Nodup ↔
      (∀ id ∈ rollup.dimensions, id ∉ rollup.availableMetrics) ∧
        RollupMetric.NoneFlagged rollup.metrics := by
  obtain ⟨hdimensions, hmetrics⟩ := RollupCatalog.of_checkShape h.checkShape
  have hmetricIds := RollupCatalog.nodup_of_checkMetrics hmetrics
  rw [labels_query hq, List.nodup_map_iff (Option.some_injective _), List.nodup_append',
    RollupDefinition.availableMetrics, RollupMetric.nodup_flatMap_outputColumns_iff hmetricIds,
    and_iff_right (RollupCatalog.nodup_of_checkDimensions hdimensions), and_comm]
  rfl

/-- Clicks by date, of which some are called as the column for the others when flagged. -/
def clicksDocument : SchemaDocument where
  table := "search"
  sourceTable := "raw.search"
  baseMetrics := ["clicks", "clicks_flagged"].map fun id =>
    { id, sourceColumns := [id], aggregation := .sum }
  dimensions := [
    { id := "date", columnName := "date", dataType := .date },
    { id := "clicks", columnName := "clicks" }]

def clicksRollup (dimensions : List String) (metrics : List RollupMetric) :
    RollupDefinition where
  id := "daily"
  dimensions
  metrics
  targetTableName := "raw.search_daily"
  createdAt := some ⟨0, 0⟩
  updatedAt := some ⟨0, 0⟩

/-- A metric beside one whose column over flagged rows is called the same, and a
dimension beside a metric of its name. -/
def clashingRollups : List RollupDefinition := [
  clicksRollup ["date"] [⟨"clicks", true, some "is_new"⟩, ⟨"clicks_flagged", false, none⟩],
  clicksRollup ["clicks"] [⟨"clicks", false, none⟩]]

theorem nodup_labels_of_flagged_clicks :
    let rollup := clicksRollup ["date"] [⟨"clicks", true, some "is_new"⟩]
    Accepts ⟨clicksDocument⟩ rollup ∧
      ∃ q, (ofRegistry ⟨clicksDocument⟩ .bigQuery none).query rollup = .ok q ∧
        (q.items.map (·.label)).Nodup := by
  intro rollup
  have haccepts : Accepts ⟨clicksDocument⟩ rollup :=
    ⟨{}, ⟨[rollup]⟩, ⟨0, 0⟩, .inl ⟨rollup, by decide +kernel⟩⟩
  obtain ⟨q, hq⟩ := Except.exists_of_toBool (x := (ofRegistry ⟨clicksDocument⟩ .bigQuery none).query
    rollup) (by decide +kernel)
  exact ⟨haccepts, q, hq, (nodup_labels_iff haccepts hq).2 (by decide +kernel)⟩

/-- A metric may be called as a column over flagged rows, and a dimension as a metric. -/
theorem exists_labels_not_nodup :
    Registry.ofDocument clicksDocument = .ok ⟨clicksDocument⟩ ∧
      ∀ rollup ∈ clashingRollups,
        Accepts ⟨clicksDocument⟩ rollup ∧
          ∃ q, (ofRegistry ⟨clicksDocument⟩ .bigQuery none).query rollup = .ok q ∧
            ¬ (q.items.map (·.label)).Nodup := by
  refine ⟨by decide +kernel, fun rollup hrollup => ?_⟩
  have hcreate : ∀ rollup ∈ clashingRollups,
      RollupCatalog.create {} ⟨clicksDocument⟩ ⟨0, 0⟩ rollup = .ok (rollup, ⟨[rollup]⟩) := by
    decide +kernel
  have hquery : ∀ rollup ∈ clashingRollups,
      ((ofRegistry ⟨clicksDocument⟩ .bigQuery none).query rollup).toOption.any
        (fun q => !decide (q.items.map (·.label)).Nodup) = true := by
    decide +kernel
  obtain ⟨q, hq, hnodup⟩ := Except.exists_of_any (hquery rollup hrollup)
  exact ⟨⟨{}, _, ⟨0, 0⟩, .inl ⟨rollup, hcreate rollup hrollup⟩⟩, q, hq, by simpa using hnodup⟩

end RollupSource

end MetricLayer
