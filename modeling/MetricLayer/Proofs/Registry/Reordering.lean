import MetricLayer.Proofs.Registry.Agreement

/-!
# The order of declarations

Ids are used once, so nothing that is looked up by an id depends on the order in
which a document declares its metrics. `Reordered r r'` says that two registries
declare the same metrics; formulas compile to the same in both
(`Reordered.compile_eq_ok_iff`). An error may differ, since a cycle is reported by
the path on which it is found.
-/

namespace MetricLayer.Registry

open Relation (ReflTransGen)
open DependencyGraph (ofRegistry)

/-- The same metrics, declared in any order. -/
structure Reordered (r r' : Registry) : Prop where
  dateColumn : r.dateColumn = r'.dateColumn
  base : r.baseMetrics.Perm r'.baseMetrics
  calculated : r.calculatedMetrics.Perm r'.calculatedMetrics

namespace Reordered

variable {r r' : Registry} {d : Sql.Dialect}

theorem symm (h : r.Reordered r') : r'.Reordered r :=
  ⟨h.dateColumn.symm, h.base.symm, h.calculated.symm⟩

theorem wellFormed (h : r.Reordered r') (hr : r.WellFormed) : r'.WellFormed := by
  have hids : r.metricIds.Perm r'.metricIds := (h.base.map _).append (h.calculated.map _)
  exact ⟨fun id hid => hr.valid id (hids.mem_iff.2 hid), hids.nodup_iff.1 hr.nodup,
    fun id hid => hr.unreserved id (hids.mem_iff.2 hid)⟩

theorem baseMetric? (h : r.Reordered r') (hr : r.WellFormed) :
    r.baseMetric? = r'.baseMetric? := by
  funext id
  ext m
  rw [hr.baseMetric?_eq_some_iff, (h.wellFormed hr).baseMetric?_eq_some_iff, h.base.mem_iff]

theorem calculatedMetric? (h : r.Reordered r') (hr : r.WellFormed) :
    r.calculatedMetric? = r'.calculatedMetric? := by
  funext id
  ext m
  rw [hr.calculatedMetric?_eq_some_iff, (h.wellFormed hr).calculatedMetric?_eq_some_iff,
    h.calculated.mem_iff]

theorem dependsOn (h : r.Reordered r') (hr : r.WellFormed) {a b : String} :
    (ofRegistry r).DependsOn a b ↔ (ofRegistry r').DependsOn a b := by
  rw [dependsOn_iff, dependsOn_iff, refers_iff, refers_iff, h.calculatedMetric? hr]
  simp only [h.calculated.mem_iff]

theorem expand (h : r.Reordered r') (hr : r.WellFormed) (visiting : List String) :
    r.expand visiting = r'.expand visiting :=
  funext fun _ => expand_eq_of h.dateColumn (fun _ (_ : True) => by rw [h.baseMetric? hr])
    (fun _ _ => by rw [h.calculatedMetric? hr])
    (fun _ _ _ _ _ _ _ _ => trivial) visiting trivial

theorem classify (h : r.Reordered r') (hr : r.WellFormed) (current : Option String) :
    r.classify current = r'.classify current := by
  have hcalculated : r.isCalculatedFor current = r'.isCalculatedFor current :=
    funext fun n => by rw [isCalculatedFor, isCalculatedFor, h.calculatedMetric? hr]
  funext names
  rw [Registry.classify, Registry.classify, h.baseMetric? hr, hcalculated]

theorem compile_of_compile (h : r.Reordered r') (hr : r.WellFormed) {formula : String}
    {current : Option String} {c : CompiledFormula} (hc : r.compile d formula current = .ok c) :
    r'.compile d formula current = .ok c := by
  obtain ⟨references, f, hc⟩ := Registry.compile_eq_ok_iff.1 hc
  have hclassify := h.classify hr current
  have hchain : (ofRegistry r).DependsOn = (ofRegistry r').DependsOn :=
    funext₂ fun a b => propext (h.dependsOn hr)
  refine Registry.compile_eq_ok_iff.2 ⟨references, f, hc.extracted, ?_, hchain ▸ hc.noCycle,
    hc.parsed, h.expand hr _ ▸ hc.lowered, hc.sql_eq, hc.guarded, ?_, ?_⟩
  · rw [← classify_unknown_eq_nil_iff, ← hclassify]
    exact classify_unknown_eq_nil_iff.2 hc.known
  · rw [hc.base_eq, hclassify]
  · rw [hc.calculated_eq, hclassify]

/-- Formulas compile to the same whatever the order of declarations. -/
theorem compile_eq_ok_iff (h : r.Reordered r') (hr : r.WellFormed) {formula : String}
    {current : Option String} {c : CompiledFormula} :
    r.compile d formula current = .ok c ↔ r'.compile d formula current = .ok c :=
  ⟨h.compile_of_compile hr, h.symm.compile_of_compile (h.wellFormed hr)⟩

end Reordered

end MetricLayer.Registry
