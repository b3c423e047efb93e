import MetricLayer.Proofs.FirstOccurrences
import MetricLayer.Proofs.Formula.Expansion
import MetricLayer.Proofs.Formula.References

/-!
# Recorded dependencies

A compilation reads its formula twice, once for the references and once for the
expression, and records the base metrics and the calculated metrics among the
references. Both readings find the same names in the same order, so that what is
recorded is what the expression was made of (`Registry.records_of_compile`).
-/

namespace MetricLayer

open Relation (ReflTransGen)

namespace Registry

variable {r : Registry} {d : Sql.Dialect} {formula : String} {current : Option String}
  {c : CompiledFormula} {f : Formula}

/-- What a compilation records of the references of `f`: each of those that are not
system metrics once, in the order of their first occurrences. -/
structure Records (r : Registry) (c : CompiledFormula) (f : Formula) : Prop where
  nodup : (c.dependsOnBase ++ c.dependsOnCalculated).Nodup
  base_ordered : c.dependsOnBase.Pairwise fun m n => f.references.idxOf m < f.references.idxOf n
  calculated_ordered : c.dependsOnCalculated.Pairwise fun m n =>
    f.references.idxOf m < f.references.idxOf n
  mem_base : ∀ n, n ∈ c.dependsOnBase ↔ n ∈ f.references ∧ (r.baseMetric? n).isSome
  mem_calculated : ∀ n, n ∈ c.dependsOnCalculated ↔
    n ∈ f.references ∧ r.baseMetric? n = none ∧ (r.calculatedMetric? n).isSome
  others : ∀ n ∈ f.references, n ∈ c.dependsOnBase ∨ n ∈ c.dependsOnCalculated ∨
    ∃ s, r.metric? n = some (.system s)

theorem mem_classify_base {names : List String} {name : String} :
    name ∈ (r.classify current names).1 ↔ name ∈ names ∧ (r.baseMetric? name).isSome := by
  simp [classify]

theorem classify_sublist (r : Registry) (current : Option String) (names : List String) :
    (r.classify current names).1.Sublist names ∧ (r.classify current names).2.1.Sublist names := by
  simp only [classify, List.partition_eq_filter_filter]
  exact ⟨List.filter_sublist, List.filter_sublist.trans List.filter_sublist⟩

/-- Only what is stored is recorded as calculated: a reference to the metric that is
being compiled closes a cycle. -/
theorem Compiled.mem_calculated {references : List Reference}
    (h : r.Compiled d formula current c references f) {n : String} :
    n ∈ c.dependsOnCalculated ↔
      n ∈ uniqueNames references ∧ r.baseMetric? n = none ∧ (r.calculatedMetric? n).isSome := by
  rw [h.calculated_eq, mem_classify_calculated]
  refine and_congr_right fun hn => and_congr_right fun hbase => ?_
  rw [isCalculatedFor, Bool.or_eq_true, beq_iff_eq, or_iff_left_iff_imp]
  intro hcurrent
  refine absurd .refl (h.noCycle n hcurrent n ?_)
  rw [h.calculated_eq, mem_classify_calculated]
  exact ⟨hn, hbase, by simp [isCalculatedFor, hcurrent]⟩

theorem Compiled.records {references : List Reference}
    (h : r.Compiled d formula current c references f) : r.Records c f := by
  obtain ⟨references', hextract, hnames⟩ := Formula.extractReferences_of_read h.parsed
  obtain rfl := Except.ok.inj (hextract.symm.trans h.extracted)
  have hunique : uniqueNames references' = f.references.eraseDups := by
    rw [uniqueNames, hnames]
  have hmem {n : String} : n ∈ uniqueNames references' ↔ n ∈ f.references := by
    rw [hunique, List.mem_eraseDups]
  have hfirst : (uniqueNames references').Pairwise fun m n =>
      f.references.idxOf m < f.references.idxOf n := hunique ▸ pairwise_idxOf_eraseDups _
  obtain ⟨hbase, hcalculated⟩ := classify_sublist r current (uniqueNames references')
  rw [← h.base_eq] at hbase
  rw [← h.calculated_eq] at hcalculated
  have hmemBase (n : String) : n ∈ c.dependsOnBase ↔
      n ∈ f.references ∧ (r.baseMetric? n).isSome := by
    rw [h.base_eq, mem_classify_base, hmem]
  have hmemCalculated (n : String) : n ∈ c.dependsOnCalculated ↔
      n ∈ f.references ∧ r.baseMetric? n = none ∧ (r.calculatedMetric? n).isSome := by
    rw [h.mem_calculated, hmem]
  have hnodup : (uniqueNames references').Nodup := by
    refine hfirst.imp fun hlt heq => ?_
    exact absurd hlt (heq ▸ lt_irrefl _)
  refine ⟨?_, hfirst.sublist hbase, hfirst.sublist hcalculated, hmemBase, hmemCalculated,
    fun n hn => ?_⟩
  · refine List.nodup_append.2 ⟨hnodup.sublist hbase, hnodup.sublist hcalculated, ?_⟩
    rintro m hm n hn rfl
    have hsome := ((hmemBase m).1 hm).2
    rw [((hmemCalculated m).1 hn).2.1] at hsome
    cases hsome
  · by_cases hsome : (r.baseMetric? n).isSome
    · exact .inl ((hmemBase n).2 ⟨hn, hsome⟩)
    have hnone : r.baseMetric? n = none := by simpa using hsome
    rcases h.known n (hmem.2 hn) with hbase | hcalc | hsystem
    · exact absurd hbase hsome
    · refine .inr (.inl ?_)
      rw [h.calculated_eq, mem_classify_calculated]
      exact ⟨hmem.2 hn, hnone, hcalc⟩
    · by_cases hcalc : (r.calculatedMetric? n).isSome
      · exact .inr (.inl ((hmemCalculated n).2 ⟨hn, hnone, hcalc⟩))
      · obtain ⟨s, hs⟩ := Option.isSome_iff_exists.1 hsystem
        have hcalc : r.calculatedMetric? n = none := by simpa using hcalc
        exact .inr (.inr ⟨s, by simp [metric?, hnone, hcalc, hs]⟩)

theorem records_of_compile (h : r.compile d formula current = .ok c) :
    ∃ f, Formula.read formula = .ok f ∧ f.lower (r.expand current.toList) = .ok c.expr ∧
      c.sql = c.expr.render d ∧ r.Records c f := by
  obtain ⟨references, f, hc⟩ := compile_eq_ok_iff.1 h
  exact ⟨f, hc.parsed, hc.lowered, hc.sql_eq, hc.records⟩

/-- **The two readings of references.** What a formula is read as has the references, in
order and with repetitions, that are scanned in its text; and a compilation records just
the references of the formula that it makes SQL of. -/
theorem references_agree (r : Registry) (d : Sql.Dialect) :
    (∀ s f, Formula.read s = .ok f → ∃ references, extractReferences s = .ok references ∧
      references.map (·.name) = f.references) ∧
    ∀ formula current c, r.compile d formula current = .ok c →
      ∃ f, Formula.read formula = .ok f ∧ f.lower (r.expand current.toList) = .ok c.expr ∧
        c.sql = c.expr.render d ∧ r.Records c f :=
  ⟨fun _ _ => Formula.extractReferences_of_read, fun _ _ _ => records_of_compile⟩

/-- Braces in quotes are text, also after a quote that is written twice. -/
theorem references_agree_of_quoted_braces :
    let r : Registry := ⟨{
      table := "search"
      sourceTable := "raw.search"
      baseMetrics := ["clicks", "cost"].map fun id => { id, sourceColumns := [id], aggregation := .sum }
      calculatedMetrics := [{ id := "cpc", formula := "{cost} / {clicks}" }] }⟩
    let formula := "{cpc} * IFNULL({cost}, 'it''s {cheap}') - {days_in_range} / {clicks} + {cost}"
    ∃ references f c, extractReferences formula = .ok references ∧ Formula.read formula = .ok f ∧
      references.map (·.name) = f.references ∧
      f.references = ["cpc", "cost", "days_in_range", "clicks", "cost"] ∧
      r.compile .duckDb formula none = .ok c ∧ c.dependsOnBase = ["cost", "clicks"] ∧
      r.Records c f := by
  intro r formula
  obtain ⟨f, hread, hreferences⟩ := Except.exists_of_any (x := Formula.read formula)
    (p := fun f => f.references == ["cpc", "cost", "days_in_range", "clicks", "cost"])
    (by decide +kernel)
  obtain ⟨c, hcompile, hbase⟩ := Except.exists_of_any (x := r.compile .duckDb formula none)
    (p := fun c => c.dependsOnBase == ["cost", "clicks"]) (by decide +kernel)
  obtain ⟨hagree, hrecords⟩ := references_agree r .duckDb
  obtain ⟨references, hextract, hnames⟩ := hagree formula f hread
  obtain ⟨f', hread', -, -, hrecord⟩ := hrecords formula none c hcompile
  obtain rfl := Except.ok.inj (hread.symm.trans hread')
  exact ⟨references, f, c, hextract, hread, hnames, beq_iff_eq.1 hreferences, hcompile,
    beq_iff_eq.1 hbase, hrecord⟩

end Registry

end MetricLayer
