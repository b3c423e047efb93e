import MetricLayer.Proofs.Formula.Expansion
import MetricLayer.Proofs.Lookup

/-!
# Registries that agree

What a formula compiles to is decided by the metrics that its references lead to.
`AgreeOn r r' names` says that two registries have the same metrics under
`names`, a set that no reference leads out of; then references to `names` expand
alike (`expand_congr`) and formulas over `names` compile alike (`compile_congr`).
Stored compilations of calculated metrics play no part in this.
-/

namespace MetricLayer

open Relation (ReflTransGen TransGen)
open Sql (Expr)

namespace Registry

/-- The ids of base and calculated metrics. -/
def metricIds (r : Registry) : List String :=
  r.baseMetrics.map (·.id) ++ r.calculatedMetrics.map (·.id)

/-- Metric ids are names, used once, and none is that of a system metric. -/
structure WellFormed (r : Registry) : Prop where
  valid : ∀ id ∈ r.metricIds, isName id = true
  nodup : r.metricIds.Nodup
  unreserved : ∀ id ∈ r.metricIds, SystemMetric.ofId? id = none

variable {r r' : Registry} {names : String → Prop} {id name : String}

theorem document_of_ofDocument {document : SchemaDocument} (h : ofDocument document = .ok r) :
    r = ⟨document⟩ := by
  simp only [ofDocument, bind, Except.bind_eq_ok] at h
  obtain ⟨_, -, _, -, h⟩ := h
  exact (Except.ok.inj h).symm

theorem WellFormed.baseMetric?_eq_some_iff (h : r.WellFormed) {m : BaseMetric} :
    r.baseMetric? id = some m ↔ m ∈ r.baseMetrics ∧ m.id = id :=
  find?_eq_some_iff_of_nodup (List.nodup_append.1 h.nodup).1

theorem WellFormed.calculatedMetric?_eq_some_iff (h : r.WellFormed) {m : CalculatedMetric} :
    r.calculatedMetric? id = some m ↔ m ∈ r.calculatedMetrics ∧ m.id = id :=
  find?_eq_some_iff_of_nodup (List.nodup_append.1 h.nodup).2.1

theorem isSome_baseMetric?_iff : (r.baseMetric? id).isSome ↔ ∃ m ∈ r.baseMetrics, m.id = id := by
  simp [baseMetric?, List.find?_isSome]

theorem isSome_calculatedMetric?_iff :
    (r.calculatedMetric? id).isSome ↔ ∃ m ∈ r.calculatedMetrics, m.id = id := by
  simp [calculatedMetric?, List.find?_isSome]

theorem isSome_metric?_iff : (r.metric? id).isSome ↔
    (r.baseMetric? id).isSome ∨ (r.calculatedMetric? id).isSome ∨
      (SystemMetric.ofId? id).isSome := by
  rw [metric?]
  cases r.baseMetric? id <;> cases r.calculatedMetric? id <;> cases SystemMetric.ofId? id <;> simp

theorem metric?_eq_base_iff {m : BaseMetric} :
    r.metric? id = some (.base m) ↔ r.baseMetric? id = some m := by
  rw [metric?]
  cases r.baseMetric? id with
  | some b => simp
  | none =>
    cases r.calculatedMetric? id with
    | some c => simp
    | none => simp

theorem metric?_eq_calculated_iff {m : CalculatedMetric} :
    r.metric? id = some (.calculated m) ↔
      r.baseMetric? id = none ∧ r.calculatedMetric? id = some m := by
  rw [metric?]
  cases r.baseMetric? id with
  | some b => simp
  | none =>
    cases r.calculatedMetric? id with
    | some c => simp
    | none => simp

theorem metric?_eq_system_iff {s : SystemMetric} :
    r.metric? id = some (.system s) ↔
      r.baseMetric? id = none ∧ r.calculatedMetric? id = none ∧ SystemMetric.ofId? id = some s := by
  rw [metric?]
  cases r.baseMetric? id with
  | some b => simp
  | none =>
    cases r.calculatedMetric? id with
    | some c => simp
    | none => cases SystemMetric.ofId? id <;> simp

theorem baseMetric?_eq_none_of_metric? (h : r.metric? id = none) : r.baseMetric? id = none := by
  rw [metric?] at h
  split at h
  · cases h
  · assumption

theorem mem_calculatedMetrics_of_metric? {m : CalculatedMetric}
    (h : r.metric? id = some (.calculated m)) : m ∈ r.calculatedMetrics :=
  List.mem_of_find?_eq_some (metric?_eq_calculated_iff.1 h).2

theorem mem_metricIds_of_base {m : BaseMetric} (hm : m ∈ r.baseMetrics) : m.id ∈ r.metricIds :=
  List.mem_append_left _ (List.mem_map_of_mem hm)

/-- An id names one kind of metric only. -/
theorem WellFormed.baseMetric?_eq_none (h : r.WellFormed) {m : CalculatedMetric}
    (hm : m ∈ r.calculatedMetrics) : r.baseMetric? m.id = none := by
  rw [← Option.not_isSome_iff_eq_none, isSome_baseMetric?_iff]
  rintro ⟨b, hb, heq⟩
  exact (List.nodup_append.1 h.nodup).2.2 _ (List.mem_map_of_mem hb) _ (List.mem_map_of_mem hm) heq

theorem WellFormed.calculatedMetric?_eq_none (h : r.WellFormed) {m : BaseMetric}
    (hm : r.baseMetric? id = some m) : r.calculatedMetric? id = none := by
  rw [← Option.not_isSome_iff_eq_none, isSome_calculatedMetric?_iff]
  rintro ⟨c, hc, rfl⟩
  simp [h.baseMetric?_eq_none hc] at hm

theorem WellFormed.metric?_eq_calculated_iff (h : r.WellFormed) {m : CalculatedMetric} :
    r.metric? id = some (.calculated m) ↔ r.calculatedMetric? id = some m := by
  rw [Registry.metric?_eq_calculated_iff]
  refine and_iff_right_of_imp fun hm => ?_
  obtain ⟨hmem, rfl⟩ := h.calculatedMetric?_eq_some_iff.1 hm
  exact h.baseMetric?_eq_none hmem

/-! ## Edges -/

open DependencyGraph (ofRegistry targetKind)

theorem mem_edges_ofRegistry {e : Edge} :
    e ∈ (ofRegistry r).edges ↔ ∃ m ∈ r.calculatedMetrics,
      m.id = e.source ∧ e.target ∈ m.referredIds ∧ e.kind = targetKind r e.target := by
  simp only [ofRegistry, List.mem_flatMap, List.mem_map]
  constructor
  · rintro ⟨m, hm, id, hid, rfl⟩
    exact ⟨m, hm, rfl, hid, rfl⟩
  · rintro ⟨m, hm, hs, ht, hk⟩
    exact ⟨m, hm, e.target, ht, by rw [hs, ← hk]⟩

theorem refers_iff {a b : String} :
    (ofRegistry r).Refers a b ↔ ∃ m ∈ r.calculatedMetrics, m.id = a ∧ b ∈ m.referredIds := by
  simp only [DependencyGraph.Refers, mem_edges_ofRegistry]
  exact ⟨fun ⟨_, m, hm, hs, ht, _⟩ => ⟨m, hm, hs, ht⟩,
    fun ⟨m, hm, hs, ht⟩ => ⟨_, m, hm, hs, ht, rfl⟩⟩

theorem targetKind_eq_calculated_iff :
    targetKind r id = .calculated ↔ (r.calculatedMetric? id).isSome := by
  rw [targetKind]
  split
  · simp_all
  · split <;> simp_all

theorem dependsOn_iff {a b : String} :
    (ofRegistry r).DependsOn a b ↔ (ofRegistry r).Refers a b ∧ (r.calculatedMetric? b).isSome := by
  rw [refers_iff, ← targetKind_eq_calculated_iff]
  simp only [DependencyGraph.DependsOn, mem_edges_ofRegistry]
  exact ⟨fun ⟨m, hm, hs, ht, hk⟩ => ⟨⟨m, hm, hs, ht⟩, hk.symm⟩,
    fun ⟨⟨m, hm, hs, ht⟩, hk⟩ => ⟨m, hm, hs, ht, hk.symm⟩⟩

theorem isSome_baseMetric?_of_edge {a b : String}
    (h : ⟨a, b, .base⟩ ∈ (ofRegistry r).edges) : (r.baseMetric? b).isSome := by
  obtain ⟨_, -, -, -, hkind⟩ := mem_edges_ofRegistry.1 h
  dsimp only [targetKind] at hkind
  split at hkind <;> [cases hkind; skip]
  split at hkind <;> [assumption; cases hkind]

/-- A chain of references that ends at a calculated metric runs through
calculated metrics only. -/
theorem dependsOn_of_refers {a b : String} (h : ReflTransGen (ofRegistry r).Refers a b)
    (hb : (r.calculatedMetric? b).isSome) : ReflTransGen (ofRegistry r).DependsOn a b := by
  induction h with
  | refl => exact .refl
  | @tail c d _ hcd ih =>
    obtain ⟨m, hm, hs, -⟩ := refers_iff.1 hcd
    exact (ih (isSome_calculatedMetric?_iff.2 ⟨m, hm, hs⟩)).tail (dependsOn_iff.2 ⟨hcd, hb⟩)

theorem mem_referredIds {m : CalculatedMetric} {references : List Reference}
    (h : extractReferences m.formula = .ok references) :
    id ∈ m.referredIds ↔ ∃ x ∈ references, x.name = id := by
  simp [CalculatedMetric.referredIds, h, uniqueNames]

/-- A formula that can be read refers to what it names. -/
theorem mem_referredIds_of_read {m : CalculatedMetric} {f : Formula}
    (h : Formula.read m.formula = .ok f) : id ∈ m.referredIds ↔ id ∈ f.references := by
  obtain ⟨references, hextract, hnames⟩ := Formula.extractReferences_of_read h
  rw [mem_referredIds hextract, ← hnames, List.mem_map]

theorem refers_iff_of_read (hr : r.WellFormed) {m : CalculatedMetric} {f : Formula}
    (hm : m ∈ r.calculatedMetrics) (h : Formula.read m.formula = .ok f) :
    (ofRegistry r).Refers m.id id ↔ id ∈ f.references := by
  rw [refers_iff, ← mem_referredIds_of_read h]
  refine ⟨fun ⟨m', hm', heq, hid⟩ => ?_, fun hid => ⟨m, hm, rfl, hid⟩⟩
  obtain rfl : m' = m := Option.some.inj ((hr.calculatedMetric?_eq_some_iff.2 ⟨hm', heq⟩).symm.trans
    (hr.calculatedMetric?_eq_some_iff.2 ⟨hm, rfl⟩))
  exact hid

/-! ## Agreement -/

/-- The formula of a metric can be scanned, and refers to `names` only. -/
def ReadsOnly (names : String → Prop) (formula : String) : Prop :=
  ∃ references, extractReferences formula = .ok references ∧ ∀ x ∈ references, names x.name

/-- Two registries have the same metrics under `names`, but for what calculated
metrics were last compiled to, and these refer to `names` only. -/
structure AgreeOn (r r' : Registry) (names : String → Prop) : Prop where
  dateColumn : r.dateColumn = r'.dateColumn
  base : ∀ n, names n → r.baseMetric? n = r'.baseMetric? n
  formula : ∀ n, names n →
    (r.calculatedMetric? n).map (·.formula) = (r'.calculatedMetric? n).map (·.formula)
  closed : ∀ n, names n → ∀ m, r.calculatedMetric? n = some m → ReadsOnly names m.formula

theorem AgreeOn.exists_right (h : AgreeOn r r' names) (hn : names name) {m : CalculatedMetric}
    (hm : r.calculatedMetric? name = some m) :
    ∃ m', r'.calculatedMetric? name = some m' ∧ m'.formula = m.formula := by
  have := h.formula name hn
  rw [hm, Option.map_some, eq_comm, Option.map_eq_some_iff] at this
  exact this

theorem AgreeOn.symm (h : AgreeOn r r' names) : AgreeOn r' r names where
  dateColumn := h.dateColumn.symm
  base n hn := (h.base n hn).symm
  formula n hn := (h.formula n hn).symm
  closed n hn m' hm' := by
    have := h.formula n hn
    rw [hm', Option.map_some, Option.map_eq_some_iff] at this
    obtain ⟨m, hm, heq⟩ := this
    exact heq ▸ h.closed n hn m hm

theorem AgreeOn.isSome_calculated (h : AgreeOn r r' names) (hn : names name) :
    (r.calculatedMetric? name).isSome = (r'.calculatedMetric? name).isSome := by
  rw [← Option.isSome_map (f := (·.formula)), h.formula name hn, Option.isSome_map]

theorem AgreeOn.isCalculatedFor (h : AgreeOn r r' names) (hn : names name)
    (current : Option String) : r.isCalculatedFor current name = r'.isCalculatedFor current name := by
  rw [Registry.isCalculatedFor, Registry.isCalculatedFor, h.isSome_calculated hn]

theorem AgreeOn.isSome_metric? (h : AgreeOn r r' names) (hn : names name) :
    (r.metric? name).isSome ↔ (r'.metric? name).isSome := by
  rw [isSome_metric?_iff, isSome_metric?_iff, h.base name hn, h.isSome_calculated hn]

/-- References to `names` expand alike, if the metrics under `names` are the same
and their formulas, where they can be read, refer to `names` only. -/
theorem expand_eq_of (hdate : r.dateColumn = r'.dateColumn)
    (hbases : ∀ n, names n → r.baseMetric? n = r'.baseMetric? n)
    (hformulas : ∀ n, names n →
      (r.calculatedMetric? n).map (·.formula) = (r'.calculatedMetric? n).map (·.formula))
    (hclosed : ∀ n, names n → ∀ m f, r.calculatedMetric? n = some m →
      Formula.read m.formula = .ok f → ∀ x ∈ f.references, names x)
    (visiting : List String) (hn : names name) :
    r.expand visiting name = r'.expand visiting name := by
  have hformula {m : CalculatedMetric} {name : String} (hn : names name)
      (hm : r.calculatedMetric? name = some m) :
      ∃ m', r'.calculatedMetric? name = some m' ∧ m'.formula = m.formula := by
    have := hformulas name hn
    rwa [hm, Option.map_some, eq_comm, Option.map_eq_some_iff] at this
  have hnone {name : String} (hn : names name) (hm : r.calculatedMetric? name = none) :
      r'.calculatedMetric? name = none := by
    have := hformulas name hn
    rwa [hm, Option.map_none, eq_comm, Option.map_eq_none_iff] at this
  induction visiting, name using expand.induct r with
  | case1 visiting name b hbase => rw [expand_of_base hbase, expand_of_base (hbases name hn ▸ hbase)]
  | case2 visiting name hbase m hm hv =>
    obtain ⟨m', hm', -⟩ := hformula hn hm
    rw [List.contains_iff_mem] at hv
    rw [expand_of_visiting hbase hm hv, expand_of_visiting (hbases name hn ▸ hbase) hm' hv]
  | case3 visiting name hbase m hm hv _ ih =>
    obtain ⟨m', hm', hformula⟩ := hformula hn hm
    rw [List.contains_iff_mem] at hv
    rw [expand_of_calculated hbase hm hv, expand_of_calculated (hbases name hn ▸ hbase) hm' hv,
      hformula]
    cases hread : Formula.read m.formula with
    | error fault => rfl
    | ok f =>
      have hlower : f.lower (r.expand (visiting ++ [name])) =
          f.lower (r'.expand (visiting ++ [name])) :=
        Formula.lower_congr f fun x hx => ih x (hclosed name hn m f hm hread x hx)
      simp only [Except.mapError, Except.bind, hlower]
  | case4 visiting name hbase hm s _ | case5 visiting name hbase hm _ =>
    rw [expand_of_none hbase hm, expand_of_none (hbases name hn ▸ hbase) (hnone hn hm), hdate]

/-- References to `names` expand alike. -/
theorem expand_congr (h : AgreeOn r r' names) (visiting : List String) (hn : names name) :
    r.expand visiting name = r'.expand visiting name := by
  refine expand_eq_of h.dateColumn h.base h.formula (fun n hn m f hm hread x hx => ?_) visiting hn
  obtain ⟨references, hext, hnames⟩ := Formula.extractReferences_of_read hread
  obtain ⟨references', hext', hclosed⟩ := h.closed n hn m hm
  obtain rfl := Except.ok.inj (hext.symm.trans hext')
  rw [← hnames, List.mem_map] at hx
  obtain ⟨reference, hreference, rfl⟩ := hx
  exact hclosed reference hreference

/-- Dependencies that start in `names` are the same. -/
theorem dependsOn_congr (h : AgreeOn r r' names) (hr : r.WellFormed) {a b : String} (ha : names a)
    (hab : (ofRegistry r).DependsOn a b) : names b ∧ (ofRegistry r').DependsOn a b := by
  obtain ⟨⟨m, hm, hs, ht⟩, hd⟩ := (dependsOn_iff.trans (and_congr_left' refers_iff)).1 hab
  have hm? := hr.calculatedMetric?_eq_some_iff.2 ⟨hm, hs⟩
  obtain ⟨references, hext, hclosed⟩ := h.closed a ha m hm?
  obtain ⟨x, hx, rfl⟩ := (mem_referredIds hext).1 ht
  obtain ⟨m', hm', hformula⟩ := h.exists_right ha hm?
  have hb := hclosed x hx
  refine ⟨hb, dependsOn_iff.2 ⟨refers_iff.2 ⟨m', ?_, ?_, ?_⟩, ?_⟩⟩
  · exact List.mem_of_find?_eq_some hm'
  · simpa using List.find?_some hm'
  · exact (mem_referredIds (hformula ▸ hext)).2 ⟨x, hx, rfl⟩
  · rwa [← h.isSome_calculated hb]

theorem reach_congr (h : AgreeOn r r' names) (hr : r.WellFormed) {a b : String} (ha : names a)
    (hab : ReflTransGen (ofRegistry r).DependsOn a b) :
    names b ∧ ReflTransGen (ofRegistry r').DependsOn a b := by
  induction hab with
  | refl => exact ⟨ha, .refl⟩
  | tail _ hcd ih =>
    obtain ⟨hd, hcd'⟩ := dependsOn_congr h hr ih.1 hcd
    exact ⟨hd, ih.2.tail hcd'⟩

theorem classify_congr (h : AgreeOn r r' names) (current : Option String) {ids : List String}
    (hids : ∀ id ∈ ids, names id) : r.classify current ids = r'.classify current ids := by
  have hbase : ∀ id ∈ ids, (r.baseMetric? id).isSome = (r'.baseMetric? id).isSome :=
    fun id hid => by rw [h.base id (hids id hid)]
  have hcalc : ∀ id ∈ ids, r.isCalculatedFor current id = r'.isCalculatedFor current id :=
    fun id hid => h.isCalculatedFor (hids id hid) current
  simp only [classify, List.partition_eq_filter_filter, List.filter_filter]
  refine Prod.ext ?_ (Prod.ext ?_ ?_)
  · exact List.filter_congr hbase
  · refine List.filter_congr fun id hid => ?_
    simp only [Function.comp_apply, hbase id hid, hcalc id hid]
  · refine List.filter_congr fun id hid => ?_
    simp only [Function.comp_apply, hbase id hid, hcalc id hid]

/-- A formula over `names` that compiles in one registry compiles to the same in
the other. -/
theorem compile_congr (h : AgreeOn r r' names) (hr' : r'.WellFormed) {d : Sql.Dialect}
    {formula : String} {current : Option String} {c : CompiledFormula}
    (hformula : ReadsOnly names formula) (hc : r.compile d formula current = .ok c) :
    r'.compile d formula current = .ok c := by
  obtain ⟨references, f, hcomp⟩ := compile_eq_ok_iff.1 hc
  obtain ⟨references', hext, hclosed⟩ := hformula
  obtain rfl := Except.ok.inj (hcomp.extracted.symm.trans hext)
  have hids : ∀ id ∈ uniqueNames references, names id := by
    simp only [uniqueNames, List.mem_eraseDups, List.mem_map]
    rintro id ⟨x, hx, rfl⟩
    exact hclosed x hx
  have hclassify := classify_congr h current hids
  refine compile_eq_ok_iff.2 ⟨references, f, ?_⟩
  obtain ⟨references'', hext', hnames⟩ := Formula.extractReferences_of_read hcomp.parsed
  obtain rfl := Except.ok.inj (hcomp.extracted.symm.trans hext')
  refine ⟨hcomp.extracted, ?_, fun id hid name hname hchain => ?_, hcomp.parsed, ?_,
    hcomp.sql_eq, hcomp.guarded, ?_, ?_⟩
  · rw [← classify_unknown_eq_nil_iff, ← hclassify]
    exact classify_unknown_eq_nil_iff.2 hcomp.known
  · have hmem : names name := by
      rw [hcomp.calculated_eq, mem_classify_calculated] at hname
      exact hids name hname.1
    exact hcomp.noCycle id hid name hname (reach_congr h.symm hr' hmem hchain).2
  · rw [← hcomp.lowered]
    refine (Formula.lower_congr f fun n hn => ?_).symm
    rw [← hnames, List.mem_map] at hn
    obtain ⟨x, hx, rfl⟩ := hn
    exact expand_congr h _ (hclosed x hx)
  · rw [hcomp.base_eq, hclassify]
  · rw [hcomp.calculated_eq, hclassify]

end Registry

end MetricLayer
