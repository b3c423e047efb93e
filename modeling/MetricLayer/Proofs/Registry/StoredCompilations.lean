import MetricLayer.Proofs.Formula.Meaning
import MetricLayer.Proofs.Registry.Cascades

/-!
# Stored compilations

A compilation that succeeds has not read what calculated metrics were last compiled
to (`SameMetrics.compile_eq_ok_iff`). The graph does read it where a formula cannot
be scanned, and the check for cycles reads the graph. But every formula on a chain
of references from a formula that compiles has been expanded, hence scanned
(`readsOnly_readable_of_compile`), so that the chains that count are the same
whatever is stored.

Metrics that are compiled again have formulas that can be scanned, so a cascade and
a validation leave the graph itself as it is and with it every compilation, its
error included (`SameMetrics.compile_eq`). A second cascade from the same metric
comes to the same as the first.
-/

namespace MetricLayer

/-- The metric with nothing stored. -/
def CalculatedMetric.uncompiled (m : CalculatedMetric) : CalculatedMetric :=
  { m with
    compiledSql := ""
    dependsOnBase := []
    dependsOnCalculated := [] }

/-- The document with nothing stored for its calculated metrics. -/
def SchemaDocument.uncompiled (document : SchemaDocument) : SchemaDocument :=
  { document with calculatedMetrics := document.calculatedMetrics.map (·.uncompiled) }

namespace Registry

open Relation (ReflTransGen)
open DependencyGraph (ofRegistry targetKind)
open Sql (Expr)

variable {d : Sql.Dialect} {r r' : Registry} {id name : String}

theorem SameMetrics.of_uncompiled (h : r.document.uncompiled = r'.document.uncompiled) :
    r.SameMetrics r' where
  dateColumn := (congrArg SchemaDocument.dateColumn h :)
  base := (congrArg SchemaDocument.baseMetrics h :)
  calculated := by
    have hcalcs := congrArg (fun document => document.calculatedMetrics.map
      fun m : CalculatedMetric => (m.id, m.formula)) h
    simpa [SchemaDocument.uncompiled, CalculatedMetric.uncompiled, Function.comp_def] using hcalcs

/-! ## Chains of references that can be read -/

/-- Every formula that references lead to from `name` can be scanned. -/
def Readable (r : Registry) (name : String) : Prop :=
  ∀ b, ReflTransGen (ofRegistry r).Refers name b →
    ∀ m, r.calculatedMetric? b = some m → ReadsOnly (fun _ => True) m.formula

theorem readable_of_eq_none (h : r.calculatedMetric? name = none) : r.Readable name := by
  intro b hchain m hm
  rcases ReflTransGen.cases_head hchain with rfl | ⟨c, hc, -⟩
  · rw [h] at hm
    cases hm
  · obtain ⟨m', hm', hid, -⟩ := refers_iff.1 hc
    have hsome := isSome_calculatedMetric?_iff.2 ⟨m', hm', hid⟩
    rw [h] at hsome
    cases hsome

theorem readable_of_calculated (hr : r.WellFormed) {m : CalculatedMetric}
    (hm : r.calculatedMetric? name = some m) (hreads : ReadsOnly r.Readable m.formula) :
    r.Readable name := by
  intro b hchain m' hm'
  rcases ReflTransGen.cases_head hchain with rfl | ⟨c, hc, hrest⟩
  · obtain rfl : m' = m := Option.some.inj (hm'.symm.trans hm)
    exact hreads.mono fun _ _ => trivial
  · obtain ⟨m'', hmem, hid, hrefers⟩ := refers_iff.1 hc
    obtain rfl : m'' = m :=
      Option.some.inj ((hr.calculatedMetric?_eq_some_iff.2 ⟨hmem, hid⟩).symm.trans hm)
    exact hreads.of_mem_referredIds hrefers b hrest m' hm'

theorem readsOnly_of_read {names : String → Prop} {formula : String} {f : Formula}
    (hread : Formula.read formula = .ok f) (h : ∀ name ∈ f.references, names name) :
    ReadsOnly names formula := by
  obtain ⟨references, hext, hnames⟩ := Formula.extractReferences_of_read hread
  exact ⟨references, hext, fun x hx => h _ (hnames ▸ List.mem_map_of_mem hx)⟩

/-- A formula that can be lowered refers to what can be read all the way. -/
theorem readable_of_lower (hr : r.WellFormed) {visiting : List String} {f : Formula} {e : Expr}
    (h : f.lower (r.expand visiting) = .ok e) : ∀ name ∈ f.references, r.Readable name := by
  refine holds_of_lower (P := fun f _ => ∀ name ∈ f.references, r.Readable name)
    (fun resolve f e hlower hexpands name hname => ?_) h
  obtain ⟨e', he'⟩ := Formula.exists_of_lower hlower name hname
  cases hcalc : r.calculatedMetric? name with
  | none => exact readable_of_eq_none hcalc
  | some m =>
    have hknown := hr.metric?_eq_calculated_iff.2 hcalc
    cases hexpands name e' he' with
    | base known => cases hknown.symm.trans known
    | system known => cases hknown.symm.trans known
    | calculated known parsed inner =>
      cases hknown.symm.trans known
      exact readable_of_calculated hr hcalc (readsOnly_of_read parsed inner)

theorem readsOnly_readable_of_compile (hr : r.WellFormed) {formula : String}
    {current : Option String} {c : CompiledFormula} (h : r.compile d formula current = .ok c) :
    ReadsOnly r.Readable formula := by
  obtain ⟨references, f, hc⟩ := compile_eq_ok_iff.1 h
  exact readsOnly_of_read hc.parsed (readable_of_lower hr hc.lowered)

/-! ## Compilations that succeed -/

namespace SameMetrics

theorem agreeOn_readable (h : r.SameMetrics r') : AgreeOn r r' r.Readable where
  dateColumn := h.dateColumn
  base n _ := h.baseMetric? n
  formula n _ := h.formula? n
  closed n hn m hm := by
    obtain ⟨references, hext, -⟩ := hn n .refl m hm
    refine ⟨references, hext, fun x hx b hchain => hn b (hchain.head ?_)⟩
    exact refers_iff.2 ⟨m, List.mem_of_find?_eq_some hm, by simpa using List.find?_some hm,
      (mem_referredIds hext).2 ⟨x, hx, rfl⟩⟩

/-- Registries with the same metrics compile the same formulas to the same. -/
theorem compile_eq_ok_iff (h : r.SameMetrics r') (hr : r.WellFormed) {formula : String}
    {current : Option String} {c : CompiledFormula} :
    r.compile d formula current = .ok c ↔ r'.compile d formula current = .ok c := by
  have hr' := h.wellFormed hr
  constructor
  · intro hc
    exact compile_congr h.agreeOn_readable hr' (readsOnly_readable_of_compile hr hc) hc
  · intro hc
    exact compile_congr h.symm.agreeOn_readable hr (readsOnly_readable_of_compile hr' hc) hc

/-! ## Registries with the same graph -/

theorem isSome_calculatedMetric? (h : r.SameMetrics r') (n : String) :
    (r.calculatedMetric? n).isSome = (r'.calculatedMetric? n).isSome := by
  rw [← Option.isSome_map (f := (·.formula)), h.formula? n, Option.isSome_map]

theorem expand (h : r.SameMetrics r') (visiting : List String) :
    r.expand visiting = r'.expand visiting :=
  funext fun _ => expand_eq_of h.dateColumn (fun n (_ : True) => h.baseMetric? n)
    (fun n _ => h.formula? n) (fun _ _ _ _ _ _ _ _ => trivial) visiting trivial

theorem classify (h : r.SameMetrics r') (current : Option String) (names : List String) :
    r.classify current names = r'.classify current names := by
  have hcalculated : r.isCalculatedFor current = r'.isCalculatedFor current :=
    funext fun n => by rw [isCalculatedFor, isCalculatedFor, h.isSome_calculatedMetric? n]
  simp only [Registry.classify, h.baseMetric?, hcalculated]

/-- With the same graph as well, all compilations come to the same. -/
theorem compile_eq (h : r.SameMetrics r') (hgraph : ofRegistry r = ofRegistry r')
    (formula : String) (current : Option String) :
    r.compile d formula current = r'.compile d formula current := by
  simp only [compile, h.classify, h.expand, hgraph]

/-- The graph is decided by the ids that each calculated metric refers to. -/
theorem ofRegistry_eq (h : r.SameMetrics r')
    (hrefers : r.calculatedMetrics.map (fun m => (m.id, m.referredIds)) =
      r'.calculatedMetrics.map fun m => (m.id, m.referredIds)) : ofRegistry r = ofRegistry r' := by
  have hkind : targetKind r = targetKind r' := funext fun n => by
    rw [targetKind, targetKind, h.isSome_calculatedMetric?, h.baseMetric?]
  have hedges (ms : List CalculatedMetric) :
      (ms.flatMap fun m => m.referredIds.map fun n => (⟨m.id, n, targetKind r n⟩ : Edge)) =
        (ms.map fun m => (m.id, m.referredIds)).flatMap fun entry =>
          entry.2.map fun n => (⟨entry.1, n, targetKind r n⟩ : Edge) := by
    rw [List.flatMap_map]
  rw [ofRegistry, ofRegistry, ← hkind, hedges, hrefers, ← hedges]

end SameMetrics

/-! ## Metrics compiled again -/

/-- A metric that compiles refers to the same ids when it is stored. -/
theorem referredIds_withCompiled {m : CalculatedMetric} {c : CompiledFormula}
    {current : Option String} (h : r.compile d m.formula current = .ok c) :
    (m.withCompiled c).referredIds = m.referredIds := by
  obtain ⟨references, f, hc⟩ := Registry.compile_eq_ok_iff.1 h
  simp [CalculatedMetric.referredIds, hc.extracted]

theorem ofRegistry_validateAll (r : Registry) (d : Sql.Dialect) :
    ofRegistry r = ofRegistry (r.validateAll d).2 := by
  refine (sameMetrics_validateAll r d).ofRegistry_eq ?_
  refine (map_calculatedMetrics_validateAll fun m => ?_).symm
  rw [revalidateMetric]
  split
  · rename_i c hc
    rw [referredIds_withCompiled hc]
    rfl
  · rfl

/-- What a cascade stores for a metric is what its formula compiles to. -/
theorem exists_compiled_of_cascade (hr : r.WellFormed) {outcome : CascadeOutcome}
    (h : r.cascade d id = .ok outcome) {u m : CalculatedMetric} (hu : u ∈ outcome.updated)
    (hm : m ∈ r.calculatedMetrics) (hid : m.id = u.id) :
    ∃ c, r.compile d m.formula (some m.id) = .ok c ∧ u = m.withCompiled c := by
  obtain ⟨m', hm', c, hc, rfl⟩ := (hr.cascaded h).updated u hu
  obtain rfl : m = m' := List.inj_on_of_nodup_map (List.nodup_append.1 hr.nodup).2.1 hm hm' hid
  exact ⟨c, hc, rfl⟩

section Cascade

variable {outcome : CascadeOutcome}

theorem map_applyCascade {α : Type} {f : CalculatedMetric → α} (hr : r.WellFormed)
    (h : r.cascade d id = .ok outcome)
    (hf : ∀ m c, r.compile d m.formula (some m.id) = .ok c → f (m.withCompiled c) = f m) :
    (r.applyCascade outcome).calculatedMetrics.map f = r.calculatedMetrics.map f := by
  refine map_foldl_putCalculated fun u hu m hm hid => ?_
  obtain ⟨c, hc, rfl⟩ := exists_compiled_of_cascade hr h hu hm hid
  exact (hf m c hc).symm

theorem uncompiled_applyCascade (hr : r.WellFormed) (h : r.cascade d id = .ok outcome) :
    r.document.uncompiled = (r.applyCascade outcome).document.uncompiled := by
  have hcalcs := map_applyCascade (f := CalculatedMetric.uncompiled) hr h fun _ _ _ => rfl
  have heq := foldl_putCalculated_eq outcome.updated r
  rw [SchemaDocument.uncompiled, SchemaDocument.uncompiled, ← hcalcs, applyCascade, heq]
  rfl

theorem ofRegistry_applyCascade (hr : r.WellFormed) (h : r.cascade d id = .ok outcome) :
    ofRegistry r = ofRegistry (r.applyCascade outcome) :=
  (SameMetrics.of_uncompiled (uncompiled_applyCascade hr h)).ofRegistry_eq
    (map_applyCascade hr h fun _ _ hc => by rw [referredIds_withCompiled hc]; rfl).symm

theorem find?_uncompiled (ms : List CalculatedMetric) (n : String) :
    (ms.find? (·.id == n)).map (·.uncompiled) = (ms.map (·.uncompiled)).find? (·.id == n) := by
  rw [List.find?_map]
  rfl

/-- Compiling a metric again comes to the same whatever is stored. -/
theorem recompile_congr (hsame : r.document.uncompiled = r'.document.uncompiled)
    (hgraph : ofRegistry r = ofRegistry r') : r.recompile d = r'.recompile d := by
  funext outcome x
  have hcompile := (SameMetrics.of_uncompiled hsame).compile_eq hgraph (d := d)
  have hfind : (r.calculatedMetric? x).map (·.uncompiled) =
      (r'.calculatedMetric? x).map (·.uncompiled) := by
    have hcalcs : r.calculatedMetrics.map (·.uncompiled) = r'.calculatedMetrics.map (·.uncompiled) :=
      congrArg SchemaDocument.calculatedMetrics hsame
    rw [calculatedMetric?, calculatedMetric?, find?_uncompiled, hcalcs, ← find?_uncompiled]
  rw [recompile, recompile]
  cases hm : r.calculatedMetric? x with
  | none =>
    rw [hm, Option.map_none, eq_comm, Option.map_eq_none_iff] at hfind
    rw [hfind]
  | some m =>
    rw [hm, Option.map_some, eq_comm, Option.map_eq_some_iff] at hfind
    obtain ⟨m', hm', hsame⟩ := hfind
    have hformula : m'.formula = m.formula :=
      (congrArg CalculatedMetric.formula hsame :)
    have hwith (c : CompiledFormula) : m'.withCompiled c = m.withCompiled c :=
      (congrArg (fun m : CalculatedMetric => m.withCompiled c) hsame :)
    rw [hm']
    simp only [hcompile, hformula, hwith]

theorem cascade_congr (hsame : r.document.uncompiled = r'.document.uncompiled)
    (hgraph : ofRegistry r = ofRegistry r') : r.cascade d id = r'.cascade d id := by
  have hmetrics := SameMetrics.of_uncompiled hsame
  simp only [cascade, hgraph, recompile_congr hsame hgraph, hmetrics.baseMetric? id,
    ← Option.not_isSome, hmetrics.isSome_calculatedMetric? id]

end Cascade

/-- Accepted documents that differ only in what their calculated metrics were last
compiled to compile the same formulas, to the same. What a cascade or a validation
stores changes no later compilation, and the cascade can be repeated. -/
theorem compile_ignores_stored {document document' : SchemaDocument}
    (accepted : ofDocument document = .ok r) (accepted' : ofDocument document' = .ok r')
    (same : document.uncompiled = document'.uncompiled) (d : Sql.Dialect) :
    (∀ formula current c,
      r.compile d formula current = .ok c ↔ r'.compile d formula current = .ok c) ∧
    (∀ d' formula current,
      (r.validateAll d').2.compile d formula current = r.compile d formula current) ∧
    ∀ d' id outcome, r.cascade d' id = .ok outcome →
      (∀ formula current,
        (r.applyCascade outcome).compile d formula current = r.compile d formula current) ∧
      (r.applyCascade outcome).cascade d' id = .ok outcome := by
  have hr := wellFormed_ofDocument accepted
  obtain rfl := document_of_ofDocument accepted
  obtain rfl := document_of_ofDocument accepted'
  refine ⟨fun formula current c => (SameMetrics.of_uncompiled same).compile_eq_ok_iff hr,
    fun d' formula current => ?_, fun d' id outcome h => ⟨fun formula current => ?_, ?_⟩⟩
  · exact ((sameMetrics_validateAll _ d').compile_eq (ofRegistry_validateAll _ d') _ _).symm
  · have hsame := SameMetrics.of_uncompiled (uncompiled_applyCascade hr h)
    exact (hsame.compile_eq (ofRegistry_applyCascade hr h) _ _).symm
  · rw [← h]
    exact (cascade_congr (uncompiled_applyCascade hr h) (ofRegistry_applyCascade hr h)).symm

/-- A document in which `draft` has a formula that cannot be scanned. -/
def draftDocument (dependsOn : List String) : SchemaDocument where
  table := "sales"
  sourceTable := "raw.sales"
  baseMetrics := [{ id := "sales", sourceColumns := ["amount"], aggregation := .sum }]
  calculatedMetrics := [{ id := "double", formula := "{sales} * 2" },
    { id := "draft", formula := "\x7bdouble", dependsOnCalculated := dependsOn },
    { id := "share", formula := "{double} / {sales}" }]

/-- Whether `draft` is said to rest on `double` or not, `share` compiles to the same,
and after a cascade from `sales` it still does. -/
theorem compile_ignores_stored_of_draft :
    ∃ r r' outcome c, ofDocument (draftDocument ["share"]) = .ok r ∧
      ofDocument (draftDocument []) = .ok r' ∧
      (draftDocument ["share"]).uncompiled = (draftDocument []).uncompiled ∧
      ofRegistry r ≠ ofRegistry r' ∧
      r.cascade .duckDb "sales" = .ok outcome ∧ outcome.updated ≠ [] ∧
      r.compile .bigQuery "{double} / {sales}" (some "share") = .ok c ∧
      r'.compile .bigQuery "{double} / {sales}" (some "share") = .ok c ∧
      (r.applyCascade outcome).compile .bigQuery "{double} / {sales}" (some "share") = .ok c ∧
      (r.applyCascade outcome).cascade .duckDb "sales" = .ok outcome := by
  obtain ⟨r, hr⟩ := Except.exists_of_toBool (x := ofDocument (draftDocument ["share"]))
    (by decide +kernel)
  obtain ⟨r', hr'⟩ := Except.exists_of_toBool (x := ofDocument (draftDocument []))
    (by decide +kernel)
  have same : (draftDocument ["share"]).uncompiled = (draftDocument []).uncompiled := rfl
  obtain ⟨hcompile, -, hcascade⟩ := compile_ignores_stored hr hr' same .bigQuery
  obtain rfl := document_of_ofDocument hr
  obtain rfl := document_of_ofDocument hr'
  obtain ⟨outcome, houtcome⟩ := Except.exists_of_toBool
    (x := cascade ⟨draftDocument ["share"]⟩ .duckDb "sales") (by decide +kernel)
  obtain ⟨c, hc⟩ := Except.exists_of_toBool
    (x := compile ⟨draftDocument ["share"]⟩ .bigQuery "{double} / {sales}" (some "share"))
    (by decide +kernel)
  obtain ⟨hafter, hagain⟩ := hcascade .duckDb "sales" outcome houtcome
  have hupdated : ((cascade ⟨draftDocument ["share"]⟩ .duckDb "sales").toOption.map
      (·.updated.length)) = some 2 := by decide +kernel
  refine ⟨_, _, outcome, c, hr, hr', same, ?_, houtcome, ?_, hc, (hcompile _ _ _).1 hc,
    (hafter _ _).trans hc, hagain⟩
  · intro heq
    have hlength := congrArg (fun g => g.edges.length) heq
    revert hlength
    decide +kernel
  · rintro hnil
    rw [houtcome] at hupdated
    simp [Except.toOption, hnil] at hupdated

end Registry

end MetricLayer
