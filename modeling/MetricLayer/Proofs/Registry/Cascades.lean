import MetricLayer.Proofs.Registry.Editing

/-!
# What a cascade comes to

A cascade from a metric goes through the calculated metrics that lead to it by
references, each after those that it refers to. It compiles each of them once, and what
is stored of one that compiles is replaced in its place (`Cascaded`,
`cascaded_of_cascade`).
-/

namespace MetricLayer

open Relation (ReflTransGen)

/-- The ids of the metrics that were compiled again, and of those that do not compile. -/
def CascadeOutcome.ids (outcome : CascadeOutcome) : List String :=
  outcome.updated.map (·.id) ++ outcome.skipped.map (·.1)

namespace Registry

open DependencyGraph (ofRegistry)

variable {d : Sql.Dialect} {r : Registry} {id : String} {outcome : CascadeOutcome}

/-- What a cascade from `id` has to come to. -/
structure Cascaded (d : Sql.Dialect) (r : Registry) (id : String) (outcome : CascadeOutcome) :
    Prop where
  nodup : outcome.ids.Nodup
  mem_ids : ∀ x, x ∈ outcome.ids ↔
    (r.calculatedMetric? x).isSome ∧ x ≠ id ∧ ReflTransGen (ofRegistry r).Refers x id
  /-- A metric stands after those that its formula refers to. -/
  ordered : ∀ before u after, outcome.updated = before ++ u :: after →
    ∃ f, Formula.read u.formula = .ok f ∧
      ∀ v ∈ outcome.updated, v.id ∈ f.references → v ∈ before
  updated : ∀ u ∈ outcome.updated, ∃ m ∈ r.calculatedMetrics, ∃ c,
    r.compile d m.formula (some m.id) = .ok c ∧
      u = { m with
        compiledSql := c.sql
        dependsOnBase := c.dependsOnBase
        dependsOnCalculated := c.dependsOnCalculated }
  skipped : ∀ x e, (x, e) ∈ outcome.skipped → ∃ m ∈ r.calculatedMetrics,
    m.id = x ∧ r.compile d m.formula (some m.id) = .error e
  /-- What is written back is the updated metrics, each in the place of the old one. -/
  applied : (r.applyCascade outcome).document =
    { r.document with
      calculatedMetrics := r.calculatedMetrics.map fun m =>
        (outcome.updated.find? (·.id == m.id)).getD m }

theorem id_of_calculatedMetric? {x : String} {m : CalculatedMetric}
    (h : r.calculatedMetric? x = some m) : m.id = x := by
  simpa using List.find?_some h

theorem id_of_recompiled? {x : String} {u : CalculatedMetric} (h : r.recompiled? d x = some u) :
    u.id = x := by
  obtain ⟨m, c, hm, -, rfl⟩ := recompiled?_eq_some_iff.1 h
  have hid : m.id = x := id_of_calculatedMetric? hm
  exact hid

/-! ## The order of a cascade -/

theorem cascade_eq_ok (h : r.cascade d id = .ok outcome) :
    ∃ order, (ofRegistry r).topologicalOrder ((ofRegistry r).transitiveDependents id) = .ok order ∧
      outcome.updated = order.filterMap (r.recompiled? d) ∧
      outcome.skipped = order.filterMap (r.failed? d) := by
  rw [cascade] at h
  split at h <;> [cases h; skip]
  simp only [bind, Except.bind_eq_ok] at h
  obtain ⟨order, horder, h⟩ := h
  obtain rfl := Except.ok.inj h
  exact ⟨order, horder, by simp [foldl_recompile]⟩

/-- Every calculated metric either compiles or does not. -/
theorem perm_ids {order : List String} (h : ∀ x ∈ order, (r.calculatedMetric? x).isSome) :
    ((order.filterMap (r.recompiled? d)).map (·.id) ++
      (order.filterMap (r.failed? d)).map (·.1)).Perm order := by
  induction order with
  | nil => exact .nil
  | cons x rest ih =>
    rw [List.forall_mem_cons] at h
    obtain ⟨m, hm⟩ := Option.isSome_iff_exists.1 h.1
    have hrest := (ih h.2).cons x
    rw [List.filterMap_cons, List.filterMap_cons]
    cases hc : r.compile d m.formula (some x) with
    | ok c =>
      have hupdated : r.recompiled? d x = some (m.withCompiled c) := by simp [recompiled?, hm, hc]
      have hfailed : r.failed? d x = none := by simp [failed?, hm, hc]
      rw [hupdated, hfailed]
      simpa [id_of_calculatedMetric? hm] using hrest
    | error e =>
      have hupdated : r.recompiled? d x = none := by simp [recompiled?, hm, hc]
      have hfailed : r.failed? d x = some (x, e) := by simp [failed?, hm, hc]
      rw [hupdated, hfailed]
      exact List.perm_middle.trans hrest

theorem mem_of_mem_filterMap {order : List String} {u : CalculatedMetric}
    (hu : u ∈ order.filterMap (r.recompiled? d)) :
    u.id ∈ order ∧ r.recompiled? d u.id = some u := by
  obtain ⟨x, hx, hu⟩ := List.mem_filterMap.1 hu
  obtain rfl := id_of_recompiled? hu
  exact ⟨hx, hu⟩

/-- The graph has the references of a formula that compiles. -/
theorem exists_references_of_compile {m : CalculatedMetric} {current : Option String}
    {c : CompiledFormula} (h : r.compile d m.formula current = .ok c) :
    ∃ f, Formula.read m.formula = .ok f ∧ ∀ n, n ∈ m.referredIds ↔ n ∈ f.references := by
  obtain ⟨references, f, hc⟩ := compile_eq_ok_iff.1 h
  obtain ⟨references', hextract, hnames⟩ := Formula.extractReferences_of_read hc.parsed
  refine ⟨f, hc.parsed, fun n => ?_⟩
  rw [mem_referredIds hextract, ← hnames, List.mem_map]

/-- What is compiled again along an order comes after what it refers to. -/
theorem ordered_filterMap {subset order : List String} (hsub : order ⊆ subset)
    (hordered : DependencyGraph.Ordered (ofRegistry r) subset [] order)
    {before after : List CalculatedMetric} {u : CalculatedMetric}
    (hsplit : order.filterMap (r.recompiled? d) = before ++ u :: after) :
    ∃ f, Formula.read u.formula = .ok f ∧
      ∀ v ∈ order.filterMap (r.recompiled? d), v.id ∈ f.references → v ∈ before := by
  obtain ⟨xs, ys, rfl, rfl, hys⟩ := List.filterMap_eq_append_iff.1 hsplit
  obtain ⟨zs, x, rest, rfl, hzs, hu, -⟩ := List.filterMap_eq_cons_iff.1 hys
  obtain ⟨m, c, hm, hc, rfl⟩ := recompiled?_eq_some_iff.1 hu
  obtain ⟨f, hread, hreferences⟩ := exists_references_of_compile hc
  refine ⟨f, hread, fun v hv href => ?_⟩
  obtain ⟨hvorder, hv⟩ := mem_of_mem_filterMap hv
  obtain ⟨_, _, hvcalc, -⟩ := recompiled?_eq_some_iff.1 hv
  have hdepends : (ofRegistry r).DependsOn x v.id :=
    dependsOn_iff.2 ⟨refers_iff.2 ⟨m, List.mem_of_find?_eq_some hm, id_of_calculatedMetric? hm,
      (hreferences _).2 href⟩, Option.isSome_iff_exists.2 ⟨_, hvcalc⟩⟩
  rw [← List.append_assoc] at hordered
  have hbefore : v.id ∈ xs ++ zs :=
    (hordered.mem_before (hsub hvorder) hdepends).resolve_right List.not_mem_nil
  have hnone : zs.filterMap (r.recompiled? d) = [] := List.filterMap_eq_nil_iff.2 hzs
  have hmem : v ∈ (xs ++ zs).filterMap (r.recompiled? d) := List.mem_filterMap.2 ⟨_, hbefore, hv⟩
  rwa [List.filterMap_append, hnone, List.append_nil] at hmem

/-! ## Writing back -/

/-- Each stored metric is replaced by the one of its id, if there is one. -/
theorem foldl_putCalculated {us : List CalculatedMetric} (hnodup : (us.map (·.id)).Nodup)
    (r : Registry) : us.foldl putCalculated r = r.withCalculatedMetrics
      (r.calculatedMetrics.map fun m => (us.find? (·.id == m.id)).getD m) := by
  induction us generalizing r with
  | nil => simp [withCalculatedMetrics, calculatedMetrics]
  | cons u rest ih =>
    rw [List.map_cons, List.nodup_cons] at hnodup
    rw [List.foldl_cons, ih hnodup.2, calculatedMetrics_putCalculated, List.map_map]
    change r.withCalculatedMetrics _ = _
    congr 1
    refine List.map_congr_left fun m _ => ?_
    by_cases hid : m.id = u.id
    · have hnone : rest.find? (·.id == u.id) = none := by
        rw [List.find?_eq_none]
        intro v hv heq
        exact hnodup.1 (beq_iff_eq.1 heq ▸ List.mem_map_of_mem hv)
      simp [hid, hnone]
    · simp [hid, Ne.symm hid]

/-! ## Cascades -/

theorem WellFormed.cascaded (hr : r.WellFormed) (h : r.cascade d id = .ok outcome) :
    Cascaded d r id outcome := by
  obtain ⟨order, horder, hupdated, hskipped⟩ := cascade_eq_ok h
  have hsorted := (ofRegistry r).pairwise_transitiveDependents id
  have hkind : ∀ x ∈ (ofRegistry r).transitiveDependents id, ∀ y,
      (ofRegistry r).Refers y x → (ofRegistry r).DependsOn y x :=
    fun x hx y hyx => dependsOn_of_mem_transitiveDependents hx hyx
  have hperm := DependencyGraph.perm_of_topologicalOrder hsorted hkind horder
  have hcalculated : ∀ x ∈ order, (r.calculatedMetric? x).isSome :=
    fun x hx => isSome_of_mem_transitiveDependents (hperm.mem_iff.1 hx)
  have hids : outcome.ids.Perm order := by
    rw [CascadeOutcome.ids, hupdated, hskipped]
    exact perm_ids hcalculated
  have hnodup : outcome.ids.Nodup :=
    (hids.trans hperm).nodup_iff.2 (nodup_of_pairwise_lt hsorted)
  have hstored {x : String} {m : CalculatedMetric} (hm : r.calculatedMetric? x = some m) :
      m ∈ r.calculatedMetrics ∧ m.id = x := hr.calculatedMetric?_eq_some_iff.1 hm
  refine ⟨hnodup, fun x => ?_, fun before u after hsplit => ?_, fun u hu => ?_,
    fun x e hx => ?_, ?_⟩
  · rw [(hids.trans hperm).mem_iff]
    exact ⟨fun hx => ⟨isSome_of_mem_transitiveDependents hx,
        DependencyGraph.mem_transitiveDependents.1 hx⟩,
      fun hx => DependencyGraph.mem_transitiveDependents.2 hx.2⟩
  · have hordered := DependencyGraph.ordered_of_topologicalOrder hsorted hkind horder
    rw [hupdated] at hsplit ⊢
    exact ordered_filterMap hperm.subset hordered hsplit
  · rw [hupdated] at hu
    obtain ⟨-, hu⟩ := mem_of_mem_filterMap hu
    obtain ⟨m, c, hm, hc, hu⟩ := recompiled?_eq_some_iff.1 hu
    obtain ⟨hmem, hid⟩ := hstored hm
    exact ⟨m, hmem, c, hid ▸ hc, hu⟩
  · rw [hskipped, List.mem_filterMap] at hx
    obtain ⟨y, -, hy⟩ := hx
    obtain ⟨rfl, m, hm, hc⟩ := failed?_eq_some_iff.1 hy
    obtain ⟨hmem, rfl⟩ := hstored hm
    exact ⟨m, hmem, rfl, hc⟩
  · rw [applyCascade, foldl_putCalculated (List.nodup_append.1 hnodup).1]
    rfl

/-- **Cascades.** A cascade over an accepted document that succeeds goes through just
the calculated metrics that lead to `id`, and comes to what it should. -/
theorem cascaded_of_cascade {document : SchemaDocument} (accepted : ofDocument document = .ok r)
    (h : r.cascade d id = .ok outcome) : Cascaded d r id outcome :=
  (wellFormed_ofDocument accepted).cascaded h

/-- A margin that rests on the cost of a click, and a return that names a metric that is
gone. -/
def marginDocument : SchemaDocument where
  table := "sales"
  sourceTable := "raw.sales"
  baseMetrics := ["clicks", "cost", "sales"].map fun id =>
    { id, sourceColumns := [id], aggregation := .sum }
  calculatedMetrics := [
    { id := "a_margin", formula := "{cost_per_click} / {sales}" },
    { id := "b_return", formula := "{refunds} / {cost_per_click}" },
    { id := "cost_per_click", formula := "{cost} / {clicks}" },
    { id := "sales_a_day", formula := "{sales} / {days_in_range}" }]

theorem cascaded_of_cost : ∃ outcome,
    (⟨marginDocument⟩ : Registry).cascade .bigQuery "cost" = .ok outcome ∧
      outcome.updated.map (·.id) = ["cost_per_click", "a_margin"] ∧
      outcome.skipped.map (·.1) = ["b_return"] ∧
      Cascaded .bigQuery ⟨marginDocument⟩ "cost" outcome := by
  have haccepted : ofDocument marginDocument = .ok ⟨marginDocument⟩ := by decide +kernel
  obtain ⟨outcome, houtcome, hids⟩ := Except.exists_of_any
    (x := (⟨marginDocument⟩ : Registry).cascade .bigQuery "cost")
    (p := fun outcome => outcome.updated.map (·.id) == ["cost_per_click", "a_margin"] &&
      outcome.skipped.map (·.1) == ["b_return"]) (by decide +kernel)
  rw [Bool.and_eq_true, beq_iff_eq, beq_iff_eq] at hids
  exact ⟨outcome, houtcome, hids.1, hids.2, cascaded_of_cascade haccepted houtcome⟩

end Registry

end MetricLayer
