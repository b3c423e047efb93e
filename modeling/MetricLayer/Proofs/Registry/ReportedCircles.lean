import MetricLayer.Proofs.Formula.Circles
import MetricLayer.Proofs.Registry.Atomicity
import MetricLayer.Proofs.Registry.Cascades
import MetricLayer.Proofs.Registry.LeastOrder

/-!
# Circles that errors report

A formula that leads to a circle is refused with a walk: each id depends on the
next one, and the last has come before (`ClosesLoop`, `closesLoop_of_compile`). This
holds of the path that the graph finds and of the stack on which references are
expanded.

A cascade that finds no order among the dependents of a metric reports all those that
lie on a circle or lead to one, sorted and once each (`LeftOver`). Such a list never
comes back to an id, so that it is no walk around a circle.
-/

namespace MetricLayer

open Relation (ReflTransGen TransGen)

/-- A walk along `step` whose end has come before. -/
structure ClosesLoop (step : String → String → Prop) (ids : List String) : Prop where
  edges : ids.IsChain step
  returns : ∃ last, ids.getLast? = some last ∧ last ∈ ids.dropLast

theorem not_closesLoop_of_nodup {step : String → String → Prop} {ids : List String}
    (h : ids.Nodup) : ¬ ClosesLoop step ids := by
  rintro ⟨-, last, hlast, hmem⟩
  rw [← List.dropLast_append_getLast? last hlast] at h
  exact (List.nodup_append.1 h).2.2 last hmem last (List.mem_singleton_self last) rfl

namespace Registry

open DependencyGraph (ofRegistry ClosedBy)

variable {r : Registry} {d : Sql.Dialect} {current : Option String} {names ids : List String}

/-- A direct dependency of calculated metrics, `names` being what the formula of
`current` refers to. -/
def DependsGiven (r : Registry) (current : Option String) (names : List String) (a b : String) :
    Prop :=
  if current = some a then
    b ∈ names ∧ r.baseMetric? b = none ∧ r.isCalculatedFor current b = true
  else (ofRegistry r).DependsOn a b

/-! ## The path that the graph finds -/

/-- The edges of a cycle that new dependencies close are those of the graph, but for the
first. -/
theorem closesLoop_of_closedBy {id : String}
    (h : ClosedBy (ofRegistry r) id (r.classify (some id) names).2.1 ids) :
    ClosesLoop (r.DependsGiven (some id) names) ids := by
  obtain ⟨hfirst, hlast, ⟨b, hb, hsecond⟩, hedges, hnodup⟩ := h
  obtain ⟨path, rfl⟩ : ∃ path, ids = id :: path := ⟨ids.tail, (List.cons_head?_tail hfirst).symm⟩
  rw [List.tail_cons] at hsecond hedges
  have hne : path ≠ [] := fun hnil => by simp [hnil] at hsecond
  rw [List.dropLast_cons_of_ne_nil hne, List.nodup_cons] at hnodup
  refine ⟨List.isChain_cons.2 ⟨fun y hy => ?_, ?_⟩, id, hlast, ?_⟩
  · obtain rfl : y = b := Option.some.inj (hy.symm.trans hsecond)
    rw [DependsGiven, if_pos rfl]
    exact mem_classify_calculated.1 hb
  · -- only the end of the path is `id` again
    rw [List.isChain_iff_getElem] at hedges ⊢
    intro i hi
    have hmem : path[i] ∈ path.dropLast := by
      rw [List.mem_iff_getElem]
      exact ⟨i, by rw [List.length_dropLast]; omega, by simp⟩
    have hother : path[i] ≠ id := fun heq => hnodup.1 (heq ▸ hmem)
    rw [DependsGiven, if_neg fun heq => hother (Option.some.inj heq).symm]
    exact hedges i hi
  · rw [List.dropLast_cons_of_ne_nil hne]
    exact List.mem_cons_self

/-! ## The stack of metrics under expansion -/

/-- A reference that does not expand because of a circle reports a walk: down the stack,
and on to a metric that is already there. -/
theorem closesLoop_of_expand (hr : r.WellFormed) {visiting : List String} {name : String}
    (hcurrent : ∀ id, current = some id → id ∈ visiting)
    (hchain : (r.calculatedMetric? name).isSome →
      (visiting ++ [name]).IsChain (r.DependsGiven current names))
    (h : r.expand visiting name = .error (.circularDependency ids)) :
    ClosesLoop (r.DependsGiven current names) ids := by
  induction visiting, name using expand.induct r generalizing ids with
  | case1 visiting name b hbase =>
    rw [expand_of_base hbase] at h
    cases h
  | case2 visiting name hbase m hcalc hv =>
    rw [List.contains_iff_mem] at hv
    rw [expand_of_visiting hbase hcalc hv] at h
    obtain rfl := Error.circularDependency.inj (Except.error.inj h)
    exact ⟨hchain (by simp [hcalc]), name, by simp, by simpa using hv⟩
  | case3 visiting name hbase m hcalc hv _ ih =>
    obtain ⟨hm, rfl⟩ := hr.calculatedMetric?_eq_some_iff.1 hcalc
    rw [List.contains_iff_mem] at hv
    rw [expand_of_calculated hbase hcalc hv] at h
    obtain h | ⟨f, hread, h⟩ := Except.bind_eq_error.1 h
    · simp [Except.mapError_eq_error] at h
    obtain h | ⟨_, -, h⟩ := Except.bind_eq_error.1 h <;> [skip; cases h]
    rw [Except.mapError_eq_ok] at hread
    obtain ⟨b, hb, hfails⟩ := (Formula.exists_or_of_lower_eq_error f h).resolve_right
      fun hfault => Bool.false_ne_true hfault.2
    refine ih b (fun id hid => List.mem_append_left _ (hcurrent id hid)) (fun hbcalc => ?_) hfails
    have hedge : r.DependsGiven current names m.id b := by
      rw [DependsGiven, if_neg fun heq => hv (hcurrent m.id heq)]
      exact dependsOn_iff.2 ⟨(refers_iff_of_read hr hm hread).2 hb, hbcalc⟩
    refine List.isChain_append.2 ⟨hchain (by simp [hcalc]), .singleton b, fun x hx y hy => ?_⟩
    obtain rfl : m.id = x := by simpa using hx
    obtain rfl : b = y := by simpa using hy
    exact hedge
  | case4 visiting name hbase hcalc s hsystem =>
    rw [expand_of_none hbase hcalc, hsystem] at h
    cases h
  | case5 visiting name hbase hcalc hsystem =>
    rw [expand_of_none hbase hcalc, hsystem] at h
    cases h

/-! ## Compiling -/

/-- Compiling reports a circle that the graph finds, or one that expanding a reference
comes to. -/
theorem compile_eq_circular {formula : String}
    (h : r.compile d formula current = .error (.circularDependency ids)) :
    ∃ references, extractReferences formula = .ok references ∧
      (r.cycle? current (uniqueNames references) = some ids ∨
        ∃ f, Formula.read formula = .ok f ∧
          f.lower (r.expand current.toList) = .error (.circularDependency ids)) := by
  rw [compile] at h
  obtain h | ⟨references, hextract, h⟩ := Except.bind_eq_error.1 h
  · simp [Except.mapError_eq_error] at h
  refine ⟨references, Except.mapError_eq_ok.1 hextract, ?_⟩
  dsimp only at h
  split at h <;> [cases h; skip]
  split at h
  · rename_i cycle hcycle
    obtain rfl := Error.circularDependency.inj (Except.error.inj h)
    exact .inl hcycle
  obtain h | ⟨f, hread, h⟩ := Except.bind_eq_error.1 h
  · simp [Except.mapError_eq_error] at h
  obtain h | ⟨expr, -, h⟩ := Except.bind_eq_error.1 h
  · exact .inr ⟨f, Except.mapError_eq_ok.1 hread, h⟩
  obtain h | ⟨_, -, h⟩ := Except.bind_eq_error.1 h
  · simp [Except.mapError_eq_error] at h
  · cases h

theorem closesLoop_of_compile (hr : r.WellFormed) {formula : String}
    (h : r.compile d formula current = .error (.circularDependency ids)) :
    ∃ references, extractReferences formula = .ok references ∧
      ClosesLoop (r.DependsGiven current (uniqueNames references)) ids := by
  obtain ⟨references, hextract, hcycle | ⟨f, hread, hlower⟩⟩ := compile_eq_circular h
  · refine ⟨references, hextract, ?_⟩
    cases current with
    | none => cases hcycle
    | some id => exact closesLoop_of_closedBy (DependencyGraph.closedBy_of_cycleThrough? hcycle)
  · obtain ⟨b, hb, hfails⟩ := (Formula.exists_or_of_lower_eq_error f hlower).resolve_right
      fun hfault => Bool.false_ne_true hfault.2
    refine ⟨references, hextract, closesLoop_of_expand hr (by simp) (fun hbcalc => ?_) hfails⟩
    cases current with
    | none => exact .singleton b
    | some id =>
      refine List.isChain_pair.2 ?_
      obtain ⟨m, hm, rfl⟩ := isSome_calculatedMetric?_iff.1 hbcalc
      obtain ⟨references', hextract', hnames⟩ := Formula.extractReferences_of_read hread
      obtain rfl := Except.ok.inj (hextract.symm.trans hextract')
      rw [DependsGiven, if_pos rfl, uniqueNames, List.mem_eraseDups, hnames]
      exact ⟨hb, hr.baseMetric?_eq_none hm, by rw [isCalculatedFor, hbcalc, Bool.true_or]⟩

/-! ## Cascades -/

/-- The dependents of `id` that lie on a circle of dependents or lead to one, in order. -/
structure LeftOver (r : Registry) (id : String) (ids : List String) : Prop where
  ne_nil : ids ≠ []
  sorted : ids.Pairwise (· < ·)
  mem : ∀ x, x ∈ ids ↔ ∃ y,
    ReflTransGen ((ofRegistry r).DependsOnIn ((ofRegistry r).transitiveDependents id)) x y ∧
      TransGen ((ofRegistry r).DependsOnIn ((ofRegistry r).transitiveDependents id)) y y

theorem LeftOver.not_closesLoop {id : String} (h : LeftOver r id ids)
    (step : String → String → Prop) : ¬ ClosesLoop step ids :=
  not_closesLoop_of_nodup (nodup_of_pairwise_lt h.sorted)

/-- A cascade reports a circle only when the dependents have no order, and then what is
left over. -/
theorem leftOver_of_cascade {id : String}
    (h : r.cascade d id = .error (.circularDependency ids)) : LeftOver r id ids := by
  rw [cascade] at h
  split at h <;> [cases h; skip]
  obtain h | ⟨_, -, h⟩ := Except.bind_eq_error.1 h <;> [skip; cases h]
  have hsorted := (ofRegistry r).pairwise_transitiveDependents id
  have hkind : ∀ x ∈ (ofRegistry r).transitiveDependents id, ∀ y,
      (ofRegistry r).Refers y x → (ofRegistry r).DependsOn y x :=
    fun x hx y hyx => dependsOn_of_mem_transitiveDependents hx hyx
  obtain ⟨left, he, hleft, hmem⟩ :=
    DependencyGraph.exists_of_topologicalOrder_error hsorted hkind h
  obtain rfl := Error.circularDependency.inj he
  have hmem (x : String) := (hmem x).trans DependencyGraph.not_acc_iff
  refine ⟨fun hnil => ?_, hleft, hmem⟩
  have horder := (DependencyGraph.exists_topologicalOrder_iff hsorted hkind).2 fun x hcycle => by
    have hx := (hmem x).2 ⟨x, .refl, hcycle⟩
    simp [hnil] at hx
  obtain ⟨order, horder⟩ := horder
  cases horder.symm.trans h

/-! ## Operations -/

/-- The errors of a cascade: the one it fails with, or else those of the metrics that it
leaves out. -/
def Edited.reported : Edited CascadeOutcome → List Error
  | (.error e, _) => [e]
  | (.ok outcome, _) => outcome.skipped.map (·.2)

/-- The errors that an operation answers or lists. -/
def Operation.reported (d : Sql.Dialect) (r : Registry) : Operation → List Error
  | .updateBaseMetric m => (r.updateBaseMetric d m).reported
  | .updateCalculatedMetric m => (r.updateCalculatedMetric d m).reported
  | .cascade id => (r.cascadeAndApply d id).reported
  | .validateAll => (r.validateAll d).1.map (·.2)
  | op => (op.error? d r).toList

/-- The operation has a cascade run from `id` on `r'`, which is the registry before with the
new definition of `id`, if there is one. -/
def Operation.Cascades (d : Sql.Dialect) (r : Registry) (op : Operation) (id : String)
    (r' : Registry) : Prop :=
  op = .cascade id ∧ r' = r ∨ op.Replaces d r id r'

theorem Operation.Cascades.wellFormed {op : Operation} {id : String} {r' : Registry}
    (h : op.Cascades d r id r') (hr : r.WellFormed) : r'.WellFormed := by
  obtain ⟨-, rfl⟩ | h := h
  · exact hr
  · cases h with
    | base valid known => exact hr.of_sublist (metricIds_putBase r _ ▸ List.Sublist.refl _)
    | calculated known compiles =>
      exact hr.of_sublist (metricIds_putCalculated r _ ▸ List.Sublist.refl _)

/-- A formula is refused with the error. -/
def Refuses (d : Sql.Dialect) (r : Registry) (e : Error) : Prop :=
  ∃ m : CalculatedMetric, r.compile d m.formula (some m.id) = .error e

theorem reported_cascadeAndApply {id : String} {e : Error}
    (h : e ∈ (r.cascadeAndApply d id).reported) : r.cascade d id = .error e ∨ Refuses d r e := by
  cases hc : r.cascade d id with
  | error e' =>
    have hfails : r.cascadeAndApply d id = (.error e', r) := by
      simp [cascadeAndApply, hc, bind, Except.bind, edit]
    rw [hfails] at h
    exact .inl (congrArg _ (List.mem_singleton.1 h).symm)
  | ok outcome =>
    have hruns : r.cascadeAndApply d id = (.ok outcome, r.applyCascade outcome) := by
      simp [cascadeAndApply, hc, bind, Except.bind, edit]
    rw [hruns] at h
    obtain ⟨⟨x, e'⟩, hskipped, rfl⟩ := List.mem_map.1 h
    obtain ⟨order, -, -, hfailed⟩ := cascade_eq_ok hc
    rw [hfailed] at hskipped
    obtain ⟨y, -, hy⟩ := List.mem_filterMap.1 hskipped
    obtain ⟨rfl, m, hm, hfails⟩ := failed?_eq_some_iff.1 hy
    exact .inr ⟨m, id_of_calculatedMetric? hm ▸ hfails⟩

/-- An expression over one row refers to no metrics. -/
theorem rowExpression_ne_circular {expression : String} :
    RowExpression.compile d expression ≠ .error (.circularDependency ids) := by
  intro h
  rw [RowExpression.compile] at h
  split at h <;> [cases h; skip]
  simp only [bind, Except.bind_eq_error, Except.mapError_eq_error] at h
  obtain ⟨_, -, h⟩ | ⟨_, -, ⟨_, -, h⟩ | ⟨_, -, h⟩⟩ := h
  · cases h
  · cases h
  · split at h <;> cases h

theorem reported_updateBaseMetric {m : BaseMetric}
    (h : .circularDependency ids ∈ (r.updateBaseMetric d m).reported) :
    ∃ r', Operation.Cascades d r (.updateBaseMetric m) m.id r' ∧
      (r'.cascade d m.id = .error (.circularDependency ids) ∨
        Refuses d r' (.circularDependency ids)) := by
  rw [updateBaseMetric] at h
  split at h
  · simp [Edited.reported] at h
  · rename_i hvalid
    split at h
    · simp [Edited.reported, Error.unknown] at h
    · rename_i hknown
      have hknown : (r.baseMetric? m.id).isSome = true := by
        simpa [Option.isSome_iff_ne_none] using hknown
      exact ⟨r.putBase m, .inr (.base hvalid hknown), reported_cascadeAndApply h⟩

theorem reported_updateCalculatedMetric {m : CalculatedMetric}
    (h : .circularDependency ids ∈ (r.updateCalculatedMetric d m).reported) :
    Refuses d r (.circularDependency ids) ∨
      ∃ r', Operation.Cascades d r (.updateCalculatedMetric m) m.id r' ∧
        (r'.cascade d m.id = .error (.circularDependency ids) ∨
          Refuses d r' (.circularDependency ids)) := by
  rw [updateCalculatedMetric] at h
  split at h
  · simp [Edited.reported, Error.unknown] at h
  · rename_i hknown
    split at h
    · rename_i e hfails
      obtain rfl := List.mem_singleton.1 h
      exact .inl ⟨m, hfails⟩
    · rename_i c hc
      have hknown : (r.calculatedMetric? m.id).isSome = true := by
        simpa [Option.isSome_iff_ne_none] using hknown
      exact .inr ⟨r.putCalculated (m.withCompiled c), .inr (.calculated hknown hc),
        reported_cascadeAndApply h⟩

/-- Validation lists a circle only for the formula of a metric. -/
theorem reported_validateAll (h : .circularDependency ids ∈ (r.validateAll d).1.map (·.2)) :
    Refuses d r (.circularDependency ids) := by
  simp only [validateAll, List.map_append, List.mem_append, List.mem_map, List.mem_filterMap] at h
  rcases h with ⟨⟨x, e⟩, ⟨_, ⟨m, -, rfl⟩, hfails⟩, rfl⟩ | ⟨⟨x, e⟩, ⟨_, ⟨dim, -, rfl⟩, hfails⟩, rfl⟩
  · rw [revalidateMetric] at hfails
    split at hfails <;> [cases hfails; skip]
    rename_i e' he
    obtain rfl := congrArg Prod.snd (Option.some.inj hfails)
    exact ⟨m, he⟩
  · rw [revalidateDimension] at hfails
    split at hfails <;> [cases hfails; skip]
    rename_i e' he
    obtain rfl := congrArg Prod.snd (Option.some.inj hfails)
    exact absurd he rowExpression_ne_circular

/-- An operation that reports a circle comes to it by compiling a formula, or by a
cascade. -/
theorem circular_of_reported {op : Operation}
    (h : .circularDependency ids ∈ op.reported d r) :
    Refuses d r (.circularDependency ids) ∨
      ∃ id r', op.Cascades d r id r' ∧
        (r'.cascade d id = .error (.circularDependency ids) ∨
          Refuses d r' (.circularDependency ids)) := by
  cases op with
  | addBaseMetric m =>
    have h := (edit_of_error (Option.mem_toList.1 h)).1
    simp only [bind, Except.bind_eq_error, Except.mapError_eq_error, ensureMetricFree] at h
    grind
  | updateBaseMetric m => exact .inr ⟨m.id, reported_updateBaseMetric h⟩
  | addCalculatedMetric m =>
    have h := (edit_of_error (Option.mem_toList.1 h)).1
    simp only [bind, Except.bind_eq_error, checkId, ensureMetricFree] at h
    grind [Refuses]
  | updateCalculatedMetric m =>
    exact (reported_updateCalculatedMetric h).imp_right fun hcascades => ⟨m.id, hcascades⟩
  | removeMetric id =>
    have h := (edit_of_error (Option.mem_toList.1 h)).1
    grind [Error.unknown]
  | addDimension dim =>
    have h := (edit_of_error (Option.mem_toList.1 h)).1
    simp only [bind, Except.bind_eq_error, checkId, ensureDimensionFree] at h
    grind
  | addCalculatedDimension dim =>
    have h := (edit_of_error (Option.mem_toList.1 h)).1
    simp only [bind, Except.bind_eq_error, checkId, ensureDimensionFree] at h
    grind [rowExpression_ne_circular]
  | removeDimension id =>
    have h := (edit_of_error (Option.mem_toList.1 h)).1
    grind [Error.unknown]
  | validateAll => exact .inl (reported_validateAll h)
  | cascade id => exact .inr ⟨id, r, .inl ⟨rfl, rfl⟩, reported_cascadeAndApply h⟩

/-- What errors report as a circle: of a formula a walk that closes a loop, and of a cascade
all that is left over, which is no walk of this kind. Operations report the one or the other. -/
theorem circular_errors {document : SchemaDocument} (accepted : ofDocument document = .ok r)
    (d : Sql.Dialect) :
    (∀ formula current ids, r.compile d formula current = .error (.circularDependency ids) →
      ∃ references, extractReferences formula = .ok references ∧
        ClosesLoop (r.DependsGiven current (uniqueNames references)) ids) ∧
    (∀ id ids, r.cascade d id = .error (.circularDependency ids) →
      LeftOver r id ids ∧ ∀ step, ¬ ClosesLoop step ids) ∧
    ∀ op ids, .circularDependency ids ∈ Operation.reported d r op →
      ∃ r', (r' = r ∨ ∃ id, op.Cascades d r id r') ∧
        ((∃ (m : CalculatedMetric) (references : List Reference),
            r'.compile d m.formula (some m.id) = .error (.circularDependency ids) ∧
            extractReferences m.formula = .ok references ∧
            ClosesLoop (r'.DependsGiven (some m.id) (uniqueNames references)) ids) ∨
          ∃ id, op.Cascades d r id r' ∧ r'.cascade d id = .error (.circularDependency ids) ∧
            LeftOver r' id ids ∧ ∀ step, ¬ ClosesLoop step ids) := by
  have hr := wellFormed_ofDocument accepted
  have hrefuses {r' : Registry} (hr' : r'.WellFormed) {ids : List String}
      (h : Refuses d r' (.circularDependency ids)) :
      ∃ (m : CalculatedMetric) (references : List Reference),
        r'.compile d m.formula (some m.id) = .error (.circularDependency ids) ∧
        extractReferences m.formula = .ok references ∧
        ClosesLoop (r'.DependsGiven (some m.id) (uniqueNames references)) ids := by
    obtain ⟨m, hfails⟩ := h
    obtain ⟨references, hextract, hloop⟩ := closesLoop_of_compile hr' hfails
    exact ⟨m, references, hfails, hextract, hloop⟩
  refine ⟨fun formula current ids h => closesLoop_of_compile hr h, fun id ids h => ?_,
    fun op ids h => ?_⟩
  · have hleft := leftOver_of_cascade h
    exact ⟨hleft, hleft.not_closesLoop⟩
  · obtain hfails | ⟨id, r', hop, hcascade | hfails⟩ := circular_of_reported h
    · exact ⟨r, .inl rfl, .inl (hrefuses hr hfails)⟩
    · have hleft := leftOver_of_cascade hcascade
      exact ⟨r', .inr ⟨id, hop⟩, .inr ⟨id, hop, hcascade, hleft, hleft.not_closesLoop⟩⟩
    · exact ⟨r', .inr ⟨id, hop⟩, .inl (hrefuses (hop.wellFormed hr) hfails)⟩

/-- The metrics `a` and `b` refer to each other, and `c` to `a`. All of them rest on
`sales`. -/
def twinDocument : SchemaDocument where
  table := "sales"
  sourceTable := "raw.sales"
  baseMetrics := [{ id := "sales", sourceColumns := ["amount"], aggregation := .sum }]
  calculatedMetrics := [{ id := "a", formula := "{b} + {sales}" }, { id := "b", formula := "{a}" },
    { id := "c", formula := "{a} * 2" }]

theorem circular_errors_twins :
    let r : Registry := ⟨twinDocument⟩
    (∃ references, extractReferences "{c} + 1" = .ok references ∧
      ClosesLoop (r.DependsGiven none (uniqueNames references)) ["c", "a", "b", "a"]) ∧
    (LeftOver r "sales" ["a", "b", "c"] ∧ ∀ step, ¬ ClosesLoop step ["a", "b", "c"]) ∧
    .circularDependency ["a", "b", "a"] ∈ Operation.reported .bigQuery r .validateAll := by
  intro r
  have accepted : ofDocument twinDocument = .ok r := by decide +kernel
  have hcompile : r.compile .bigQuery "{c} + 1" none =
      .error (.circularDependency ["c", "a", "b", "a"]) :=
    Except.error?_eq_some.1 (by decide +kernel)
  have hcascade : r.cascade .bigQuery "sales" = .error (.circularDependency ["a", "b", "c"]) :=
    Except.error?_eq_some.1 (by decide +kernel)
  obtain ⟨hwalks, hcascades, -⟩ := circular_errors accepted .bigQuery
  exact ⟨hwalks _ none _ hcompile, hcascades _ _ hcascade, by decide +kernel⟩

/-- The cascade from `sales` reports `b` and then `c`, on which `b` does not rest, and ends
with an id that has not come before. -/
theorem exists_circular_not_loop :
    ∃ document r, ofDocument document = .ok r ∧ ∃ id ids,
      r.cascade .bigQuery id = .error (.circularDependency ids) ∧
        ¬ ids.IsChain (ofRegistry r).DependsOn ∧
        ¬ ∃ last, ids.getLast? = some last ∧ last ∈ ids.dropLast := by
  have accepted : ofDocument twinDocument = .ok ⟨twinDocument⟩ := by decide +kernel
  refine ⟨twinDocument, ⟨twinDocument⟩, accepted, "sales", ["a", "b", "c"],
    Except.error?_eq_some.1 (by decide +kernel), fun hedges => ?_, by simp⟩
  have hbc : ¬ (ofRegistry ⟨twinDocument⟩).DependsOn "b" "c" := by
    unfold DependencyGraph.DependsOn
    decide +kernel
  simp [hbc] at hedges

end Registry

end MetricLayer
