import MetricLayer.Proofs.Registry.Agreement
import MetricLayer.Proofs.Registry.Order
import MetricLayer.Registry.Edit

/-!
# Consistent registries

In a consistent registry every reference of a stored formula resolves, no
calculated metric rests on itself, and what a calculated metric was last compiled
to is what its formula compiles to now, if it compiles at all (`Consistent`). The
first two (`Sound`) do not look at stored compilations.

- `sound_of_compiles`: a registry whose formulas all compile is sound.
- `consistent_cascadeAndApply`: a cascade from `id` makes a sound registry
  consistent when only dependents of `id` were out of date.
-/

namespace MetricLayer

open Relation (ReflTransGen TransGen)

namespace CalculatedMetric

/-- The stored text and dependencies are those of `c`. -/
def Stores (m : CalculatedMetric) (c : CompiledFormula) : Prop :=
  m.compiledSql = c.sql ∧ m.dependsOnBase = c.dependsOnBase ∧
    m.dependsOnCalculated = c.dependsOnCalculated

@[simp] theorem withCompiled_id (m : CalculatedMetric) (c : CompiledFormula) :
    (m.withCompiled c).id = m.id := rfl

@[simp] theorem withCompiled_formula (m : CalculatedMetric) (c : CompiledFormula) :
    (m.withCompiled c).formula = m.formula := rfl

theorem stores_withCompiled (m : CalculatedMetric) (c : CompiledFormula) :
    (m.withCompiled c).Stores c := ⟨rfl, rfl, rfl⟩

end CalculatedMetric

namespace Registry

open DependencyGraph (ofRegistry)

/-- What the formula of `m` compiles to now, if it does, is what is stored. -/
def Fresh (d : Sql.Dialect) (r : Registry) (m : CalculatedMetric) : Prop :=
  ∀ c, r.compile d m.formula (some m.id) = .ok c → m.Stores c

/-- Every reference of a stored formula resolves, and no calculated metric rests
on itself. -/
structure Sound (r : Registry) : Prop extends r.WellFormed where
  resolves : ∀ m ∈ r.calculatedMetrics, ReadsOnly (fun n => (r.metric? n).isSome) m.formula
  acyclic : (ofRegistry r).Acyclic

structure Consistent (d : Sql.Dialect) (r : Registry) : Prop extends r.Sound where
  fresh : ∀ m ∈ r.calculatedMetrics, Fresh d r m

variable {d : Sql.Dialect} {r r' : Registry} {names : String → Prop} {id : String}

theorem fresh_withCompiled {m : CalculatedMetric} {c : CompiledFormula}
    (h : r.compile d m.formula (some m.id) = .ok c) : Fresh d r (m.withCompiled c) := by
  intro c' hc'
  obtain rfl : c = c' := Except.ok.inj (h.symm.trans hc')
  exact m.stores_withCompiled c

theorem fresh_congr (h : AgreeOn r r' names) (hr : r.WellFormed) {m : CalculatedMetric}
    (hformula : ReadsOnly names m.formula) (hm : Fresh d r m) : Fresh d r' m :=
  fun c hc => hm c (compile_congr h.symm hr hformula hc)

theorem ReadsOnly.mono {names' : String → Prop} {formula : String} (h : ReadsOnly names formula)
    (hsub : ∀ n, names n → names' n) : ReadsOnly names' formula := by
  obtain ⟨references, hext, hnames⟩ := h
  exact ⟨references, hext, fun x hx => hsub _ (hnames x hx)⟩

theorem ReadsOnly.of_referredIds {m : CalculatedMetric} {names' : String → Prop}
    (h : ReadsOnly names m.formula) (hsub : ∀ n ∈ m.referredIds, names' n) :
    ReadsOnly names' m.formula := by
  obtain ⟨references, hext, -⟩ := h
  exact ⟨references, hext, fun x hx => hsub _ ((mem_referredIds hext).2 ⟨x, hx, rfl⟩)⟩

theorem ReadsOnly.of_mem_referredIds {m : CalculatedMetric} (h : ReadsOnly names m.formula)
    (hid : id ∈ m.referredIds) : names id := by
  obtain ⟨references, hext, hnames⟩ := h
  obtain ⟨x, hx, rfl⟩ := (mem_referredIds hext).1 hid
  exact hnames x hx

/-! ## Registries whose formulas compile -/

/-- What a formula that compiles refers to resolves, or is the metric itself. -/
theorem readsOnly_of_compile {formula : String} {current : Option String} {c : CompiledFormula}
    (h : r.compile d formula current = .ok c) : ReadsOnly (r.Known current) formula := by
  obtain ⟨references, f, hc⟩ := compile_eq_ok_iff.1 h
  refine ⟨references, hc.extracted, fun x hx => hc.known _ ?_⟩
  simpa [uniqueNames] using ⟨x, hx, rfl⟩

/-- A formula that compiles refers to no calculated metric that rests on the
metric it is compiled for. -/
theorem not_dependsOn_of_compile {m : CalculatedMetric} {c : CompiledFormula} {name : String}
    (h : r.compile d m.formula (some m.id) = .ok c) (hname : name ∈ m.referredIds)
    (hbase : r.baseMetric? name = none) (hcalc : r.isCalculatedFor (some m.id) name) :
    ¬ ReflTransGen (ofRegistry r).DependsOn name m.id := by
  obtain ⟨references, f, hc⟩ := compile_eq_ok_iff.1 h
  obtain ⟨x, hx, rfl⟩ := (mem_referredIds hc.extracted).1 hname
  refine hc.noCycle _ rfl _ ?_
  rw [hc.calculated_eq, mem_classify_calculated]
  exact ⟨by simpa [uniqueNames] using ⟨x, hx, rfl⟩, hbase, hcalc⟩

theorem sound_of_compiles (h : r.WellFormed)
    (hcompiles : ∀ m ∈ r.calculatedMetrics, ∃ c, r.compile d m.formula (some m.id) = .ok c) :
    r.Sound where
  toWellFormed := h
  resolves m hm := by
    obtain ⟨c, hc⟩ := hcompiles m hm
    refine (readsOnly_of_compile hc).mono fun n hn => isSome_metric?_iff.2 ?_
    rcases hn with hn | hn | hn
    · exact .inl hn
    · rw [isCalculatedFor, Bool.or_eq_true] at hn
      rcases hn with hn | hn
      · exact .inr (.inl hn)
      · obtain rfl : m.id = n := by simpa using hn
        exact .inr (.inl (isSome_calculatedMetric?_iff.2 ⟨m, hm, rfl⟩))
    · exact .inr (.inr hn)
  acyclic id hcycle := by
    obtain ⟨b, hb, hchain⟩ := TransGen.head'_iff.1 hcycle
    obtain ⟨hrefers, hcalc⟩ := dependsOn_iff.1 hb
    obtain ⟨m, hm, rfl, hmem⟩ := refers_iff.1 hrefers
    obtain ⟨c, hc⟩ := hcompiles m hm
    obtain ⟨m', hm', rfl⟩ := isSome_calculatedMetric?_iff.1 hcalc
    refine not_dependsOn_of_compile hc hmem (h.baseMetric?_eq_none hm') ?_ hchain
    rw [isCalculatedFor, hcalc, Bool.true_or]

/-! ## Agreement keeps registries consistent -/

theorem ReadsOnly.and {names' : String → Prop} {formula : String} (h : ReadsOnly names formula)
    (h' : ReadsOnly names' formula) : ReadsOnly (fun n => names n ∧ names' n) formula := by
  obtain ⟨references, hext, hnames⟩ := h
  obtain ⟨references', hext', hnames'⟩ := h'
  obtain rfl := Except.ok.inj (hext.symm.trans hext')
  exact ⟨references, hext, fun x hx => ⟨hnames x hx, hnames' x hx⟩⟩

theorem AgreeOn.readsOnly (h : AgreeOn r r' names) (hr : r.WellFormed) {m : CalculatedMetric}
    (hm : m ∈ r.calculatedMetrics) (hid : names m.id) : ReadsOnly names m.formula :=
  h.closed _ hid m (hr.calculatedMetric?_eq_some_iff.2 ⟨hm, rfl⟩)

theorem acyclic_congr (h : AgreeOn r r' names) (hr' : r'.WellFormed)
    (hall : ∀ m ∈ r'.calculatedMetrics, names m.id) (hr : (ofRegistry r).Acyclic) :
    (ofRegistry r').Acyclic := by
  have hstep {a b : String} (hab : (ofRegistry r').DependsOn a b) : (ofRegistry r).DependsOn a b := by
    obtain ⟨m, hm, rfl, -⟩ := refers_iff.1 hab.refers
    exact (dependsOn_congr h.symm hr' (hall m hm) hab).2
  exact fun id hcycle => hr id (TransGen.mono (fun _ _ => hstep) _ _ hcycle)

theorem sound_congr (h : AgreeOn r r' names) (hr : r.Sound) (hr' : r'.WellFormed)
    (hall : ∀ m ∈ r'.calculatedMetrics, names m.id) : r'.Sound where
  toWellFormed := hr'
  resolves m' hm' := by
    have hm'? := hr'.calculatedMetric?_eq_some_iff.2 ⟨hm', rfl⟩
    obtain ⟨m, hm, hformula⟩ := h.symm.exists_right (hall m' hm') hm'?
    have hresolves := hr.resolves m (List.mem_of_find?_eq_some hm)
    rw [hformula] at hresolves
    exact (hresolves.and (h.symm.readsOnly hr' hm' (hall m' hm'))).mono
      fun n hn => (h.isSome_metric? hn.2).1 hn.1
  acyclic := acyclic_congr h hr' hall hr.acyclic

/-- The same metrics, but for what calculated metrics were last compiled to. -/
structure SameMetrics (r r' : Registry) : Prop where
  dateColumn : r.dateColumn = r'.dateColumn
  base : r.baseMetrics = r'.baseMetrics
  calculated : r.calculatedMetrics.map (fun m => (m.id, m.formula)) =
    r'.calculatedMetrics.map (fun m => (m.id, m.formula))

namespace SameMetrics

theorem refl (r : Registry) : r.SameMetrics r := ⟨rfl, rfl, rfl⟩

theorem trans {r'' : Registry} (h : r.SameMetrics r') (h' : r'.SameMetrics r'') :
    r.SameMetrics r'' :=
  ⟨h.dateColumn.trans h'.dateColumn, h.base.trans h'.base, h.calculated.trans h'.calculated⟩

theorem wellFormed (h : r.SameMetrics r') (hr : r.WellFormed) : r'.WellFormed := by
  have hids : r.calculatedMetrics.map (·.id) = r'.calculatedMetrics.map (·.id) := by
    simpa [List.map_map, Function.comp_def] using congrArg (List.map Prod.fst) h.calculated
  obtain ⟨hvalid, hnodup, hunreserved⟩ := hr
  rw [metricIds, h.base, hids] at hvalid hnodup hunreserved
  exact ⟨hvalid, hnodup, hunreserved⟩

theorem symm (h : r.SameMetrics r') : r'.SameMetrics r :=
  ⟨h.dateColumn.symm, h.base.symm, h.calculated.symm⟩

theorem baseMetric? (h : r.SameMetrics r') (n : String) : r.baseMetric? n = r'.baseMetric? n := by
  rw [Registry.baseMetric?, Registry.baseMetric?, h.base]

theorem formula? (h : r.SameMetrics r') (n : String) :
    (r.calculatedMetric? n).map (·.formula) = (r'.calculatedMetric? n).map (·.formula) := by
  have hfind (ms : List CalculatedMetric) : (ms.find? (·.id == n)).map (·.formula) =
      ((ms.map fun m => (m.id, m.formula)).find? (·.1 == n)).map Prod.snd := by
    rw [List.find?_map, Option.map_map]
    rfl
  rw [calculatedMetric?, calculatedMetric?, hfind, h.calculated, ← hfind]

theorem agreeOn (h : r.SameMetrics r') (hr : r.Sound) : AgreeOn r r' fun _ => True where
  dateColumn := h.dateColumn
  base _ _ := h.baseMetric? _
  formula _ _ := h.formula? _
  closed _ _ m hm := (hr.resolves m (List.mem_of_find?_eq_some hm)).mono fun _ _ => trivial

/-- Stored compilations may be exchanged for fresh ones. -/
theorem consistent (h : r.SameMetrics r') (hr : r.Sound)
    (hfresh : ∀ m ∈ r'.calculatedMetrics, Fresh d r m) : r'.Consistent d where
  toSound := sound_congr (h.agreeOn hr) hr (h.wellFormed hr.toWellFormed) fun _ _ => trivial
  fresh m hm := by
    have hr' := h.wellFormed hr.toWellFormed
    exact fresh_congr (h.agreeOn hr) hr.toWellFormed
      ((h.agreeOn hr).symm.readsOnly hr' hm trivial) (hfresh m hm)

end SameMetrics

/-! ## Cascades -/

/-- A calculated metric compiled again, if its formula compiles. -/
def recompiled? (r : Registry) (d : Sql.Dialect) (id : String) : Option CalculatedMetric :=
  (r.calculatedMetric? id).bind fun m =>
    match r.compile d m.formula (some id) with
    | .ok c => some (m.withCompiled c)
    | .error _ => none

/-- A calculated metric that does not compile, with the reason. -/
def failed? (r : Registry) (d : Sql.Dialect) (id : String) : Option (String × Error) :=
  (r.calculatedMetric? id).bind fun m =>
    match r.compile d m.formula (some id) with
    | .ok _ => none
    | .error e => some (id, e)

theorem recompiled?_eq_some_iff {u : CalculatedMetric} : r.recompiled? d id = some u ↔
    ∃ m c, r.calculatedMetric? id = some m ∧ r.compile d m.formula (some id) = .ok c ∧
      u = m.withCompiled c := by
  rw [recompiled?, Option.bind_eq_some_iff]
  refine exists_congr fun m => ?_
  cases r.compile d m.formula (some id) <;> simp [eq_comm]

theorem failed?_eq_some_iff {x : String} {e : Error} : r.failed? d id = some (x, e) ↔
    x = id ∧ ∃ m, r.calculatedMetric? id = some m ∧
      r.compile d m.formula (some id) = .error e := by
  rw [failed?, Option.bind_eq_some_iff, ← exists_and_left]
  refine exists_congr fun m => ?_
  cases r.compile d m.formula (some id) <;> simp [eq_comm, and_left_comm]

/-- Each metric of an order is compiled again by itself, whatever the others come to. -/
theorem foldl_recompile (order : List String) (outcome : CascadeOutcome) :
    order.foldl (r.recompile d) outcome =
      { updated := outcome.updated ++ order.filterMap (r.recompiled? d)
        skipped := outcome.skipped ++ order.filterMap (r.failed? d) } := by
  induction order generalizing outcome with
  | nil => simp
  | cons x rest ih =>
    rw [List.foldl_cons, ih, recompile, List.filterMap_cons, List.filterMap_cons, recompiled?,
      failed?]
    cases r.calculatedMetric? x with
    | none => rfl
    | some m => cases hc : r.compile d m.formula (some x) <;> simp [hc]

theorem mem_updated_foldl {order : List String} {outcome : CascadeOutcome} {u : CalculatedMetric} :
    u ∈ (order.foldl (r.recompile d) outcome).updated ↔ u ∈ outcome.updated ∨
      ∃ x ∈ order, ∃ m c, r.calculatedMetric? x = some m ∧
        r.compile d m.formula (some x) = .ok c ∧ u = m.withCompiled c := by
  simp only [foldl_recompile, List.mem_append, List.mem_filterMap, recompiled?_eq_some_iff]

theorem calculatedMetrics_putCalculated {u : CalculatedMetric} :
    (r.putCalculated u).calculatedMetrics =
      r.calculatedMetrics.map fun old => if old.id = u.id then u else old := by
  simp [putCalculated, calculatedMetrics]

theorem mem_putCalculated {m u : CalculatedMetric} :
    m ∈ (r.putCalculated u).calculatedMetrics ↔
      (m = u ∧ ∃ old ∈ r.calculatedMetrics, old.id = u.id) ∨
        (m ∈ r.calculatedMetrics ∧ m.id ≠ u.id) := by
  rw [calculatedMetrics_putCalculated, List.mem_map]
  constructor
  · rintro ⟨old, hold, rfl⟩
    split
    · rename_i h
      exact .inl ⟨rfl, old, hold, h⟩
    · rename_i h
      exact .inr ⟨hold, h⟩
  · rintro (⟨rfl, old, hold, h⟩ | ⟨hm, h⟩)
    · exact ⟨old, hold, if_pos h⟩
    · exact ⟨m, hm, if_neg h⟩

theorem mem_foldl_putCalculated {us : List CalculatedMetric} {m : CalculatedMetric}
    (h : m ∈ (us.foldl putCalculated r).calculatedMetrics) :
    m ∈ us ∨ m ∈ r.calculatedMetrics ∧ ∀ u ∈ us, m.id ≠ u.id := by
  induction us generalizing r with
  | nil => exact .inr ⟨h, by simp⟩
  | cons u rest ih =>
    rcases ih h with hmem | ⟨hmem, hne⟩
    · exact .inl (List.mem_cons_of_mem _ hmem)
    · rcases mem_putCalculated.1 hmem with ⟨rfl, -⟩ | ⟨hmem, hne'⟩
      · exact .inl List.mem_cons_self
      · exact .inr ⟨hmem, by simpa using ⟨hne', hne⟩⟩

/-- What the stored metrics have in common with those that they replace, all of
them do. -/
theorem map_putCalculated {α : Type} {f : CalculatedMetric → α} {u : CalculatedMetric}
    (h : ∀ m ∈ r.calculatedMetrics, m.id = u.id → f m = f u) :
    (r.putCalculated u).calculatedMetrics.map f = r.calculatedMetrics.map f := by
  rw [calculatedMetrics_putCalculated, List.map_map]
  refine List.map_congr_left fun m hm => ?_
  by_cases hid : m.id = u.id
  · simp [hid, h m hm hid]
  · simp [hid]

theorem map_foldl_putCalculated {α : Type} {f : CalculatedMetric → α} {us : List CalculatedMetric}
    (h : ∀ u ∈ us, ∀ m ∈ r.calculatedMetrics, m.id = u.id → f m = f u) :
    (us.foldl putCalculated r).calculatedMetrics.map f = r.calculatedMetrics.map f := by
  induction us generalizing r with
  | nil => rfl
  | cons u rest ih =>
    have hu := h u List.mem_cons_self
    refine (ih fun v hv m hm hid => ?_).trans (map_putCalculated hu)
    have hv := h v (List.mem_cons_of_mem _ hv)
    rcases mem_putCalculated.1 hm with ⟨rfl, old, hold, hold'⟩ | ⟨hm, -⟩
    · exact (hu old hold hold').symm.trans (hv old hold (hold'.trans hid))
    · exact hv m hm hid

/-- Storing calculated metrics leaves the rest of the registry as it is. -/
theorem foldl_putCalculated_eq (us : List CalculatedMetric) (r : Registry) :
    us.foldl putCalculated r =
      r.withCalculatedMetrics (us.foldl putCalculated r).calculatedMetrics := by
  induction us generalizing r with
  | nil => rfl
  | cons u rest ih => exact (ih (r.putCalculated u)).trans rfl

theorem sameMetrics_foldl_putCalculated {us : List CalculatedMetric}
    (h : ∀ u ∈ us, ∀ m ∈ r.calculatedMetrics, m.id = u.id → m.formula = u.formula) :
    r.SameMetrics (us.foldl putCalculated r) := by
  have hsame := map_foldl_putCalculated (f := fun m => (m.id, m.formula))
    fun u hu m hm hid => Prod.ext hid (h u hu m hm hid)
  have heq := foldl_putCalculated_eq us r
  exact ⟨by rw [heq]; rfl, by rw [heq]; rfl, hsame.symm⟩

theorem isSome_of_mem_transitiveDependents {x : String}
    (hx : x ∈ (ofRegistry r).transitiveDependents id) : (r.calculatedMetric? x).isSome := by
  obtain ⟨hne, hchain⟩ := DependencyGraph.mem_transitiveDependents.1 hx
  obtain ⟨b, hb, -⟩ := (ReflTransGen.cases_head hchain).resolve_left hne
  obtain ⟨m, hm, rfl, -⟩ := refers_iff.1 hb
  exact isSome_calculatedMetric?_iff.2 ⟨m, hm, rfl⟩

/-- Only calculated metrics are among the dependents of a metric, so that every
reference to one of them is a dependency. -/
theorem dependsOn_of_mem_transitiveDependents {x y : String}
    (hx : x ∈ (ofRegistry r).transitiveDependents id) (hyx : (ofRegistry r).Refers y x) :
    (ofRegistry r).DependsOn y x :=
  dependsOn_iff.2 ⟨hyx, isSome_of_mem_transitiveDependents hx⟩

/-- In a sound registry the dependents of a metric can be put in order. -/
theorem exists_order (hr : r.Sound) (id : String) :
    ∃ order, (ofRegistry r).topologicalOrder ((ofRegistry r).transitiveDependents id) = .ok order ∧
      ∀ x, x ∈ order ↔ x ∈ (ofRegistry r).transitiveDependents id := by
  have hsorted := (ofRegistry r).pairwise_transitiveDependents id
  have hkind : ∀ x ∈ (ofRegistry r).transitiveDependents id, ∀ y,
      (ofRegistry r).Refers y x → (ofRegistry r).DependsOn y x :=
    fun x hx y hyx => dependsOn_of_mem_transitiveDependents hx hyx
  obtain ⟨order, horder⟩ := DependencyGraph.topologicalOrder_of_acyclic hsorted hkind hr.acyclic
  exact ⟨order, horder, fun x =>
    (DependencyGraph.perm_of_topologicalOrder hsorted hkind horder).mem_iff⟩

/-- A cascade from `id` makes a sound registry consistent in which only
dependents of `id` are out of date. -/
theorem consistent_cascadeAndApply (hr : r.Sound)
    (hid : (r.baseMetric? id).isSome ∨ (r.calculatedMetric? id).isSome)
    (hfresh : ∀ m ∈ r.calculatedMetrics, m.id ∉ (ofRegistry r).transitiveDependents id →
      Fresh d r m) :
    (r.cascadeAndApply d id).2.Consistent d := by
  obtain ⟨order, horder, hmem⟩ := exists_order hr id
  have hcascade : r.cascade d id = .ok (order.foldl (r.recompile d) {}) := by
    have hknown : ((r.baseMetric? id).isNone && (r.calculatedMetric? id).isNone) = false := by
      rw [Bool.and_eq_false_iff, Option.isNone_eq_false_iff, Option.isNone_eq_false_iff]
      exact hid
    simp [cascade, hknown, horder, bind, Except.bind]
  have hupdated {u : CalculatedMetric} : u ∈ (order.foldl (r.recompile d) {}).updated ↔
      ∃ m ∈ r.calculatedMetrics, m.id ∈ order ∧ ∃ c,
        r.compile d m.formula (some m.id) = .ok c ∧ u = m.withCompiled c := by
    rw [mem_updated_foldl]
    simp only [List.not_mem_nil, false_or, hr.calculatedMetric?_eq_some_iff]
    constructor
    · rintro ⟨x, hx, m, c, ⟨hm, rfl⟩, hc, rfl⟩
      exact ⟨m, hm, hx, c, hc, rfl⟩
    · rintro ⟨m, hm, hx, c, hc, rfl⟩
      exact ⟨m.id, hx, m, c, ⟨hm, rfl⟩, hc, rfl⟩
  have hinj {m m' : CalculatedMetric} (hm : m ∈ r.calculatedMetrics)
      (hm' : m' ∈ r.calculatedMetrics) (heq : m.id = m'.id) : m = m' :=
    List.inj_on_of_nodup_map (List.nodup_append.1 hr.nodup).2.1 hm hm' heq
  simp only [cascadeAndApply, hcascade, bind, Except.bind, edit, applyCascade]
  refine (sameMetrics_foldl_putCalculated fun u hu m hm heq => ?_).consistent hr fun m hm => ?_
  · obtain ⟨m', hm', -, c, -, rfl⟩ := hupdated.1 hu
    rw [hinj hm hm' heq, CalculatedMetric.withCompiled_formula]
  · rcases mem_foldl_putCalculated hm with hu | ⟨hold, hne⟩
    · obtain ⟨m', hm', -, c, hc, rfl⟩ := hupdated.1 hu
      exact fresh_withCompiled hc
    · by_cases hx : m.id ∈ order
      · exact fun c hc => (hne (m.withCompiled c) (hupdated.2 ⟨m, hold, hx, c, hc, rfl⟩) rfl).elim
      · exact hfresh m hold fun h => hx ((hmem m.id).2 h)

end Registry

end MetricLayer
