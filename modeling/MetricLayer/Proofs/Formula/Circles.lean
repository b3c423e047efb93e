import MetricLayer.Proofs.Formula.Meaning
import MetricLayer.Proofs.Formula.Stack
import MetricLayer.Proofs.Registry.Editing

/-!
# Circles of references

What a reference that is expanded leads to is known and lies on no circle
(`Registry.clear_of_expand`). Conversely a reference that leads to nothing but
proper formulas (`Registry.Proper`) fails to expand only because it leads to a
circle or to what is under expansion, and the error says so
(`Registry.circular_of_expand`).

A formula of the metric `current` is checked twice: the graph tells whether one of
its references leads back to `current` (`Registry.isSome_cycle?_iff`), and the stack
catches the circles that do not run through it. Together they catch every circle
(`Registry.compile_circular`).
-/

namespace MetricLayer

open Relation (ReflTransGen TransGen reflTransGen_iff_eq_or_transGen)
open Sql (Expr)

/-- The error is about a call in a formula. -/
def Error.refusesCall : Error → Bool
  | .functionNotAllowed _ | .wrongArity _ _ _ => true
  | _ => false

namespace Formula

mutual

/-- All functions that are called are allowed, with as many arguments as they take. -/
def callsAllowed : Formula → Bool
  | .reference _ | .number _ | .literal _ => true
  | .negate f | .group f => f.callsAllowed
  | .binary _ l r => l.callsAllowed && r.callsAllowed
  | .call name arguments =>
    (Sql.Function.ofFormulaName? name).any (·.arity.admits arguments.length) &&
      allCallsAllowed arguments

def allCallsAllowed : List Formula → Bool
  | [] => true
  | f :: rest => f.callsAllowed && allCallsAllowed rest

end

variable {resolve : String → Except Error Expr} {e : Error}

mutual

/-- A formula is not lowered because one of its references is not resolved, or else for a
fault of its own. -/
theorem exists_or_of_lower_eq_error : (f : Formula) → f.lower resolve = .error e →
    (∃ name ∈ f.references, resolve name = .error e) ∨
      f.callsAllowed = false ∧ e.refusesCall = true
  | .reference name, h => .inl ⟨name, by simp [references], h⟩
  | .negate f, h | .group f, h => by
    simp only [lower, bind, Except.bind_eq_error] at h
    rcases h with h | ⟨_, -, h⟩
    · exact exists_or_of_lower_eq_error f h
    · cases h
  | .binary _ l r, h => by
    simp only [lower, bind, Except.bind_eq_error] at h
    simp only [references, List.mem_append]
    rcases h with h | ⟨_, -, h | ⟨_, -, h⟩⟩
    · rcases exists_or_of_lower_eq_error l h with ⟨name, hname, h⟩ | ⟨hcalls, he⟩
      · exact .inl ⟨name, .inl hname, h⟩
      · exact .inr ⟨by simp [callsAllowed, hcalls], he⟩
    · rcases exists_or_of_lower_eq_error r h with ⟨name, hname, h⟩ | ⟨hcalls, he⟩
      · exact .inl ⟨name, .inr hname, h⟩
      · exact .inr ⟨by simp [callsAllowed, hcalls], he⟩
    · cases h
  | .call name arguments, h => by
    rw [lower] at h
    split at h
    · rename_i hf
      obtain rfl := Except.error.inj h
      exact .inr ⟨by simp [callsAllowed, hf], rfl⟩
    · rename_i f hf
      split at h
      · simp only [bind, Except.bind_eq_error] at h
        rcases h with h | ⟨_, -, h⟩
        · rcases exists_or_of_lowerAll_eq_error arguments h with hname | ⟨hcalls, he⟩
          · exact .inl hname
          · exact .inr ⟨by simp [callsAllowed, hcalls], he⟩
        · cases h
      · rename_i harity
        obtain rfl := Except.error.inj h
        exact .inr ⟨by simp [callsAllowed, hf, harity], rfl⟩

theorem exists_or_of_lowerAll_eq_error : (fs : List Formula) → lowerAll resolve fs = .error e →
    (∃ name ∈ referencesOf fs, resolve name = .error e) ∨
      allCallsAllowed fs = false ∧ e.refusesCall = true
  | f :: rest, h => by
    simp only [lowerAll, bind, Except.bind_eq_error] at h
    simp only [referencesOf, List.mem_append]
    rcases h with h | ⟨_, -, h | ⟨_, -, h⟩⟩
    · rcases exists_or_of_lower_eq_error f h with ⟨name, hname, h⟩ | ⟨hcalls, he⟩
      · exact .inl ⟨name, .inl hname, h⟩
      · exact .inr ⟨by simp [allCallsAllowed, hcalls], he⟩
    · rcases exists_or_of_lowerAll_eq_error rest h with ⟨name, hname, h⟩ | ⟨hcalls, he⟩
      · exact .inl ⟨name, .inr hname, h⟩
      · exact .inr ⟨by simp [allCallsAllowed, hcalls], he⟩
    · cases h

end

/-- Where all calls are allowed, a formula is not lowered only because one of its
references is not resolved. -/
theorem exists_of_lower_eq_error (f : Formula) (hcalls : f.callsAllowed = true)
    (h : f.lower resolve = .error e) : ∃ name ∈ f.references, resolve name = .error e :=
  (exists_or_of_lower_eq_error f h).resolve_right fun hfault =>
    Bool.false_ne_true (hfault.1.symm.trans hcalls)

end Formula

namespace Registry

open DependencyGraph (ofRegistry)

variable {r : Registry} {visiting : List String} {name x : String} {current : Option String}
  {f : Formula}

/-- A chain of references that ends at a calculated metric is one of dependencies. -/
theorem transGen_dependsOn_of_refers {a b : String} (h : TransGen (ofRegistry r).Refers a b)
    (hb : (r.calculatedMetric? b).isSome) : TransGen (ofRegistry r).DependsOn a b := by
  obtain ⟨y, hay, hyb⟩ := TransGen.tail'_iff.1 h
  obtain ⟨m, hm, hid, -⟩ := refers_iff.1 hyb
  have hy := dependsOn_of_refers hay (isSome_calculatedMetric?_iff.2 ⟨m, hm, hid⟩)
  exact .tail' hy (dependsOn_iff.2 ⟨hyb, hb⟩)

/-- A metric that is known, is not under expansion and lies on no circle. -/
structure Clear (r : Registry) (visiting : List String) (x : String) : Prop where
  known : (r.metric? x).isSome
  notOpen : (r.calculatedMetric? x).isSome → x ∉ visiting
  acyclic : ¬ TransGen (ofRegistry r).DependsOn x x

/-- Only a calculated metric leads to others. -/
theorem eq_of_reaches_of_none (hname : r.calculatedMetric? name = none)
    (h : ReflTransGen (ofRegistry r).Refers name x) : x = name := by
  rcases reflTransGen_iff_eq_or_transGen.1 h with heq | h
  · exact heq
  · obtain ⟨y, hy, -⟩ := TransGen.head'_iff.1 h
    obtain ⟨m, hm, hid, -⟩ := refers_iff.1 hy
    have := isSome_calculatedMetric?_iff.2 ⟨m, hm, hid⟩
    simp [hname] at this

theorem clear_of_none (hname : r.calculatedMetric? name = none) (hknown : (r.metric? name).isSome)
    (hx : ReflTransGen (ofRegistry r).Refers name x) : Clear r visiting x := by
  obtain rfl := eq_of_reaches_of_none hname hx
  refine ⟨hknown, by simp [hname], fun hcycle => ?_⟩
  obtain ⟨y, -, hy⟩ := TransGen.tail'_iff.1 hcycle
  have hcalc := (dependsOn_iff.1 hy).2
  simp [hname] at hcalc

/-- What a reference that is expanded leads to is clear. -/
theorem clear_of_expand (hr : r.WellFormed) {e : Expr} (h : r.expand visiting name = .ok e)
    (hx : ReflTransGen (ofRegistry r).Refers name x) : Clear r visiting x := by
  induction visiting, name using expand.induct r generalizing e x with
  | case1 visiting name b hbase =>
    exact clear_of_none (hr.calculatedMetric?_eq_none hbase)
      (isSome_metric?_iff.2 (.inl (by rw [hbase]; rfl))) hx
  | case2 visiting name hbase m hcalc hv =>
    rw [expand_of_visiting hbase hcalc (by simpa using hv)] at h
    cases h
  | case3 visiting name hbase m hcalc hv _ ih =>
    obtain ⟨hm, rfl⟩ := hr.calculatedMetric?_eq_some_iff.1 hcalc
    rw [List.contains_iff_mem] at hv
    rw [expand_of_calculated hbase hcalc hv] at h
    simp only [Except.bind_eq_ok, Except.mapError_eq_ok] at h
    obtain ⟨f, hread, _, hlower, -⟩ := h
    have hinner {y : String} (hy : TransGen (ofRegistry r).Refers m.id y) :
        Clear r (visiting ++ [m.id]) y := by
      obtain ⟨b, hb, hby⟩ := TransGen.head'_iff.1 hy
      obtain ⟨_, he⟩ := Formula.exists_of_lower hlower b ((refers_iff_of_read hr hm hread).1 hb)
      exact ih b he hby
    rcases reflTransGen_iff_eq_or_transGen.1 hx with rfl | hx
    · refine ⟨isSome_metric?_iff.2 (.inr (.inl (by simp [hcalc]))), fun _ => hv, fun hcycle => ?_⟩
      have hback := TransGen.mono (fun _ _ h => h.refers) _ _ hcycle
      exact (hinner hback).notOpen (by simp [hcalc]) (by simp)
    · obtain ⟨hknown, hopen, hacyclic⟩ := hinner hx
      exact ⟨hknown, fun hx hmem => hopen hx (List.mem_append_left _ hmem), hacyclic⟩
  | case4 visiting name hbase hcalc s hsystem =>
    exact clear_of_none hcalc (isSome_metric?_iff.2 (.inr (.inr (by rw [hsystem]; rfl)))) hx
  | case5 visiting name hbase hcalc hsystem =>
    rw [expand_of_none hbase hcalc, hsystem] at h
    cases h

/-- A formula can be read, calls functions as it may and refers to known metrics only. -/
def Proper (r : Registry) (formula : String) : Prop :=
  ∃ f, Formula.read formula = .ok f ∧ f.callsAllowed = true ∧
    ∀ name ∈ f.references, (r.metric? name).isSome

/-- A known metric that leads to proper formulas only is not expanded just because it
leads to a circle, or to what is under expansion. -/
theorem circular_of_expand (hr : r.WellFormed) (hknown : (r.metric? name).isSome)
    (hproper : ∀ x m, ReflTransGen (ofRegistry r).Refers name x →
      r.calculatedMetric? x = some m → r.Proper m.formula) {e : Error}
    (h : r.expand visiting name = .error e) :
    (∃ cycle, e = .circularDependency cycle) ∧
      ∃ x, ReflTransGen (ofRegistry r).Refers name x ∧
        (x ∈ visiting ∨ TransGen (ofRegistry r).DependsOn x x) := by
  induction visiting, name using expand.induct r generalizing e with
  | case1 visiting name b hbase =>
    rw [expand_of_base hbase] at h
    cases h
  | case2 visiting name hbase m hcalc hv =>
    rw [List.contains_iff_mem] at hv
    rw [expand_of_visiting hbase hcalc hv] at h
    exact ⟨⟨_, (Except.error.inj h).symm⟩, name, .refl, .inl hv⟩
  | case3 visiting name hbase m hcalc hv _ ih =>
    obtain ⟨hm, rfl⟩ := hr.calculatedMetric?_eq_some_iff.1 hcalc
    obtain ⟨f, hread, hcalls, hrefs⟩ := hproper m.id m .refl hcalc
    rw [expand_of_calculated hbase hcalc (by simpa using hv), hread] at h
    change (f.lower (r.expand (visiting ++ [m.id]))).bind _ = .error e at h
    obtain hlower | ⟨_, -, h⟩ := Except.bind_eq_error.1 h <;> [skip; cases h]
    obtain ⟨b, hb, hfails⟩ := Formula.exists_of_lower_eq_error f hcalls hlower
    have hedge := (refers_iff_of_read hr hm hread).2 hb
    obtain ⟨hcircular, x, hbx, hx⟩ := ih b (hrefs b hb)
      (fun x m hbx => hproper x m (hbx.head hedge)) hfails
    refine ⟨hcircular, ?_⟩
    rw [List.mem_append, List.mem_singleton] at hx
    rcases hx with (hx | rfl) | hx
    · exact ⟨x, hbx.head hedge, .inl hx⟩
    · have hcycle := transGen_dependsOn_of_refers (.head' hedge hbx) (by simp [hcalc])
      exact ⟨m.id, .refl, .inr hcycle⟩
    · exact ⟨x, hbx.head hedge, .inr hx⟩
  | case4 visiting name hbase hcalc s hsystem =>
    rw [expand_of_none hbase hcalc, hsystem] at h
    cases h
  | case5 visiting name hbase hcalc hsystem =>
    simp [isSome_metric?_iff, hbase, hcalc, hsystem] at hknown

/-! ## Compiling -/

/-- A reference of the formula leads to a circle, or back to the metric whose formula
it is. -/
def LeadsToCircle (r : Registry) (current : Option String) (f : Formula) : Prop :=
  ∃ name ∈ f.references, ∃ x, ReflTransGen (ofRegistry r).Refers name x ∧
    (TransGen (ofRegistry r).DependsOn x x ∨ current = some x)

/-- The formula calls functions as it may and refers to known metrics only, and the
formulas of all metrics that it leads to are proper. -/
structure Sensible (r : Registry) (current : Option String) (f : Formula) : Prop where
  calls : f.callsAllowed = true
  known : ∀ name ∈ f.references, r.Known current name
  proper : ∀ name ∈ f.references, ∀ x m, ReflTransGen (ofRegistry r).Refers name x →
    r.calculatedMetric? x = some m → r.Proper m.formula

/-- No base or system metric has the id `current`. -/
def FreeFor (r : Registry) (current : Option String) : Prop :=
  ∀ id, current = some id → r.baseMetric? id = none ∧ SystemMetric.ofId? id = none

theorem FreeFor.isSome_calculated (h : r.FreeFor current) (hx : current = some x)
    (hknown : (r.metric? x).isSome) : (r.calculatedMetric? x).isSome := by
  obtain ⟨hbase, hsystem⟩ := h x hx
  simpa [isSome_metric?_iff, hbase, hsystem] using hknown

/-- The cycle that the graph finds before anything is expanded. -/
def cycle? (r : Registry) (current : Option String) (names : List String) :
    Option (List String) :=
  current.bind fun id => (ofRegistry r).cycleThrough? id (r.classify current names).2.1

/-- The graph finds a cycle where a reference leads back to the metric whose formula
it is. -/
theorem isSome_cycle?_iff (hr : r.WellFormed) (hfree : r.FreeFor current)
    (hf : r.Sensible current f) {names : List String}
    (hnames : ∀ name, name ∈ names ↔ name ∈ f.references) :
    (r.cycle? current names).isSome ↔ ∃ id, current = some id ∧
      ∃ name ∈ f.references, ReflTransGen (ofRegistry r).Refers name id := by
  cases current with
  | none => simp [cycle?]
  | some id =>
    rw [cycle?, Option.bind_some, ← Option.ne_none_iff_isSome, ne_eq,
      DependencyGraph.cycleThrough?_eq_none_iff]
    simp only [mem_classify_calculated, not_forall, not_not, exists_prop, Option.some.injEq,
      exists_eq_left', hnames]
    constructor
    · rintro ⟨name, ⟨hname, -⟩, hchain⟩
      exact ⟨name, hname, ReflTransGen.mono (fun _ _ h => h.refers) _ _ hchain⟩
    · rintro ⟨name, hname, hchain⟩
      refine ⟨name, ?_⟩
      rcases reflTransGen_iff_eq_or_transGen.1 hchain with rfl | hchain
      · exact ⟨⟨hname, (hfree id rfl).1, by simp [isCalculatedFor]⟩, .refl⟩
      · -- the last formula of the chain knows the metric whose formula is compiled
        obtain ⟨y, hnamey, hy⟩ := TransGen.tail'_iff.1 hchain
        obtain ⟨m, hm, rfl, -⟩ := refers_iff.1 hy
        obtain ⟨g, hread, -, hknown⟩ := hf.proper name hname m.id m hnamey
          (hr.calculatedMetric?_eq_some_iff.2 ⟨hm, rfl⟩)
        have hid := hfree.isSome_calculated rfl
          (hknown id ((refers_iff_of_read hr hm hread).1 hy))
        obtain ⟨b, hb, -⟩ := TransGen.head'_iff.1 hchain
        obtain ⟨m', hm', rfl, -⟩ := refers_iff.1 hb
        have hcalc := isSome_calculatedMetric?_iff.2 ⟨m', hm', rfl⟩
        exact ⟨⟨hname, hr.baseMetric?_eq_none hm', by rw [isCalculatedFor, hcalc, Bool.true_or]⟩,
          (transGen_dependsOn_of_refers hchain hid).to_reflTransGen⟩

/-- What compiling comes to once a formula has been read and its references are known. -/
theorem compile_eq {d : Sql.Dialect} {formula : String} {references : List Reference}
    (hextract : extractReferences formula = .ok references)
    (hknown : ∀ name ∈ uniqueNames references, r.Known current name)
    (hread : Formula.read formula = .ok f) :
    r.compile d formula current =
      match r.cycle? current (uniqueNames references) with
      | some cycle => .error (.circularDependency cycle)
      | none =>
        (f.lower (r.expand current.toList)).bind fun expr =>
          ((Sql.guardSql (expr.render d)).mapError Error.guard).bind fun _ =>
            .ok ⟨expr.render d, expr, (r.classify current (uniqueNames references)).1,
              (r.classify current (uniqueNames references)).2.1⟩ := by
  simp only [compile, bind, hextract, hread, Except.mapError, Except.bind,
    classify_unknown_eq_nil_iff.2 hknown]
  rfl

/-- A formula that is compiled leads to no circle. -/
theorem not_leadsToCircle_of_compile (hr : r.WellFormed) (hfree : r.FreeFor current)
    {d : Sql.Dialect} {formula : String} {c : CompiledFormula}
    (h : r.compile d formula current = .ok c) :
    ∃ f, Formula.read formula = .ok f ∧ ¬ r.LeadsToCircle current f := by
  obtain ⟨references, f, hc⟩ := compile_eq_ok_iff.1 h
  refine ⟨f, hc.parsed, ?_⟩
  rintro ⟨name, hname, x, hx, hcircle⟩
  obtain ⟨e, he⟩ := Formula.exists_of_lower hc.lowered name hname
  obtain ⟨hknown, hopen, hacyclic⟩ := clear_of_expand hr he hx
  rcases hcircle with hcycle | hcurrent
  · exact hacyclic hcycle
  · exact hopen (hfree.isSome_calculated hcurrent hknown) (by simp [hcurrent])

/-- A sensible formula is not lowered only because it leads to a circle. -/
theorem circular_of_lower (hr : r.WellFormed) (hf : r.Sensible current f)
    (hself : ∀ name ∈ f.references, current ≠ some name) {e : Error}
    (h : f.lower (r.expand current.toList) = .error e) :
    (∃ cycle, e = .circularDependency cycle) ∧ r.LeadsToCircle current f := by
  obtain ⟨name, hname, he⟩ := Formula.exists_of_lower_eq_error f hf.calls h
  have hknown : (r.metric? name).isSome := by
    have := hf.known name hname
    simpa [Known, isCalculatedFor, isSome_metric?_iff, hself name hname] using this
  obtain ⟨hcircular, x, hx, hcircle⟩ := circular_of_expand hr hknown (hf.proper name hname) he
  exact ⟨hcircular, name, hname, x, hx, hcircle.symm.imp_right Option.mem_toList.1⟩

/-- A sensible formula fails by a circle just where it leads to one. -/
theorem compile_circular_iff (hr : r.WellFormed) (hfree : r.FreeFor current)
    (d : Sql.Dialect) {formula : String} (hread : Formula.read formula = .ok f)
    (hf : r.Sensible current f) :
    (∃ cycle, r.compile d formula current = .error (.circularDependency cycle)) ↔
      r.LeadsToCircle current f := by
  obtain ⟨references, hextract, hreferences⟩ := Formula.extractReferences_of_read hread
  have hnames (name : String) : name ∈ uniqueNames references ↔ name ∈ f.references := by
    rw [uniqueNames, List.mem_eraseDups, hreferences]
  rw [compile_eq hextract (fun name hname => hf.known name ((hnames name).1 hname)) hread]
  have hcycle := isSome_cycle?_iff hr hfree hf hnames
  cases hfound : r.cycle? current (uniqueNames references) with
  | some cycle =>
    obtain ⟨id, hid, name, hname, hchain⟩ := hcycle.1 (by rw [hfound]; rfl)
    exact ⟨fun _ => ⟨name, hname, id, hchain, .inr hid⟩, fun _ => ⟨cycle, rfl⟩⟩
  | none =>
    simp only [hfound, Option.isSome_none, Bool.false_eq_true, false_iff, not_exists,
      not_and] at hcycle
    have herror {e : Error} := circular_of_lower (e := e) hr hf
      fun name hname heq => hcycle name heq name hname .refl
    constructor
    · rintro ⟨cycle, h⟩
      obtain he | ⟨expr, -, h⟩ := Except.bind_eq_error.1 h
      · exact (herror he).2
      obtain h | ⟨_, -, h⟩ := Except.bind_eq_error.1 h
      · cases hguard : Sql.guardSql (expr.render d) <;> simp [hguard, Except.mapError] at h
      · cases h
    · rintro ⟨name, hname, x, hx, hcircle⟩
      cases hlower : f.lower (r.expand current.toList) with
      | error e =>
        obtain ⟨⟨cycle, rfl⟩, -⟩ := herror hlower
        exact ⟨cycle, rfl⟩
      | ok e =>
        obtain ⟨_, he⟩ := Formula.exists_of_lower hlower name hname
        obtain ⟨-, -, hacyclic⟩ := clear_of_expand hr he hx
        rcases hcircle with hcircle | hcurrent
        · exact absurd hcircle hacyclic
        · exact absurd hx (hcycle x hcurrent name hname)

/-- **Compiling ends and catches every circle.** Over an accepted document, for a formula of no
metric or of one that is neither a base nor a system metric: followed to any depth that exceeds
the numbers of metrics and of references, compiling comes to one result, enters no metric inside
itself and leaves all that it enters; if it succeeds, the formula leads to no circle and not back
to the metric; and a formula that leads to nothing unreadable, unknown or not allowed fails by a
circular dependency if and only if it leads to a circle or back to the metric. -/
theorem compile_circular {document : SchemaDocument} (accepted : ofDocument document = .ok r)
    (d : Sql.Dialect) (formula : String) {current : Option String} (free : r.FreeFor current) :
    (∀ (cutOff : CutOff) (depth : Nat), r.calculatedMetrics.length < depth →
      2 * (ofRegistry r).edges.length + 2 ≤ depth →
        ∃ turns, Turn.follow current.toList turns = some current.toList ∧
          (r.compileIn cutOff depth d formula current).run ⟨current.toList, []⟩ =
            (r.compile d formula current, ⟨current.toList, turns⟩)) ∧
    (∀ c, r.compile d formula current = .ok c →
      ∃ f, Formula.read formula = .ok f ∧ ¬ r.LeadsToCircle current f) ∧
    ∀ f, Formula.read formula = .ok f → r.Sensible current f →
      ((∃ cycle, r.compile d formula current = .error (.circularDependency cycle)) ↔
        r.LeadsToCircle current f) := by
  have hr := wellFormed_ofDocument accepted
  refine ⟨fun cutOff depth hmetrics hedges => ?_, fun c hc => ?_, fun f hread hf => ?_⟩
  · exact yields_compileIn r cutOff hmetrics hedges d formula current []
  · exact not_leadsToCircle_of_compile hr free hc
  · exact compile_circular_iff hr free d hread hf

/-- A rate, and a metric that refers to itself and stands inside another. -/
def loopDocument : SchemaDocument where
  table := "sales"
  sourceTable := "raw.sales"
  baseMetrics := ["clicks", "sales"].map fun id =>
    { id, sourceColumns := [id], aggregation := .sum }
  calculatedMetrics := [{ id := "rate", formula := "{sales} / {clicks}" },
    { id := "loop", formula := "ROUND({loop} + {rate}, 2)" }, { id := "far", formula := "-{loop}" }]

/-- The rate can stand in a share, and what leads to the loop is refused. -/
theorem compile_circular_loop :
    let r : Registry := ⟨loopDocument⟩
    (∃ c f, r.compile .bigQuery "{rate} * 100" (some "share") = .ok c ∧
      Formula.read "{rate} * 100" = .ok f ∧ ¬ r.LeadsToCircle (some "share") f) ∧
    ∃ cycle, r.compile .bigQuery "{far} + 1" none = .error (.circularDependency cycle) := by
  intro r
  have accepted : ofDocument loopDocument = .ok r := by decide +kernel
  constructor
  · obtain ⟨c, hc⟩ := Except.exists_of_toBool
      (x := r.compile .bigQuery "{rate} * 100" (some "share")) (by decide +kernel)
    have free : r.FreeFor (some "share") := fun id h => by
      obtain rfl := Option.some.inj h
      decide +kernel
    obtain ⟨f, hread, hcircle⟩ := (compile_circular accepted .bigQuery _ free).2.1 c hc
    exact ⟨c, f, hc, hread, hcircle⟩
  · obtain ⟨f, hread, hf⟩ := Except.exists_of_any (x := Formula.read "{far} + 1")
      (p := fun f => f.callsAllowed && f.references == ["far"]) (by decide +kernel)
    rw [Bool.and_eq_true, beq_iff_eq] at hf
    have hproper : ∀ m ∈ loopDocument.calculatedMetrics, (Formula.read m.formula).toOption.any
        (fun f => f.callsAllowed && f.references.all fun name => (r.metric? name).isSome) = true := by
      decide +kernel
    have sensible : r.Sensible none f := by
      refine ⟨hf.1, fun name hname => ?_, fun _ _ x m _ hm => ?_⟩
      · rw [hf.2, List.mem_singleton] at hname
        exact .inr (.inl (by rw [hname]; decide +kernel))
      · obtain ⟨g, hg, h⟩ := Except.exists_of_any (hproper m (List.mem_of_find?_eq_some hm))
        rw [Bool.and_eq_true, List.all_eq_true] at h
        exact ⟨g, hg, h⟩
    have hfar : (ofRegistry r).Refers "far" "loop" := ⟨.calculated, by decide +kernel⟩
    have hloop : (ofRegistry r).DependsOn "loop" "loop" := by
      unfold DependencyGraph.DependsOn
      decide +kernel
    have free : r.FreeFor none := fun _ h => by cases h
    refine ((compile_circular accepted .bigQuery _ free).2.2 f hread sensible).2 ?_
    exact ⟨"far", by simp [hf.2], "loop", .single hfar, .inl (.single hloop)⟩

end Registry

end MetricLayer
