import MetricLayer.Formula.Compile
import MetricLayer.Proofs.Formula.References
import MetricLayer.Proofs.Outcome
import MetricLayer.Proofs.Registry.Reachability

/-!
# Lowering and expanding

A formula is lowered by what its references stand for and nothing else
(`Formula.lower_congr`). The equations of `Registry.expand`, one for each kind of
metric, and `Registry.compile_eq_ok_iff`, which says what a successful
compilation comes to, keep later proofs from opening either. What later proofs
say of a formula and its expression they prove by two inductions:
`Formula.KeptByLowering.holds` is over the parts of a formula, and
`Registry.holds_of_lower` over the calculated metrics it leads to.
-/

namespace MetricLayer

open Relation (ReflTransGen)
open Sql (Expr)

namespace Formula

/-! ## Lowering -/

mutual

theorem lower_congr {resolve resolve' : String → Except Error Expr} :
    (f : Formula) → (∀ name ∈ f.references, resolve name = resolve' name) →
      f.lower resolve = f.lower resolve'
  | .reference name, h => h name (by simp [references])
  | .number _, _ | .literal _, _ => rfl
  | .negate f, h | .group f, h => by
    rw [lower, lower, lower_congr f h]
  | .binary op l r, h => by
    rw [lower, lower, lower_congr l fun name hn => h name (by simp [references, hn]),
      lower_congr r fun name hn => h name (by simp [references, hn])]
  | .call name arguments, h => by
    rw [lower, lower]
    simp only [lowerAll_congr arguments h]

theorem lowerAll_congr {resolve resolve' : String → Except Error Expr} :
    (fs : List Formula) → (∀ name ∈ referencesOf fs, resolve name = resolve' name) →
      lowerAll resolve fs = lowerAll resolve' fs
  | [], _ => rfl
  | f :: rest, h => by
    rw [lowerAll, lowerAll, lower_congr f fun name hn => h name (by simp [referencesOf, hn]),
      lowerAll_congr rest fun name hn => h name (by simp [referencesOf, hn])]

end

/-- `P` holds of a formula and what it is lowered to where it does for the parts of
both. -/
structure KeptByLowering (resolve : String → Except Error Expr) (P : Formula → Expr → Prop) :
    Prop where
  number : ∀ digits, P (.number digits) (.raw digits)
  literal : ∀ value, P (.literal value) (.ofText value)
  negate : ∀ f e, f.lower resolve = .ok e → P f e → P (.negate f) (.negate e)
  group : ∀ f e, P f e → P (.group f) (.nested e)
  binary : ∀ op l r L R, P l L → P r R → P (.binary op l r) (op.apply L R)
  call : ∀ name f fs es, Sql.Function.ofFormulaName? name = some f →
    f.arity.admits fs.length = true → List.Forall₂ P fs es → P (.call name fs) (.call f es)

namespace KeptByLowering

variable {resolve : String → Except Error Expr} {P : Formula → Expr → Prop}

mutual

/-- It then holds of every formula, if it does of the references. -/
theorem holds (hP : KeptByLowering resolve P) : (f : Formula) →
    (∀ name ∈ f.references, ∀ e, resolve name = .ok e → P (.reference name) e) →
      ∀ e, f.lower resolve = .ok e → P f e
  | .reference name, h, e, he => h name (by simp [references]) e he
  | .number digits, _, e, he => by
    obtain rfl := Except.ok.inj he
    exact hP.number digits
  | .literal value, _, e, he => by
    obtain rfl := Except.ok.inj he
    exact hP.literal value
  | .negate f, h, e, he => by
    simp only [lower, bind, Except.bind_eq_ok] at he
    obtain ⟨inner, hinner, he⟩ := he
    obtain rfl := Except.ok.inj he
    exact hP.negate f inner hinner (holds hP f h inner hinner)
  | .group f, h, e, he => by
    simp only [lower, bind, Except.bind_eq_ok] at he
    obtain ⟨inner, hinner, he⟩ := he
    obtain rfl := Except.ok.inj he
    exact hP.group f inner (holds hP f h inner hinner)
  | .binary op l r, h, e, he => by
    simp only [lower, bind, Except.bind_eq_ok] at he
    obtain ⟨left, hleft, right, hright, he⟩ := he
    obtain rfl := Except.ok.inj he
    exact hP.binary op l r left right
      (holds hP l (fun name hn => h name (by simp [references, hn])) left hleft)
      (holds hP r (fun name hn => h name (by simp [references, hn])) right hright)
  | .call name fs, h, e, he => by
    rw [lower] at he
    split at he <;> [cases he; skip]
    rename_i f hf
    split at he <;> [skip; cases he]
    rename_i harity
    simp only [bind, Except.bind_eq_ok] at he
    obtain ⟨es, hes, he⟩ := he
    obtain rfl := Except.ok.inj he
    exact hP.call name f fs es hf harity (holdsAll hP fs h es hes)

theorem holdsAll (hP : KeptByLowering resolve P) : (fs : List Formula) →
    (∀ name ∈ referencesOf fs, ∀ e, resolve name = .ok e → P (.reference name) e) →
      ∀ es, lowerAll resolve fs = .ok es → List.Forall₂ P fs es
  | [], _, es, hes => by
    obtain rfl := Except.ok.inj hes
    exact .nil
  | f :: rest, h, es, hes => by
    simp only [lowerAll, bind, Except.bind_eq_ok] at hes
    obtain ⟨e, he, tail, htail, hes⟩ := hes
    obtain rfl := Except.ok.inj hes
    exact .cons (holds hP f (fun name hn => h name (by simp [referencesOf, hn])) e he)
      (holdsAll hP rest (fun name hn => h name (by simp [referencesOf, hn])) tail htail)

end

end KeptByLowering

end Formula

namespace Registry

variable {r : Registry} {visiting : List String} {name : String}

/-! ## Expanding -/

theorem expand_of_base {m : BaseMetric} (h : r.baseMetric? name = some m) :
    r.expand visiting name = .ok m.expr := by
  rw [expand, h]

theorem expand_of_visiting {m : CalculatedMetric} (hbase : r.baseMetric? name = none)
    (hm : r.calculatedMetric? name = some m) (hv : name ∈ visiting) :
    r.expand visiting name = .error (.circularDependency (visiting ++ [name])) := by
  rw [expand, hbase]
  dsimp only
  split
  · rw [dif_pos (by simpa using hv)]
  · simp_all

theorem expand_of_calculated {m : CalculatedMetric} (hbase : r.baseMetric? name = none)
    (hm : r.calculatedMetric? name = some m) (hv : name ∉ visiting) :
    r.expand visiting name = (((Formula.read m.formula).mapError Error.formula).bind fun f =>
      (f.lower (r.expand (visiting ++ [name]))).bind fun e => .ok (.nested e)) := by
  rw [expand, hbase]
  dsimp only
  split
  · rename_i m' hm'
    obtain rfl : m' = m := Option.some.inj (hm'.symm.trans hm)
    rw [dif_neg (by simpa using hv)]
    rfl
  · simp_all

theorem expand_of_none (hbase : r.baseMetric? name = none)
    (hm : r.calculatedMetric? name = none) :
    r.expand visiting name = match SystemMetric.ofId? name with
      | some m => .ok (m.expr r.dateColumn)
      | none => .error (.unknown name) := by
  rw [expand, hbase]
  dsimp only
  split
  · simp_all
  · rfl

theorem length_unvisited_lt {m : CalculatedMetric} (hm : r.calculatedMetric? name = some m)
    (hv : name ∉ visiting) :
    (r.unvisited (visiting ++ [name])).length < (r.unvisited visiting).length :=
  length_unvisited_append_lt r hm (by simpa using hv)

/-- What a reference stands for, `P` holding of the formula of a calculated metric
and what this is lowered to. -/
inductive Expands (r : Registry) (P : Formula → Expr → Prop) : String → Expr → Prop where
  | base {name : String} {m : BaseMetric} (known : r.metric? name = some (.base m)) :
      Expands r P name m.expr
  | calculated {name : String} {m : CalculatedMetric} {f : Formula} {e : Expr}
      (known : r.metric? name = some (.calculated m)) (parsed : Formula.read m.formula = .ok f)
      (inner : P f e) : Expands r P name (.nested e)
  | system {name : String} {m : SystemMetric} (known : r.metric? name = some (.system m)) :
      Expands r P name (m.expr r.dateColumn)

theorem expands_of_expand {P : Formula → Expr → Prop} {e : Expr}
    (h : r.expand visiting name = .ok e)
    (hinner : ∀ m f e, r.calculatedMetric? name = some m → name ∉ visiting →
      f.lower (r.expand (visiting ++ [name])) = .ok e → P f e) : r.Expands P name e := by
  cases hbase : r.baseMetric? name with
  | some m =>
    rw [expand_of_base hbase] at h
    obtain rfl := Except.ok.inj h
    exact .base (by simp [metric?, hbase])
  | none =>
    cases hcalc : r.calculatedMetric? name with
    | some m =>
      by_cases hv : name ∈ visiting
      · rw [expand_of_visiting hbase hcalc hv] at h
        cases h
      rw [expand_of_calculated hbase hcalc hv] at h
      simp only [Except.bind_eq_ok, Except.mapError_eq_ok] at h
      obtain ⟨f, hread, e, he, h⟩ := h
      obtain rfl := Except.ok.inj h
      exact .calculated (by simp [metric?, hbase, hcalc]) hread (hinner m f e hcalc hv he)
    | none =>
      rw [expand_of_none hbase hcalc] at h
      cases hsystem : SystemMetric.ofId? name with
      | none => simp [hsystem] at h
      | some m =>
        rw [hsystem] at h
        obtain rfl := Except.ok.inj h
        exact .system (by simp [metric?, hbase, hcalc, hsystem])

/-- What holds of a formula, if it does of the formulas of the calculated metrics
that it refers to, holds of every formula that is lowered. -/
theorem holds_of_lower {P : Formula → Expr → Prop}
    (step : ∀ resolve f e, f.lower resolve = .ok e →
      (∀ name e', resolve name = .ok e' → r.Expands P name e') → P f e)
    {f : Formula} {e : Expr} (h : f.lower (r.expand visiting) = .ok e) : P f e := by
  -- the calculated metrics that are not being expanded become fewer
  induction hn : (r.unvisited visiting).length using Nat.strong_induction_on
    generalizing visiting f e with
  | _ n ih =>
  subst hn
  refine step _ f e h fun name e' he' => expands_of_expand he' fun m g inner hcalc hv hinner => ?_
  exact ih _ (length_unvisited_lt hcalc hv) hinner rfl

/-! ## Compiling -/

/-- What a formula of the metric `current` may refer to. -/
def Known (r : Registry) (current : Option String) (name : String) : Prop :=
  (r.baseMetric? name).isSome ∨ r.isCalculatedFor current name ∨ (SystemMetric.ofId? name).isSome

theorem mem_classify_calculated {current : Option String} {names : List String} :
    name ∈ (r.classify current names).2.1 ↔
      name ∈ names ∧ r.baseMetric? name = none ∧ r.isCalculatedFor current name := by
  simp only [classify, List.partition_eq_filter_filter, List.mem_filter, Function.comp_apply,
    Bool.not_eq_true', Option.isSome_eq_false_iff, Option.isNone_iff_eq_none]
  exact and_assoc

theorem classify_unknown_eq_nil_iff {current : Option String} {names : List String} :
    (r.classify current names).2.2 = [] ↔ ∀ name ∈ names, r.Known current name := by
  simp only [classify, List.partition_eq_filter_filter, List.filter_filter, List.filter_eq_nil_iff,
    Known]
  refine forall₂_congr fun name _ => ?_
  rcases hb : r.baseMetric? name with _ | _ <;>
    rcases hc : r.isCalculatedFor current name with _ | _ <;>
    rcases hs : SystemMetric.ofId? name with _ | _ <;> simp [hb, hc]

/-- What a successful compilation comes to. -/
structure Compiled (r : Registry) (d : Sql.Dialect) (formula : String) (current : Option String)
    (c : CompiledFormula) (references : List Reference) (f : Formula) : Prop where
  extracted : extractReferences formula = .ok references
  known : ∀ name ∈ uniqueNames references, r.Known current name
  noCycle : ∀ id, current = some id → ∀ name ∈ c.dependsOnCalculated,
    ¬ ReflTransGen (DependencyGraph.ofRegistry r).DependsOn name id
  parsed : Formula.read formula = .ok f
  lowered : f.lower (r.expand current.toList) = .ok c.expr
  sql_eq : c.sql = c.expr.render d
  guarded : Sql.guardSql c.sql = .ok ()
  base_eq : c.dependsOnBase = (r.classify current (uniqueNames references)).1
  calculated_eq : c.dependsOnCalculated = (r.classify current (uniqueNames references)).2.1

theorem compile_eq_ok_iff {d : Sql.Dialect} {formula : String} {current : Option String}
    {c : CompiledFormula} :
    r.compile d formula current = .ok c ↔
      ∃ references f, r.Compiled d formula current c references f := by
  have hcycle (names : List String) : (current.bind fun id =>
      (DependencyGraph.ofRegistry r).cycleThrough? id names) = none ↔
      ∀ id, current = some id → ∀ name ∈ names,
        ¬ ReflTransGen (DependencyGraph.ofRegistry r).DependsOn name id := by
    cases current <;> simp [DependencyGraph.cycleThrough?_eq_none_iff]
  constructor
  · intro h
    simp only [compile, bind, Except.bind_eq_ok, Except.mapError_eq_ok] at h
    obtain ⟨references, hextract, h⟩ := h
    split at h <;> [cases h; skip]
    rename_i hunknown
    split at h <;> [cases h; skip]
    rename_i hnone
    simp only [Except.bind_eq_ok, Except.mapError_eq_ok] at h
    obtain ⟨f, hread, expr, hlower, _, hguard, hc⟩ := h
    obtain rfl := Except.ok.inj hc
    exact ⟨references, f, hextract, classify_unknown_eq_nil_iff.1 (by simpa using hunknown),
      (hcycle _).1 hnone, hread, hlower, rfl, hguard, rfl, rfl⟩
  · rintro ⟨references, f, h⟩
    have hnone := (hcycle _).2 h.noCycle
    rw [h.calculated_eq] at hnone
    simp only [compile, bind, h.extracted, Except.mapError, Except.bind,
      classify_unknown_eq_nil_iff.2 h.known, hnone, h.parsed, h.lowered, ← h.sql_eq, h.guarded]
    simp [← h.base_eq, ← h.calculated_eq]

end Registry

end MetricLayer
