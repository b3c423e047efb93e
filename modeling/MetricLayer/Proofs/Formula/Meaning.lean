import MetricLayer.Proofs.Formula.Expansion
import MetricLayer.Proofs.Sql.Interpretation

/-!
# What formulas mean

A formula means what its tree says once its references have values
(`Formula.value`). The value of a reference is that of the metric: a base metric
is its aggregate, the days in range are a difference of dates plus one, and a
calculated metric is worth what its own formula means (`Registry.Denotes`,
`Registry.Means`). What a formula is compiled to has that value and no other
(`Registry.means_iff_of_compile`).
-/

namespace MetricLayer

open Sql (Expr Interpretation)

variable {α : Type}

/-! ## Formulas with given references -/

/-- The operators as arithmetic, a division being null for a zero divisor. -/
def ArithOp.value (I : Interpretation α) : ArithOp → Option α → Option α → Option α
  | .add => I.binary .add
  | .subtract => I.binary .subtract
  | .multiply => I.binary .multiply
  | .divide => I.quotient
  | .modulo => I.binary .modulo

namespace Formula

mutual

/-- The value of a formula whose references have the values `refs`. A function
that formulas may not call has none. -/
def value (I : Interpretation α) (refs : String → Option α) : Formula → Option α
  | .reference name => refs name
  | .number digits => I.number digits
  | .literal s => I.text s
  | .negate f => I.negate (f.value I refs)
  | .group f => f.value I refs
  | .binary op l r => op.value I (l.value I refs) (r.value I refs)
  | .call name arguments =>
    match Sql.Function.ofFormulaName? name with
    | some f => I.apply f (values I refs arguments)
    | none => none

def values (I : Interpretation α) (refs : String → Option α) : List Formula → List (Option α)
  | [] => []
  | f :: rest => f.value I refs :: values I refs rest

end

variable {I : Interpretation α} {refs : String → Option α}
  {resolve : String → Except Error Expr}

theorem value_apply (op : ArithOp) (l r : Expr) :
    (op.apply l r).value I = op.value I (l.value I) (r.value I) := by
  cases op <;> rfl

theorem values_eq_of_forall₂ {fs : List Formula} {es : List Expr}
    (h : List.Forall₂ (fun f e => f.value I refs = e.value I) fs es) :
    values I refs fs = Expr.values I es := by
  induction h with
  | nil => rfl
  | cons hf _ ih => rw [values, Expr.values, hf, ih]

theorem keepsValue : KeptByLowering resolve fun f e => f.value I refs = e.value I where
  number _ := rfl
  literal _ := rfl
  negate _ _ _ h := congrArg I.negate h
  group _ _ h := h
  binary _ _ _ _ _ hl hr := by rw [value, value_apply, hl, hr]
  call _ f _ _ hf _ h := by
    rw [value, hf]
    exact congrArg (I.apply f) (values_eq_of_forall₂ h)

/-- Where a formula is lowered, so are its references. -/
theorem keepsResolved :
    KeptByLowering resolve fun f _ => ∀ name ∈ f.references, ∃ e, resolve name = .ok e where
  number _ := by simp [references]
  literal _ := by simp [references]
  negate _ _ _ h := h
  group _ _ h := h
  binary _ _ _ _ _ hl hr := by
    rw [references, List.forall_mem_append]
    exact ⟨hl, hr⟩
  call _ _ _ _ _ harity h := by
    clear harity
    rw [references]
    induction h with
    | nil => simp [referencesOf]
    | cons hf _ ih =>
      rw [referencesOf, List.forall_mem_append]
      exact ⟨hf, ih⟩

theorem exists_of_lower {f : Formula} {e : Expr} (h : f.lower resolve = .ok e) :
    ∀ name ∈ f.references, ∃ e, resolve name = .ok e := by
  refine keepsResolved.holds f (fun name _ e he => ?_) e h
  simpa [references] using ⟨e, he⟩

end Formula

/-! ## Formulas of a registry -/

namespace SystemMetric

/-- The days from the earliest to the latest date, both included. -/
def value (I : Interpretation α) (dateColumn : String) : SystemMetric → Option α
  | .daysInRange =>
    I.binary .add
      (I.apply .dateDiff
        [I.leaf (.aggregate .min (.ofColumn dateColumn)),
          I.leaf (.aggregate .max (.ofColumn dateColumn))])
      (I.number "1")

end SystemMetric

namespace Registry

variable {r : Registry} {I : Interpretation α}

/-- A reference has a value: that of the metric that the registry knows by this
name, and, for a calculated metric, that of its formula over the values of its
references. -/
inductive Denotes (r : Registry) (I : Interpretation α) : String → Option α → Prop where
  | base {name : String} {m : BaseMetric} (known : r.metric? name = some (.base m)) :
      Denotes r I name (I.leaf (.aggregate m.aggregation m.input))
  | calculated {name : String} {m : CalculatedMetric} {f : Formula} {refs : String → Option α}
      (known : r.metric? name = some (.calculated m)) (parsed : Formula.read m.formula = .ok f)
      (values : ∀ inner ∈ f.references, Denotes r I inner (refs inner)) :
      Denotes r I name (f.value I refs)
  | system {name : String} {m : SystemMetric} (known : r.metric? name = some (.system m)) :
      Denotes r I name (m.value I r.dateColumn)

/-- The formula has the value `v` over the values of its references. -/
def Means (r : Registry) (I : Interpretation α) (f : Formula) (v : Option α) : Prop :=
  ∃ refs, (∀ name ∈ f.references, r.Denotes I name (refs name)) ∧ f.value I refs = v

/-- A reference has the value of what it stands for, if the formulas inside have
the values of what they are lowered to. -/
theorem denotes_iff_of_expands {name : String} {e : Expr}
    (h : r.Expands (fun f e => ∀ v, r.Means I f v ↔ v = e.value I) name e) (v : Option α) :
    r.Denotes I name v ↔ v = e.value I := by
  cases h with
  | base hm =>
    constructor
    · intro h
      cases h with
      | calculated known | system known => simp [hm] at known
      | base known =>
        obtain rfl := MetricKind.base.inj (Option.some.inj (known.symm.trans hm))
        rfl
    · rintro rfl
      exact .base hm
  | calculated hm hread hinner =>
    refine Iff.trans ⟨fun h => ?_, ?_⟩ (hinner v)
    · cases h with
      | base known | system known => simp [hm] at known
      | @calculated _ _ _ refs known parsed values =>
        obtain rfl := MetricKind.calculated.inj (Option.some.inj (known.symm.trans hm))
        obtain rfl := Except.ok.inj (parsed.symm.trans hread)
        exact ⟨refs, values, rfl⟩
    · rintro ⟨refs, values, rfl⟩
      exact .calculated hm hread values
  | @system m hm =>
    have hvalue : (m.expr r.dateColumn).value I = m.value I r.dateColumn := by
      cases m
      rfl
    rw [hvalue]
    constructor
    · intro h
      cases h with
      | base known | calculated known => simp [hm] at known
      | system known =>
        obtain rfl := MetricKind.system.inj (Option.some.inj (known.symm.trans hm))
        rfl
    · rintro rfl
      exact .system hm

/-- A formula means the value of what it is lowered to, and no other. -/
theorem means_iff_of_lower {visiting : List String} {f : Formula} {e : Expr}
    (h : f.lower (r.expand visiting) = .ok e) (v : Option α) :
    r.Means I f v ↔ v = e.value I := by
  revert v
  refine holds_of_lower (P := fun f e => ∀ v, r.Means I f v ↔ v = e.value I)
    (fun resolve f e h hresolve v => ?_) h
  have hdenotes {name : String} {e : Expr} (he : resolve name = .ok e) (v : Option α) :
      r.Denotes I name v ↔ v = e.value I :=
    denotes_iff_of_expands (hresolve name e he) v
  constructor
  · rintro ⟨refs, hrefs, rfl⟩
    exact Formula.keepsValue.holds f
      (fun name hname e he => (hdenotes he _).1 (hrefs name hname)) e h
  · rintro rfl
    let refs (name : String) : Option α := (resolve name).toOption.bind (·.value I)
    have hrefs {name : String} {e : Expr} (he : resolve name = .ok e) :
        refs name = e.value I := by
      simp [refs, he, Except.toOption]
    refine ⟨refs, fun name hname => ?_, Formula.keepsValue.holds f (fun _ _ _ he => hrefs he) e h⟩
    obtain ⟨e', he'⟩ := Formula.exists_of_lower h name hname
    exact (hdenotes he' _).2 (hrefs he')

/-- **Compilation keeps the meaning**: what a formula is compiled to has the one
value that the formula has over the values of its references. -/
theorem means_iff_of_compile {d : Sql.Dialect} {formula : String} {current : Option String}
    {c : CompiledFormula} (h : r.compile d formula current = .ok c) (I : Interpretation α) :
    ∃ f, Formula.read formula = .ok f ∧ ∀ v, r.Means I f v ↔ v = c.expr.value I := by
  obtain ⟨references, f, hc⟩ := compile_eq_ok_iff.1 h
  exact ⟨f, hc.parsed, means_iff_of_lower hc.lowered⟩

/-- A table of advertisements with the cost of a click. -/
def clicksDocument : SchemaDocument where
  table := "ads"
  sourceTable := "raw.ads"
  baseMetrics := [{ id := "cost", sourceColumns := ["cost"], aggregation := .sum },
    { id := "clicks", sourceColumns := ["clicks"], aggregation := .sum }]
  calculatedMetrics := [{ id := "cpc", formula := "{cost} / {clicks}" }]

/-- Ten clicks that cost 30 in a week. -/
def clicksInterpretation : Interpretation Int := .whole fun
  | .aggregate .sum (.column none "cost") => some 30
  | .aggregate .sum _ => some 10
  | .aggregate .min _ => some 1
  | .aggregate .max _ => some 7
  | _ => none

theorem means_cpc_times_days :
    ∃ c, compile ⟨clicksDocument⟩ .bigQuery "-{cpc} * 2 + {days_in_range}" none = .ok c ∧
      c.expr.value clicksInterpretation = some 1 ∧
      ∃ f, Formula.read "-{cpc} * 2 + {days_in_range}" = .ok f ∧
        ∀ v, Means ⟨clicksDocument⟩ clicksInterpretation f v ↔
          v = c.expr.value clicksInterpretation := by
  obtain ⟨c, hc, hvalue⟩ := Except.exists_of_any
    (x := compile ⟨clicksDocument⟩ .bigQuery "-{cpc} * 2 + {days_in_range}" none)
    (p := fun c => decide (c.expr.value clicksInterpretation = some 1)) (by decide +kernel)
  exact ⟨c, hc, of_decide_eq_true hvalue, means_iff_of_compile hc _⟩

end Registry

end MetricLayer
