import MetricLayer.Proofs.Formula.Shape
import MetricLayer.Proofs.Registry.Agreement
import MetricLayer.Proofs.Sql.Evaluation

/-!
# Formulas over stored metrics

Where a table holds base metrics in columns of their ids, a formula is evaluated
with these columns in the place of aggregates (`Registry.overColumns`). Its value
in a row is the one that it has in a group of rows whose aggregates the row holds
(`Registry.lower_overColumns`).
-/

namespace MetricLayer

open Relation (ReflTransGen)
open Sql (Expr Engine Row Scope)

/-- Two expressions have one value in scopes that belong together. -/
def Sql.Expr.Agrees (belongs : Engine → Scope → Scope → Prop) (e e' : Expr) : Prop :=
  ∀ engine s s', belongs engine s s' → e.eval engine s = e'.eval engine s'

namespace Formula

variable {belongs : Engine → Scope → Scope → Prop}
  {resolve resolve' : String → Except Error Expr}

theorem agrees_apply {l l' r r' : Expr} (op : ArithOp) (hl : l.Agrees belongs l')
    (hr : r.Agrees belongs r') : (op.apply l r).Agrees belongs (op.apply l' r') := by
  intro engine s s' h
  cases op <;>
    simp only [ArithOp.apply, Expr.eval, Expr.evalAll, hl engine s s' h, hr engine s s' h]

/-- A formula is lowered to expressions that agree where its references are. -/
theorem keepsAgreement : KeptByLowering resolve fun f e => f.Shaped →
    (∀ name ∈ f.references, ∀ e, resolve name = .ok e →
      ∃ e', resolve' name = .ok e' ∧ e.Agrees belongs e') →
    ∃ e', f.lower resolve' = .ok e' ∧ e.Agrees belongs e' where
  number
  | digits, .number hnumber, _ => ⟨.raw digits, rfl, fun engine s s' _ =>
      engine.raw_numeral digits hnumber.isNumeral s.row s'.row⟩
  literal value _ _ := ⟨.ofText value, rfl, fun _ _ _ _ => rfl⟩
  negate
  | _, _, _, ih, .negate hoperand _, h => by
    obtain ⟨e', he', hagrees⟩ := ih hoperand h
    exact ⟨.negate e', by simp [lower, bind, Except.bind, he'], fun engine s s' hs =>
      congrArg engine.negate (hagrees engine s s' hs)⟩
  group
  | _, _, ih, .group hinner, h => by
    obtain ⟨e', he', hagrees⟩ := ih hinner h
    exact ⟨.nested e', by simp [lower, bind, Except.bind, he'], hagrees⟩
  binary op l r L R ihl ihr hshaped h := by
    obtain ⟨hshapedl, hshapedr⟩ := hshaped.operands
    obtain ⟨L', hL, hl⟩ := ihl hshapedl fun name hn => h name (by simp [references, hn])
    obtain ⟨R', hR, hr⟩ := ihr hshapedr fun name hn => h name (by simp [references, hn])
    exact ⟨op.apply L' R', by simp [lower, bind, Except.bind, hL, hR], agrees_apply op hl hr⟩
  call
  | name, f, fs, es, hf, harity, ih, .call harguments, h => by
    have hall : ∃ es', lowerAll resolve' fs = .ok es' ∧ ∀ engine s s', belongs engine s s' →
        Expr.evalAll engine s es = Expr.evalAll engine s' es' := by
      replace h : ∀ name ∈ referencesOf fs, ∀ e, resolve name = .ok e →
        ∃ e', resolve' name = .ok e' ∧ e.Agrees belongs e' := h
      clear harity
      induction ih with
      | nil => exact ⟨[], rfl, fun _ _ _ _ => rfl⟩
      | cons hhead _ ih =>
        rw [List.forall_mem_cons] at harguments
        obtain ⟨e', he', hagrees⟩ :=
          hhead harguments.1 fun name hn => h name (by simp [referencesOf, hn])
        obtain ⟨es', hes', hrest⟩ :=
          ih harguments.2 fun name hn => h name (by simp [referencesOf, hn])
        exact ⟨e' :: es', by simp [lowerAll, bind, Except.bind, he', hes'], fun engine s s' hs => by
          rw [Expr.evalAll, Expr.evalAll, hagrees engine s s' hs, hrest engine s s' hs]⟩
    obtain ⟨es', hes', hagrees⟩ := hall
    exact ⟨.call f es', by simp [lower, hf, harity, bind, Except.bind, hes'], fun engine s s' hs =>
      congrArg (engine.call f) (hagrees engine s s' hs)⟩

end Formula

namespace Registry

variable (r : Registry)

/-- What a reference stands for on a table that holds base metrics in columns of
their ids, inside the calculated metrics `visiting`. -/
def overColumns (visiting : List String) (name : String) : Except Error Expr :=
  match r.baseMetric? name with
  | some m => .ok (.ofColumn m.id)
  | none =>
    match hm : r.calculatedMetric? name with
    | some m =>
      if hv : visiting.contains name then .error (.circularDependency (visiting ++ [name]))
      else
        have := r.length_unvisited_append_lt hm (by simpa using hv)
        do
        let f ← (Formula.read m.formula).mapError Error.formula
        let e ← f.lower fun inner => overColumns (visiting ++ [name]) inner
        .ok (.nested e)
    | none => .error (.unknown name)
termination_by (r.unvisited visiting).length

variable {r} {root : String}

theorem overColumns_of_calculated {visiting : List String} {name : String} {m : CalculatedMetric}
    (hbase : r.baseMetric? name = none) (hm : r.calculatedMetric? name = some m)
    (hv : name ∉ visiting) :
    r.overColumns visiting name = (((Formula.read m.formula).mapError Error.formula).bind fun f =>
      (f.lower (r.overColumns (visiting ++ [name]))).bind fun e => .ok (.nested e)) := by
  rw [overColumns, hbase]
  dsimp only
  split
  · rename_i m' hm'
    obtain rfl : m' = m := Option.some.inj (hm'.symm.trans hm)
    rw [dif_neg (by simpa using hv)]
    rfl
  · simp_all

theorem edge_of_base (hr : r.WellFormed) {a b : String} {m : BaseMetric}
    (hb : r.baseMetric? b = some m) (h : (DependencyGraph.ofRegistry r).Refers a b) :
    ⟨a, b, .base⟩ ∈ (DependencyGraph.ofRegistry r).edges := by
  obtain ⟨c, hc, hid, hmem⟩ := refers_iff.1 h
  refine mem_edges_ofRegistry.2 ⟨c, hc, hid, hmem, ?_⟩
  simp [DependencyGraph.targetKind, hr.calculatedMetric?_eq_none hb, hb]

/-- The columns of a row hold the base metrics that `root` rests on, as they are
in a scope. -/
def HoldsBases (r : Registry) (root : String) (engine : Engine) (s s' : Scope) : Prop :=
  ∀ id ∈ (DependencyGraph.ofRegistry r).transitiveBases root, ∀ m, r.baseMetric? id = some m →
    m.expr.eval engine s = s'.row id

/-- No formula that the metric `root` rests on refers to a system metric. -/
def FreeOfSystem (r : Registry) (root : String) : Prop :=
  ∀ m ∈ r.calculatedMetrics, ReflTransGen (DependencyGraph.ofRegistry r).DependsOn root m.id →
    ∀ f, Formula.read m.formula = .ok f → ∀ name ∈ f.references, SystemMetric.ofId? name = none

theorem lower_overColumns (hr : r.WellFormed) (hsystem : r.FreeOfSystem root)
    {visiting : List String} {m : CalculatedMetric} (hm : m ∈ r.calculatedMetrics)
    (hroot : ReflTransGen (DependencyGraph.ofRegistry r).DependsOn root m.id) {f : Formula}
    (hread : Formula.read m.formula = .ok f) {e : Expr}
    (he : f.lower (r.expand visiting) = .ok e) :
    ∃ e', f.lower (r.overColumns visiting) = .ok e' ∧ e.Agrees (r.HoldsBases root) e' := by
  induction hn : (r.unvisited visiting).length using Nat.strong_induction_on
    generalizing visiting m f e with
  | _ n ih =>
  subst hn
  refine Formula.keepsAgreement.holds f (fun name hname e he _ h => h name (List.mem_singleton_self _)
    e he) e he (Formula.shaped_of_read hread) ?_
  intro name hname e he
  have hrefers := (refers_iff_of_read hr hm hread).2 hname
  cases hbase : r.baseMetric? name with
  | some b =>
    rw [expand_of_base hbase] at he
    obtain rfl := Except.ok.inj he
    obtain ⟨-, hid⟩ := hr.baseMetric?_eq_some_iff.1 hbase
    have hmem : name ∈ (DependencyGraph.ofRegistry r).transitiveBases root :=
      DependencyGraph.mem_transitiveBases.2 ⟨m.id, hroot, edge_of_base hr hbase hrefers⟩
    exact ⟨.ofColumn b.id, by rw [overColumns, hbase], fun engine s s' hs =>
      hid ▸ hs name hmem b hbase⟩
  | none =>
    cases hcalc : r.calculatedMetric? name with
    | none =>
      rw [expand_of_none hbase hcalc, hsystem m hm hroot f hread name hname] at he
      cases he
    | some m' =>
      obtain ⟨hm', rfl⟩ := hr.calculatedMetric?_eq_some_iff.1 hcalc
      by_cases hv : m'.id ∈ visiting
      · rw [expand_of_visiting hbase hcalc hv] at he
        cases he
      rw [expand_of_calculated hbase hcalc hv] at he
      simp only [Except.bind_eq_ok, Except.mapError_eq_ok] at he
      obtain ⟨f', hread', inner, hinner, he⟩ := he
      obtain rfl := Except.ok.inj he
      have hdepends := dependsOn_iff.2 ⟨hrefers, by simp [hcalc]⟩
      obtain ⟨inner', hinner', hagrees⟩ := ih _ (length_unvisited_lt hcalc hv) hm'
        (hroot.tail hdepends) hread' hinner rfl
      refine ⟨.nested inner', ?_, hagrees⟩
      rw [overColumns_of_calculated hbase hcalc hv]
      simp [hread', hinner', Except.mapError, Except.bind]

end Registry

end MetricLayer
