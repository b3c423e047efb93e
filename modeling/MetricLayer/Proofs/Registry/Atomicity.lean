import MetricLayer.Proofs.Registry.Editing

/-!
# Operations that fail

Most operations check everything before they store anything, so that one which
fails leaves the registry as it is. The two that change a metric store its new
definition first and then put what rests on it in order, which fails if the
dependents run in a circle (`exists_cascade_error_iff`); the new definition then
stays (`run_of_error`). Documents with such circles are accepted, and
`failed_and_changed_iff` says which operations on them fail half way.
-/

namespace MetricLayer.Registry

open Relation (ReflTransGen TransGen)
open DependencyGraph (ofRegistry)

variable {d : Sql.Dialect} {r r' : Registry} {id : String}

/-- The error of an edit that has failed. -/
def Edited.error? {α : Type} : Edited α → Option Error
  | (.error e, _) => some e
  | (.ok _, _) => none

/-- The error that an operation answers, if it fails. -/
def Operation.error? (d : Sql.Dialect) (r : Registry) : Operation → Option Error
  | addBaseMetric m => (r.addBaseMetric m).error?
  | updateBaseMetric m => (r.updateBaseMetric d m).error?
  | addCalculatedMetric m => (r.addCalculatedMetric d m).error?
  | updateCalculatedMetric m => (r.updateCalculatedMetric d m).error?
  | removeMetric id => (r.removeMetric id).error?
  | addDimension dim => (r.addDimension dim).error?
  | addCalculatedDimension dim => (r.addCalculatedDimension d dim).error?
  | removeDimension id => (r.removeDimension id).error?
  | validateAll => none
  | cascade id => (r.cascadeAndApply d id).error?

/-- The operation accepts a new definition of the metric `id`, and `r'` is the
registry with this definition stored and nothing compiled again. -/
inductive Operation.Replaces (d : Sql.Dialect) (r : Registry) :
    Operation → String → Registry → Prop where
  | base {m : BaseMetric} (valid : m.validate = .ok ()) (known : (r.baseMetric? m.id).isSome) :
      Replaces d r (.updateBaseMetric m) m.id (r.putBase m)
  | calculated {m : CalculatedMetric} {c : CompiledFormula}
      (known : (r.calculatedMetric? m.id).isSome)
      (compiles : r.compile d m.formula (some m.id) = .ok c) :
      Replaces d r (.updateCalculatedMetric m) m.id (r.putCalculated (m.withCompiled c))

/-! ## What is left after an error -/

theorem edit_of_error {α : Type} {outcome : Except Error (α × Registry)} {e : Error}
    (h : (r.edit outcome).error? = some e) : outcome = .error e ∧ (r.edit outcome).2 = r := by
  cases outcome with
  | error e' => exact ⟨congrArg _ (Option.some.inj h), rfl⟩
  | ok result => cases h

namespace Operation

/-- Once the new definition is stored, the operation is a cascade. -/
theorem Replaces.run_eq {op : Operation} (h : op.Replaces d r id r') :
    op.run d r = (r'.cascadeAndApply d id).2 ∧
      op.error? d r = (r'.cascadeAndApply d id).error? := by
  cases h with
  | base valid known =>
    have hknown := Option.isNone_eq_false_iff.2 known
    simp [run, error?, Registry.updateBaseMetric, valid, hknown]
  | calculated known compiles =>
    have hknown := Option.isNone_eq_false_iff.2 known
    simp [run, error?, Registry.updateCalculatedMetric, hknown, compiles]

/-- An operation that fails leaves the registry as it is, unless it has stored a
new definition. -/
theorem run_of_error {op : Operation} {e : Error} (h : op.error? d r = some e) :
    op.run d r = r ∨
      ∃ id r', op.Replaces d r id r' ∧ r'.cascade d id = .error e ∧ op.run d r = r' := by
  have hcascade {id : String} {r' : Registry} (hop : op.Replaces d r id r') :
      r'.cascade d id = .error e ∧ op.run d r = r' := by
    obtain ⟨hrun, herror⟩ := hop.run_eq
    obtain ⟨hfail, hsame⟩ := edit_of_error (herror.symm.trans h)
    refine ⟨?_, hrun.trans hsame⟩
    cases hresult : r'.cascade d id with
    | error e' => simpa [hresult, bind, Except.bind] using hfail
    | ok outcome => simp [hresult, bind, Except.bind] at hfail
  cases op with
  | addBaseMetric | addCalculatedMetric | removeMetric | addDimension | addCalculatedDimension
  | removeDimension | cascade => exact .inl (edit_of_error h).2
  | validateAll => cases h
  | updateBaseMetric m =>
    cases hvalid : m.validate with
    | error fault => exact .inl (by simp [run, Registry.updateBaseMetric, hvalid])
    | ok _ =>
      cases hknown : r.baseMetric? m.id with
      | none => exact .inl (by simp [run, Registry.updateBaseMetric, hvalid, hknown])
      | some old =>
        have hop : Replaces d r (.updateBaseMetric m) m.id (r.putBase m) :=
          .base hvalid (by simp [hknown])
        exact .inr ⟨_, _, hop, hcascade hop⟩
  | updateCalculatedMetric m =>
    cases hknown : r.calculatedMetric? m.id with
    | none => exact .inl (by simp [run, Registry.updateCalculatedMetric, hknown])
    | some old =>
      cases hc : r.compile d m.formula (some m.id) with
      | error e' => exact .inl (by simp [run, Registry.updateCalculatedMetric, hknown, hc])
      | ok c =>
        have hop : Replaces d r (.updateCalculatedMetric m) m.id
            (r.putCalculated (m.withCompiled c)) := .calculated (by simp [hknown]) hc
        exact .inr ⟨_, _, hop, hcascade hop⟩

end Operation

/-! ## Cascades that fail -/

/-- A cascade from a known metric fails just where dependencies among its
dependents run in a circle. -/
theorem exists_cascade_error_iff
    (hid : (r.baseMetric? id).isSome ∨ (r.calculatedMetric? id).isSome) :
    (∃ e, r.cascade d id = .error e) ↔
      ∃ x, TransGen ((ofRegistry r).DependsOnIn ((ofRegistry r).transitiveDependents id)) x x := by
  have hsorted := (ofRegistry r).pairwise_transitiveDependents id
  have horder := DependencyGraph.exists_topologicalOrder_iff hsorted
    fun x hx y hyx => dependsOn_of_mem_transitiveDependents hx hyx
  have hknown : ((r.baseMetric? id).isNone && (r.calculatedMetric? id).isNone) = false := by
    rw [Bool.and_eq_false_iff, Option.isNone_eq_false_iff, Option.isNone_eq_false_iff]
    exact hid
  rw [← not_iff_not, not_exists, not_exists, ← horder, cascade, if_neg (by simp [hknown])]
  cases hresult : (ofRegistry r).topologicalOrder ((ofRegistry r).transitiveDependents id) with
  | error e => simp [hresult, bind, Except.bind]
  | ok order => simp [hresult, bind, Except.bind]

/-- A circle through a dependent of `id` that leaves `id` out runs through
dependents only. -/
theorem transGen_dependsOnIn {x : String} (hx : x ∈ (ofRegistry r).transitiveDependents id)
    (hid : ¬ TransGen (ofRegistry r).DependsOn id id)
    (hcycle : TransGen (ofRegistry r).DependsOn x x) :
    TransGen ((ofRegistry r).DependsOnIn ((ofRegistry r).transitiveDependents id)) x x := by
  have hchain := (DependencyGraph.mem_transitiveDependents.1 hx).2
  have hmem {y : String} (hxy : TransGen (ofRegistry r).DependsOn x y)
      (hyx : ReflTransGen (ofRegistry r).DependsOn y x) :
      y ∈ (ofRegistry r).transitiveDependents id := by
    refine DependencyGraph.mem_transitiveDependents.2 ⟨?_, ?_⟩
    · rintro rfl
      exact hid (hxy.trans_right hyx)
    · exact (ReflTransGen.mono (fun _ _ => DependencyGraph.DependsOn.refers) _ _ hyx).trans hchain
  have hinside {y : String} (hxy : TransGen (ofRegistry r).DependsOn x y)
      (hyx : ReflTransGen (ofRegistry r).DependsOn y x) :
      TransGen ((ofRegistry r).DependsOnIn ((ofRegistry r).transitiveDependents id)) x y := by
    induction hxy with
    | single hxy => exact .single ⟨hx, hmem (.single hxy) hyx, hxy⟩
    | @tail y z hxy hyz ih =>
      have hback := hyx.head hyz
      exact (ih hback).tail ⟨hmem hxy hback, hmem (hxy.tail hyz) hyx, hyz⟩
  exact hinside hcycle .refl

/-! ## Which operations fail half way -/

namespace Operation.Replaces

variable {op : Operation}

theorem known (h : op.Replaces d r id r') :
    (r'.baseMetric? id).isSome ∨ (r'.calculatedMetric? id).isSome := by
  cases h with
  | @base m _ known =>
    obtain ⟨old, hold, hid⟩ := isSome_baseMetric?_iff.1 known
    exact .inl (isSome_baseMetric?_iff.2
      ⟨m, List.mem_map.2 ⟨old, hold, if_pos (by simpa using hid)⟩, rfl⟩)
  | @calculated m c known =>
    obtain ⟨old, hold, hid⟩ := isSome_calculatedMetric?_iff.1 known
    exact .inr (isSome_calculatedMetric?_iff.2
      ⟨_, mem_putCalculated.2 (.inl ⟨rfl, old, hold, hid⟩), rfl⟩)

/-- The new definition does not rest on itself: a base metric rests on nothing, and
a formula that leads back to its own metric is not accepted. -/
theorem not_cyclic (hr : r.WellFormed) (h : op.Replaces d r id r') :
    ¬ TransGen (ofRegistry r').DependsOn id id := by
  intro hcycle
  obtain ⟨b, hb, hback⟩ := TransGen.head'_iff.1 hcycle
  obtain ⟨hrefers, hcalc⟩ := dependsOn_iff.1 hb
  obtain ⟨m', hm', hid, hmem⟩ := refers_iff.1 hrefers
  cases h with
  | @base m _ known =>
    have hbase := hr.baseMetric?_eq_none (m := m') hm'
    rw [hid] at hbase
    simp [hbase] at known
  | @calculated m c known compiles =>
    have hr' : (r.putCalculated (m.withCompiled c)).WellFormed :=
      hr.of_sublist (metricIds_putCalculated r _ ▸ List.Sublist.refl _)
    have hoff : SameOff m.id r (r.putCalculated (m.withCompiled c)) :=
      sameOff_putCalculated r (m.withCompiled c)
    obtain rfl : m' = m.withCompiled c := by
      rcases mem_putCalculated.1 hm' with ⟨heq, -⟩ | ⟨-, hne⟩
      · exact heq
      · exact absurd hid hne
    obtain ⟨references, hext, -⟩ := readsOnly_of_compile compiles
    have hname : b ∈ m.referredIds :=
      (mem_referredIds hext).2 ((mem_referredIds (m := m.withCompiled c) hext).1 hmem)
    have hreach : ReflTransGen (ofRegistry r).DependsOn b m.id :=
      DependencyGraph.reaches_of_changed
        (fun _ _ ha hab => hoff.dependsOn hr' (fun _ _ _ _ => known) ha hab) hback
    -- `b` is a calculated metric of the registry before, or the changed one itself
    obtain ⟨mb, hmb, rfl⟩ := isSome_calculatedMetric?_iff.1 hcalc
    have hb' : (r.calculatedMetric? mb.id).isSome := by
      rcases mem_putCalculated.1 hmb with ⟨rfl, -⟩ | ⟨hmb, -⟩
      · exact known
      · exact isSome_calculatedMetric?_iff.2 ⟨mb, hmb, rfl⟩
    obtain ⟨old, hold, hid'⟩ := isSome_calculatedMetric?_iff.1 hb'
    exact not_dependsOn_of_compile compiles hname (hid' ▸ hr.baseMetric?_eq_none hold)
      (by rw [isCalculatedFor, hb', Bool.true_or]) hreach

end Operation.Replaces

/-- On an accepted document, the operations that fail and yet change the document
are the changes of a metric which some dependent of the metric makes fail, by
resting on itself. -/
theorem failed_and_changed_iff {document : SchemaDocument} (accepted : ofDocument document = .ok r)
    (op : Operation) :
    (op.error? d r).isSome ∧ (op.run d r).document ≠ r.document ↔
      ∃ id r', op.Replaces d r id r' ∧ r'.document ≠ r.document ∧
        ∃ x ∈ (ofRegistry r').transitiveDependents id, TransGen (ofRegistry r').DependsOn x x := by
  have hr := wellFormed_ofDocument accepted
  constructor
  · rintro ⟨herror, hchanged⟩
    obtain ⟨e, he⟩ := Option.isSome_iff_exists.1 herror
    rcases Operation.run_of_error he with hsame | ⟨id, r', hop, hcascade, hrun⟩
    · exact absurd (congrArg Registry.document hsame) hchanged
    · obtain ⟨x, hcycle⟩ := (exists_cascade_error_iff hop.known).1 ⟨e, hcascade⟩
      obtain ⟨y, hxy, -⟩ := TransGen.head'_iff.1 hcycle
      exact ⟨id, r', hop, hrun ▸ hchanged, x, hxy.1,
        TransGen.mono (fun _ _ h => h.2.2) _ _ hcycle⟩
  · rintro ⟨id, r', hop, hchanged, x, hx, hcycle⟩
    obtain ⟨e, he⟩ := (exists_cascade_error_iff hop.known (d := d)).2
      ⟨x, transGen_dependsOnIn hx (hop.not_cyclic hr) hcycle⟩
    obtain ⟨hrun, herror⟩ := hop.run_eq
    have hedit : r'.cascadeAndApply d id = (.error e, r') := by
      simp [cascadeAndApply, he, bind, Except.bind, edit]
    rw [hrun, herror, hedit]
    exact ⟨rfl, hchanged⟩

/-- A document with the base metric `sales` over a column, and two calculated
metrics that rest on it and on each other. -/
def circularDocument (column : String) : SchemaDocument where
  table := "sales"
  sourceTable := "raw.sales"
  baseMetrics := [{ id := "sales", sourceColumns := [column], aggregation := .sum }]
  calculatedMetrics := [{ id := "a", formula := "{b} + {sales}" }, { id := "b", formula := "{a}" }]

/-- A new column for `sales`, which `a` and `b` make fail half way. -/
theorem failed_and_changed_of_circle :
    ofDocument (circularDocument "amount") = .ok ⟨circularDocument "amount"⟩ ∧
      let op := Operation.updateBaseMetric
        { id := "sales", sourceColumns := ["net_amount"], aggregation := .sum }
      (op.error? .bigQuery ⟨circularDocument "amount"⟩).isSome ∧
        (op.run .bigQuery ⟨circularDocument "amount"⟩).document ≠ circularDocument "amount" := by
  have accepted : ofDocument (circularDocument "amount") = .ok ⟨circularDocument "amount"⟩ := by
    obtain ⟨r, hr⟩ := Except.exists_of_toBool (x := ofDocument (circularDocument "amount"))
      (by decide +kernel)
    rw [hr, document_of_ofDocument hr]
  refine ⟨accepted, (failed_and_changed_iff accepted _).2 ?_⟩
  have hab : (ofRegistry ⟨circularDocument "net_amount"⟩).DependsOn "a" "b" := by
    unfold DependencyGraph.DependsOn
    decide +kernel
  have hba : (ofRegistry ⟨circularDocument "net_amount"⟩).DependsOn "b" "a" := by
    unfold DependencyGraph.DependsOn
    decide +kernel
  exact ⟨"sales", ⟨circularDocument "net_amount"⟩, .base rfl (by decide +kernel),
    by decide +kernel, "a", by decide +kernel, .tail (.single hab) hba⟩

/-- An operation on an accepted document that fails and changes it. -/
theorem exists_failed_and_changed :
    ∃ document r, ofDocument document = .ok r ∧ ∃ op : Operation,
      (op.error? .bigQuery r).isSome ∧ (op.run .bigQuery r).document ≠ document := by
  obtain ⟨r, hr⟩ := Except.exists_of_toBool (x := ofDocument (circularDocument "amount"))
    (by decide +kernel)
  obtain rfl := document_of_ofDocument hr
  exact ⟨_, _, hr, .updateBaseMetric
    { id := "sales", sourceColumns := ["net_amount"], aggregation := .sum },
    by decide +kernel, by decide +kernel⟩

end MetricLayer.Registry
