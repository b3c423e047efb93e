import MetricLayer.Proofs.Formula.Columns
import MetricLayer.Proofs.Formula.Emission
import MetricLayer.Proofs.Formula.Meaning
import MetricLayer.Proofs.Registry.Editing
import MetricLayer.Route.Router

/-!
# What stands for references in an expression

The expression of a formula holds what its references stand for, and what stands
for the references in the formulas of calculated metrics that it leads to
(`Registry.StandsFor`). The graph, which knows the references from the texts alone,
tells the same: a metric stands somewhere in the expression exactly if a chain of
references leads to it (`Registry.leadsTo_iff`), so a calculated metric rests on the
base metrics that its expression aggregates, and on a system metric exactly if the
expression counts days (`Registry.graph_agrees_of_compile`).
-/

namespace MetricLayer

open Relation (ReflTransGen)
open Sql (Expr)

namespace Sql.Expr

theorem self_mem_nodes (e : Expr) : e ∈ e.nodes := by
  rw [nodes.eq_def]
  exact List.mem_cons_self

theorem nodes_apply (op : ArithOp) (l r : Expr) :
    (op.apply l r).nodes = op.apply l r :: (l.nodes ++ r.nodes) := by
  cases op <;> simp [ArithOp.apply, nodes, nodesOf]

/-- The days between two dates, or the days in range. -/
def CountsDays : Expr → Prop
  | .call .dateDiff _ | .binary .add (.call .dateDiff _) _ => True
  | _ => False

theorem countsDays_of_apply {op : ArithOp} {l r : Expr} (h : (op.apply l r).CountsDays) :
    l.CountsDays := by
  cases op with
  | add =>
    rw [ArithOp.apply] at h
    unfold CountsDays at h
    split at h
    · rename_i heq
      cases heq
    · rename_i heq
      rw [(binary.inj heq).2.1]
      trivial
    · exact h.elim
  | subtract | multiply | divide | modulo => exact h.elim

end Sql.Expr

namespace Registry

/-- In the expression `e` of the formula `f` the expression `part` stands for a
reference to `name`, be it in `f` or in the formula of a calculated metric that `f`
leads to. -/
inductive StandsFor (r : Registry) (name : String) (part : Expr) : Formula → Expr → Prop where
  | here : StandsFor r name part (.reference name) part
  | inside {id : String} {m : CalculatedMetric} {f : Formula} {e : Expr}
      (known : r.metric? id = some (.calculated m)) (parsed : Formula.read m.formula = .ok f)
      (inner : StandsFor r name part f e) : StandsFor r name part (.reference id) (.nested e)
  | negate {f : Formula} {e : Expr} (inner : StandsFor r name part f e) :
      StandsFor r name part (.negate f) (.negate e)
  | group {f : Formula} {e : Expr} (inner : StandsFor r name part f e) :
      StandsFor r name part (.group f) (.nested e)
  | left {op : ArithOp} {f g : Formula} {e e' : Expr} (inner : StandsFor r name part f e) :
      StandsFor r name part (.binary op f g) (op.apply e e')
  | right {op : ArithOp} {f g : Formula} {e e' : Expr} (inner : StandsFor r name part g e') :
      StandsFor r name part (.binary op f g) (op.apply e e')
  | argument {called : String} {function : Sql.Function} {fs : List Formula} {es : List Expr}
      {f : Formula} {e : Expr} (beside : (f, e) ∈ fs.zip es) (inner : StandsFor r name part f e) :
      StandsFor r name part (.call called fs) (.call function es)

/-- The formula `f` refers to `name`, directly or through calculated metrics. -/
def LeadsTo (r : Registry) (f : Formula) (name : String) : Prop :=
  ∃ g, r.Involves f g ∧ name ∈ g.references

variable {r : Registry} {visiting : List String} {f g : Formula} {e part : Expr} {name : String}

/-- What stands for a reference is a part of the expression. -/
theorem StandsFor.nodes_subset (h : r.StandsFor name part f e) : part.nodes ⊆ e.nodes := by
  induction h with
  | here => exact List.Subset.refl _
  | inside _ _ _ ih | negate _ ih | group _ ih =>
    rw [Expr.nodes]
    exact List.subset_cons_of_subset _ ih
  | left _ ih =>
    rw [Expr.nodes_apply]
    exact List.subset_cons_of_subset _ (List.subset_append_of_subset_left _ ih)
  | right _ ih =>
    rw [Expr.nodes_apply]
    exact List.subset_cons_of_subset _ (List.subset_append_of_subset_right _ ih)
  | argument beside _ ih =>
    rw [Expr.nodes]
    exact fun node hnode => List.mem_cons_of_mem _
      (Expr.mem_nodesOf.2 ⟨_, (List.of_mem_zip beside).2, ih hnode⟩)

theorem StandsFor.mem_nodes (h : r.StandsFor name part f e) : part ∈ e.nodes :=
  h.nodes_subset (Expr.self_mem_nodes part)

theorem LeadsTo.mono (h : r.LeadsTo f name) (hsub : f.references ⊆ g.references) :
    r.LeadsTo g name := by
  obtain ⟨inner, hinner, hname⟩ := h
  cases hinner with
  | self => exact ⟨g, .self g, hsub hname⟩
  | through referred known parsed rest =>
    exact ⟨inner, .through (hsub referred) known parsed rest, hname⟩

theorem LeadsTo.through {id : String} {m : CalculatedMetric} (h : r.LeadsTo g name)
    (hid : id ∈ f.references) (known : r.metric? id = some (.calculated m))
    (parsed : Formula.read m.formula = .ok g) : r.LeadsTo f name := by
  obtain ⟨inner, hinner, hname⟩ := h
  exact ⟨inner, .through hid known parsed hinner, hname⟩

theorem references_subset_referencesOf {fs : List Formula} (h : f ∈ fs) :
    f.references ⊆ Formula.referencesOf fs := by
  induction fs with
  | nil => cases h
  | cons g rest ih =>
    rw [Formula.referencesOf]
    rcases List.mem_cons.1 h with rfl | h
    · exact List.subset_append_left _ _
    · exact List.Subset.trans (ih h) (List.subset_append_right _ _)

theorem StandsFor.leadsTo (h : r.StandsFor name part f e) : r.LeadsTo f name := by
  induction h with
  | here => exact ⟨_, .self _, List.mem_singleton_self name⟩
  | inside known parsed _ ih => exact ih.through (List.mem_singleton_self _) known parsed
  | negate _ ih | group _ ih => exact ih.mono (List.Subset.refl _)
  | left _ ih => exact ih.mono (List.subset_append_left _ _)
  | right _ ih => exact ih.mono (List.subset_append_right _ _)
  | argument beside _ ih =>
    exact ih.mono (references_subset_referencesOf (List.of_mem_zip beside).1)

end Registry

namespace Formula

variable {r : Registry} {resolve : String → Except Error Expr}

/-- The expression of a formula holds what its references are resolved to. -/
theorem keepsReferences : KeptByLowering resolve fun f e => ∀ id ∈ f.references,
    ∃ e', resolve id = .ok e' ∧ ∀ name part, r.StandsFor name part (.reference id) e' →
      r.StandsFor name part f e where
  number _ := by simp [references]
  literal _ := by simp [references]
  negate f e _ h id hid := by
    obtain ⟨e', he', hstands⟩ := h id hid
    exact ⟨e', he', fun name part hpart => .negate (hstands name part hpart)⟩
  group f e h id hid := by
    obtain ⟨e', he', hstands⟩ := h id hid
    exact ⟨e', he', fun name part hpart => .group (hstands name part hpart)⟩
  binary op l rt L R hl hr id hid := by
    rw [references, List.mem_append] at hid
    rcases hid with hid | hid
    · obtain ⟨e', he', hstands⟩ := hl id hid
      exact ⟨e', he', fun name part hpart => .left (hstands name part hpart)⟩
    · obtain ⟨e', he', hstands⟩ := hr id hid
      exact ⟨e', he', fun name part hpart => .right (hstands name part hpart)⟩
  call called function fs es _ harity h id hid := by
    clear harity
    suffices hargument : ∃ e', resolve id = .ok e' ∧ ∀ name part,
        r.StandsFor name part (.reference id) e' →
          ∃ x ∈ fs.zip es, r.StandsFor name part x.1 x.2 by
      obtain ⟨e', he', hstands⟩ := hargument
      refine ⟨e', he', fun name part hpart => ?_⟩
      obtain ⟨x, hx, hinner⟩ := hstands name part hpart
      exact .argument hx hinner
    rw [references] at hid
    induction h with
    | nil => cases hid
    | @cons f e fs es hf _ ih =>
      rw [referencesOf, List.mem_append] at hid
      rcases hid with hid | hid
      · obtain ⟨e', he', hstands⟩ := hf id hid
        exact ⟨e', he', fun name part hpart =>
          ⟨(f, e), List.mem_cons_self, hstands name part hpart⟩⟩
      · obtain ⟨e', he', hstands⟩ := ih hid
        refine ⟨e', he', fun name part hpart => ?_⟩
        obtain ⟨x, hx, hinner⟩ := hstands name part hpart
        exact ⟨x, List.mem_cons_of_mem _ hx, hinner⟩

/-- Days are counted by references only. -/
theorem keepsUncounted : KeptByLowering resolve fun f e =>
    (∀ id ∈ f.references, ∀ e', resolve id = .ok e' → ∀ node ∈ e'.nodes, ¬ node.CountsDays) →
      ∀ node ∈ e.nodes, ¬ node.CountsDays where
  number _ _ := by simp [Expr.nodes, Expr.CountsDays]
  literal _ _ := by simp [Expr.ofText, Expr.nodes, Expr.CountsDays]
  negate _ _ _ h hrefs := List.forall_mem_cons.2 ⟨id, h hrefs⟩
  group _ _ h hrefs := List.forall_mem_cons.2 ⟨id, h hrefs⟩
  binary op l rt L R hl hr hrefs := by
    rw [references, List.forall_mem_append] at hrefs
    rw [Expr.nodes_apply, List.forall_mem_cons, List.forall_mem_append]
    have hleft := hl hrefs.1
    exact ⟨fun h => hleft L L.self_mem_nodes (Expr.countsDays_of_apply h), hleft, hr hrefs.2⟩
  call _ function fs es hf harity h hrefs := by
    obtain ⟨-, hdate⟩ := ne_of_ofFormulaName? hf
    rw [Expr.nodes, List.forall_mem_cons]
    refine ⟨?_, ?_⟩
    · cases function <;> first | exact id | exact absurd rfl hdate
    · rw [references] at hrefs
      clear hf hdate harity
      induction h with
      | nil => simp [Expr.nodesOf]
      | cons hhead _ ih =>
        rw [referencesOf, List.forall_mem_append] at hrefs
        rw [Expr.nodesOf, List.forall_mem_append]
        exact ⟨hhead hrefs.1, ih hrefs.2⟩

end Formula

namespace Registry

variable {r : Registry} {visiting : List String} {f g : Formula} {e : Expr} {name id : String}
  {m : CalculatedMetric}

/-! ## What is expanded -/

/-- To whatever a formula leads, something stands for it in the expression. -/
theorem exists_standsFor (h : f.lower (r.expand visiting) = .ok e) (hname : r.LeadsTo f name) :
    ∃ part, r.StandsFor name part f e ∧ r.Expands (fun _ _ => True) name part := by
  revert hname
  refine holds_of_lower (P := fun f e => r.LeadsTo f name →
    ∃ part, r.StandsFor name part f e ∧ r.Expands (fun _ _ => True) name part) ?_ h
  intro resolve f e h hresolve
  have hstands := Formula.keepsReferences (r := r).holds f (fun id _ e he => by
    simpa [Formula.references] using ⟨e, he, fun _ _ hpart => hpart⟩) e h
  rintro ⟨g, hg, hname⟩
  cases hg with
  | self =>
    obtain ⟨part, hpart, hhere⟩ := hstands name hname
    refine ⟨part, hhere name part .here, ?_⟩
    cases hresolve name part hpart with
    | base known => exact .base known
    | calculated known parsed _ => exact .calculated known parsed trivial
    | system known => exact .system known
  | @through _ _ inner id m referred known parsed rest =>
    obtain ⟨e', he', hhere⟩ := hstands id referred
    cases hresolve id e' he' with
    | base known' | system known' => simp [known] at known'
    | @calculated m' f' e' known' parsed' hinner =>
      obtain rfl := MetricKind.calculated.inj (Option.some.inj (known.symm.trans known'))
      obtain rfl := Except.ok.inj (parsed.symm.trans parsed')
      obtain ⟨part, hpart, hexpands⟩ := hinner ⟨g, rest, hname⟩
      exact ⟨part, hhere name part (.inside known parsed hpart), hexpands⟩

/-- A base metric to which a formula leads is aggregated in the expression. -/
theorem standsFor_iff_leadsTo {b : BaseMetric} (h : f.lower (r.expand visiting) = .ok e)
    (hb : r.baseMetric? name = some b) : r.StandsFor name b.expr f e ↔ r.LeadsTo f name := by
  refine ⟨StandsFor.leadsTo, fun hname => ?_⟩
  obtain ⟨part, hpart, hexpands⟩ := exists_standsFor h hname
  have hmetric := metric?_eq_base_iff.2 hb
  cases hexpands with
  | base known =>
    obtain rfl := MetricKind.base.inj (Option.some.inj (hmetric.symm.trans known))
    exact hpart
  | calculated known | system known => simp [hmetric] at known

theorem id_of_metric? {s : SystemMetric} (h : r.metric? name = some (.system s)) : s.id = name := by
  obtain ⟨-, -, hs⟩ := metric?_eq_system_iff.1 h
  simpa using List.find?_some hs

theorem not_countsDays_of_base (b : BaseMetric) : ∀ node ∈ b.expr.nodes, ¬ node.CountsDays := by
  rw [BaseMetric.expr, Expr.nodes, List.forall_mem_cons]
  refine ⟨fun h => h, ?_⟩
  rcases b.input_cases with ⟨columns, -, hinput⟩ | ⟨column, hinput⟩
  · rw [hinput]
    refine Sql.forall_nodes_compositeKey (fun h => h) (fun h => h) fun column => ?_
    simp [Expr.keyPart, Expr.replaceAll, Expr.ofColumn, Expr.ofText, Expr.nodes, Expr.nodesOf,
      Expr.CountsDays]
  · simp [hinput, Expr.ofColumn, Expr.nodes, Expr.CountsDays]

/-- A formula that leads to no system metric counts no days. -/
theorem not_countsDays_of_lower (h : f.lower (r.expand visiting) = .ok e)
    (hsystem : ∀ name, r.LeadsTo f name → ∀ s, r.metric? name ≠ some (.system s)) :
    ∀ node ∈ e.nodes, ¬ node.CountsDays := by
  revert hsystem
  refine holds_of_lower (P := fun f e =>
    (∀ name, r.LeadsTo f name → ∀ s, r.metric? name ≠ some (.system s)) →
      ∀ node ∈ e.nodes, ¬ node.CountsDays) ?_ h
  intro resolve f e h hresolve hsystem
  have hkept := Formula.keepsUncounted.holds f
    (fun id hid e he hrefs => hrefs id (List.mem_singleton_self id) e he) e h
  refine hkept fun id hid e he => ?_
  cases hresolve id e he with
  | base => exact not_countsDays_of_base _
  | calculated known parsed hinner =>
    rw [Expr.nodes, List.forall_mem_cons]
    exact ⟨fun h => h, hinner fun name hname => hsystem name (hname.through hid known parsed)⟩
  | system known => exact absurd known (hsystem id ⟨f, .self f, hid⟩ _)

/-! ## What the graph tells -/

/-- A formula that another involves is that of a metric to which the graph leads. -/
theorem exists_of_involves (hm : m ∈ r.calculatedMetrics) (hread : Formula.read m.formula = .ok f)
    (h : r.Involves f g) :
    ∃ m' ∈ r.calculatedMetrics, Formula.read m'.formula = .ok g ∧
      ReflTransGen (DependencyGraph.ofRegistry r).DependsOn m.id m'.id := by
  induction h generalizing m with
  | self => exact ⟨m, hm, hread, .refl⟩
  | @through _ _ _ name inner referred known parsed _ ih =>
    obtain ⟨-, hcalc⟩ := metric?_eq_calculated_iff.1 known
    obtain ⟨m', hm', hread', hchain⟩ := ih (List.mem_of_find?_eq_some hcalc) parsed
    have hid : inner.id = name := by simpa using List.find?_some hcalc
    have hdepends : (DependencyGraph.ofRegistry r).DependsOn m.id inner.id :=
      dependsOn_iff.2 ⟨refers_iff.2 ⟨m, hm, rfl, hid ▸ (mem_referredIds_of_read hread).2 referred⟩,
        by simp [hid, hcalc]⟩
    exact ⟨m', hm', hread', hchain.head hdepends⟩

/-- A formula that is lowered leads to what the graph leads to. -/
theorem leadsTo_iff (hr : r.WellFormed) (hm : m ∈ r.calculatedMetrics)
    (hread : Formula.read m.formula = .ok f) (h : f.lower (r.expand visiting) = .ok e) :
    r.LeadsTo f name ↔ ∃ x, ReflTransGen (DependencyGraph.ofRegistry r).DependsOn m.id x ∧
      (DependencyGraph.ofRegistry r).Refers x name := by
  constructor
  · rintro ⟨g, hg, hname⟩
    obtain ⟨m', hm', hread', hchain⟩ := exists_of_involves hm hread hg
    exact ⟨m'.id, hchain, (refers_iff_of_read hr hm' hread').2 hname⟩
  · rintro ⟨x, hx, hname⟩
    -- every metric of the chain is expanded inside the one before
    generalize hid : m.id = id at hx
    induction hx using ReflTransGen.head_induction_on generalizing m f visiting e with
    | refl => exact ⟨f, .self f, (refers_iff_of_read hr hm hread).1 (hid ▸ hname)⟩
    | @head a b hab _ ih =>
      subst hid
      obtain ⟨hrefers, hcalc⟩ := dependsOn_iff.1 hab
      have hb := (refers_iff_of_read hr hm hread).1 hrefers
      obtain ⟨e', he'⟩ := Formula.exists_of_lower h b hb
      have hexpands : r.Expands (fun f e => f.lower (r.expand (visiting ++ [b])) = .ok e) b e' :=
        expands_of_expand he' fun _ _ _ _ _ hlower => hlower
      obtain ⟨m', hm'⟩ := Option.isSome_iff_exists.1 hcalc
      obtain ⟨hmem, hid⟩ := hr.calculatedMetric?_eq_some_iff.1 hm'
      have known := hr.metric?_eq_calculated_iff.2 hm'
      cases hexpands with
      | base known' | system known' => simp [known] at known'
      | calculated known' parsed hlower =>
        obtain rfl := MetricKind.calculated.inj (Option.some.inj (known.symm.trans known'))
        exact (ih hmem parsed hlower hid).through hb known parsed

/-- A metric whose formula is lowered rests on the base metrics that the formula leads
to. -/
theorem mem_transitiveBases_iff (hr : r.WellFormed) (hm : m ∈ r.calculatedMetrics)
    (hread : Formula.read m.formula = .ok f) (h : f.lower (r.expand visiting) = .ok e) :
    id ∈ (DependencyGraph.ofRegistry r).transitiveBases m.id ↔
      ∃ b, r.baseMetric? id = some b ∧ r.LeadsTo f id := by
  rw [DependencyGraph.mem_transitiveBases]
  constructor
  · rintro ⟨x, hx, hedge⟩
    obtain ⟨b, hb⟩ := Option.isSome_iff_exists.1 (isSome_baseMetric?_of_edge hedge)
    exact ⟨b, hb, (leadsTo_iff hr hm hread h).2 ⟨x, hx, _, hedge⟩⟩
  · rintro ⟨b, hb, hleads⟩
    obtain ⟨x, hx, hrefers⟩ := (leadsTo_iff hr hm hread h).1 hleads
    exact ⟨x, hx, edge_of_base hr hb hrefers⟩

/-! ## System metrics -/

/-- A metric uses a system metric if it rests on a metric whose formula names one. -/
theorem usesSystemMetric_iff (hr : r.WellFormed) : r.usesSystemMetric id = true ↔
    ∃ m ∈ r.calculatedMetrics, m.readsSystemMetric = true ∧
      ReflTransGen (DependencyGraph.ofRegistry r).DependsOn id m.id := by
  simp only [usesSystemMetric, List.any_eq_true, DependencyGraph.mem_reachable, Option.any_eq_true,
    hr.calculatedMetric?_eq_some_iff]
  constructor
  · rintro ⟨_, hchain, m, ⟨hm, rfl⟩, hreads⟩
    exact ⟨m, hm, hreads, hchain⟩
  · rintro ⟨m, hm, hreads, hchain⟩
    exact ⟨m.id, hchain, m, ⟨hm, rfl⟩, hreads⟩

theorem exists_of_readsSystemMetric (h : m.readsSystemMetric = true) :
    ∃ s : SystemMetric, s.id ∈ m.referredIds := by
  rw [CalculatedMetric.readsSystemMetric] at h
  split at h <;> [skip; cases h]
  rename_i references hextract
  obtain ⟨x, hx, hsome⟩ := List.any_eq_true.1 h
  obtain ⟨s, hs⟩ := Option.isSome_iff_exists.1 hsome
  have hid : s.id = x.name := by simpa using List.find?_some hs
  exact ⟨s, (mem_referredIds hextract).2 ⟨x, hx, hid.symm⟩⟩

theorem readsSystemMetric_of_mem (hread : Formula.read m.formula = .ok f) {s : SystemMetric}
    (h : s.id ∈ f.references) : m.readsSystemMetric = true := by
  obtain ⟨references, hextract, hnames⟩ := Formula.extractReferences_of_read hread
  rw [← hnames, List.mem_map] at h
  obtain ⟨x, hx, hid⟩ := h
  rw [CalculatedMetric.readsSystemMetric, hextract]
  refine List.any_eq_true.2 ⟨x, hx, ?_⟩
  rw [hid]
  cases s
  decide

/-- The id of a system metric stands for nothing else. -/
theorem WellFormed.metric?_system (hr : r.WellFormed) (s : SystemMetric) :
    r.metric? s.id = some (.system s) := by
  have hreserved : s.id ∉ r.metricIds := fun hmem => by
    have hnone := hr.unreserved s.id hmem
    cases s
    exact absurd hnone (by decide)
  rw [metricIds, List.mem_append, not_or, List.mem_map, List.mem_map, ← isSome_baseMetric?_iff,
    ← isSome_calculatedMetric?_iff, Option.not_isSome_iff_eq_none,
    Option.not_isSome_iff_eq_none] at hreserved
  refine metric?_eq_system_iff.2 ⟨hreserved.1, hreserved.2, ?_⟩
  cases s
  rfl

/-- A system metric to which a formula leads is expanded in the expression. -/
theorem standsFor_of_system (hr : r.WellFormed) (h : f.lower (r.expand visiting) = .ok e)
    {s : SystemMetric} (hname : r.LeadsTo f s.id) :
    r.StandsFor s.id (s.expr r.dateColumn) f e := by
  obtain ⟨part, hpart, hexpands⟩ := exists_standsFor h hname
  have hmetric := hr.metric?_system s
  cases hexpands with
  | base known | calculated known => simp [hmetric] at known
  | @system s' known =>
    cases s
    cases s'
    exact hpart

/-- **Graph and expression agree**: a calculated metric that compiles rests on the
base metrics whose aggregates stand for references in its expression, and on a
system metric exactly if its expression counts days in range. -/
theorem graph_agrees_of_compile {document : SchemaDocument} (hr : ofDocument document = .ok r)
    (hm : m ∈ r.calculatedMetrics) {d : Sql.Dialect} {c : CompiledFormula}
    (hc : r.compile d m.formula (some m.id) = .ok c) :
    ∃ f, Formula.read m.formula = .ok f ∧
      (∀ id, id ∈ (DependencyGraph.ofRegistry r).transitiveBases m.id ↔
        ∃ b, r.baseMetric? id = some b ∧ r.StandsFor id b.expr f c.expr) ∧
      (r.usesSystemMetric m.id = true ↔
        SystemMetric.daysInRange.expr r.dateColumn ∈ c.expr.nodes) := by
  have hwf := wellFormed_ofDocument hr
  obtain ⟨_, f, hcompiled⟩ := compile_eq_ok_iff.1 hc
  have hread := hcompiled.parsed
  have hlower := hcompiled.lowered
  refine ⟨f, hread, fun id => ?_, ?_⟩
  · rw [mem_transitiveBases_iff hwf hm hread hlower]
    exact exists_congr fun b => and_congr_right fun hb => (standsFor_iff_leadsTo hlower hb).symm
  · rw [usesSystemMetric_iff hwf]
    constructor
    · rintro ⟨m', hm', hreads, hchain⟩
      obtain ⟨s, hs⟩ := exists_of_readsSystemMetric hreads
      have hleads := (leadsTo_iff hwf hm hread hlower).2
        ⟨m'.id, hchain, refers_iff.2 ⟨m', hm', rfl, hs⟩⟩
      cases s
      exact (standsFor_of_system hwf hlower hleads).mem_nodes
    · intro hdays
      by_contra hnone
      refine not_countsDays_of_lower hlower ?_ _ hdays trivial
      rintro name ⟨g, hg, hname⟩ s hs
      obtain ⟨m', hm', hread', hchain⟩ := exists_of_involves hm hread hg
      exact hnone ⟨m', hm', readsSystemMetric_of_mem hread' (id_of_metric? hs ▸ hname), hchain⟩

/-- The cost of a click, and what a day costs per click. -/
def costADay : SchemaDocument :=
  { clicksDocument with calculatedMetrics := [
      { id := "cpc", formula := "{cost} / {clicks}" },
      { id := "daily", formula := "{cpc} / {days_in_range}" }] }

/-- The cost of a click a day rests on cost and clicks, which it names nowhere. -/
theorem graph_agrees_of_costADay : ∃ r c f, ofDocument costADay = .ok r ∧
    r.compile .bigQuery "{cpc} / {days_in_range}" (some "daily") = .ok c ∧
    Formula.read "{cpc} / {days_in_range}" = .ok f ∧
    (DependencyGraph.ofRegistry r).transitiveBases "daily" = ["clicks", "cost"] ∧
    (∀ id, id ∈ (DependencyGraph.ofRegistry r).transitiveBases "daily" ↔
      ∃ b, r.baseMetric? id = some b ∧ r.StandsFor id b.expr f c.expr) ∧
    (r.usesSystemMetric "daily" = true ↔
      SystemMetric.daysInRange.expr r.dateColumn ∈ c.expr.nodes) := by
  obtain ⟨r, hr⟩ := Except.exists_of_toBool (x := ofDocument costADay) (by decide +kernel)
  obtain rfl := document_of_ofDocument hr
  obtain ⟨c, hc⟩ := Except.exists_of_toBool
    (x := compile ⟨costADay⟩ .bigQuery "{cpc} / {days_in_range}" (some "daily"))
    (by decide +kernel)
  obtain ⟨f, hf, hbases, hdays⟩ := graph_agrees_of_compile hr
    (m := { id := "daily", formula := "{cpc} / {days_in_range}" }) (by decide +kernel) hc
  exact ⟨_, c, f, hr, hc, hf, by decide +kernel, hbases, hdays⟩

end Registry

end MetricLayer
