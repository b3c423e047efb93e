import MetricLayer.Proofs.Registry.Consistency

/-!
# Editing keeps a registry consistent

An edit of the metric `id` leaves all other metrics as they are (`SameOff`). So
what does not lead to `id` stays up to date (`SameOff.fresh`), and what does is
compiled again by the cascade. Every registry that edits lead to, whether they
succeed or fail, from an empty one or from an accepted document whose formulas
compile is consistent (`Reachable.consistent`).
-/

namespace MetricLayer.Registry

open Relation (ReflTransGen TransGen)
open DependencyGraph (ofRegistry)

variable {d : Sql.Dialect} {r r' : Registry} {id : String}

/-! ## Ids -/

theorem WellFormed.of_sublist (h : r.WellFormed) (hids : r'.metricIds.Sublist r.metricIds) :
    r'.WellFormed where
  valid id hid := h.valid id (hids.subset hid)
  nodup := h.nodup.sublist hids
  unreserved id hid := h.unreserved id (hids.subset hid)

theorem mem_metricIds_iff :
    id ∈ r.metricIds ↔ (r.baseMetric? id).isSome ∨ (r.calculatedMetric? id).isSome := by
  simp [metricIds, isSome_baseMetric?_iff, isSome_calculatedMetric?_iff]

theorem metric?_eq_none_iff :
    r.metric? id = none ↔ id ∉ r.metricIds ∧ SystemMetric.ofId? id = none := by
  rw [← Option.not_isSome_iff_eq_none, isSome_metric?_iff, ← or_assoc, ← mem_metricIds_iff, not_or,
    Option.not_isSome_iff_eq_none]

theorem WellFormed.of_perm (h : r.WellFormed) (hids : r'.metricIds.Perm (id :: r.metricIds))
    (hname : isName id = true) (hfree : r.metric? id = none) : r'.WellFormed := by
  obtain ⟨hnew, hunreserved⟩ := metric?_eq_none_iff.1 hfree
  refine ⟨fun x hx => ?_, hids.nodup_iff.2 (List.nodup_cons.2 ⟨hnew, h.nodup⟩), fun x hx => ?_⟩
  · rcases List.mem_cons.1 (hids.mem_iff.1 hx) with rfl | hx
    · exact hname
    · exact h.valid x hx
  · rcases List.mem_cons.1 (hids.mem_iff.1 hx) with rfl | hx
    · exact hunreserved
    · exact h.unreserved x hx

theorem Sound.referred (hr : r.Sound) {m : CalculatedMetric} (hm : m ∈ r.calculatedMetrics)
    {n : String} (hn : n ∈ m.referredIds) : (r.metric? n).isSome :=
  (hr.resolves m hm).of_mem_referredIds hn

theorem mem_metricIds_of_calculated {m : CalculatedMetric} (hm : m ∈ r.calculatedMetrics) :
    m.id ∈ r.metricIds :=
  List.mem_append_right _ (List.mem_map_of_mem hm)

theorem metricIds_withBaseMetrics (ms : List BaseMetric) :
    (r.withBaseMetrics ms).metricIds = ms.map (·.id) ++ r.calculatedMetrics.map (·.id) := rfl

theorem metricIds_withCalculatedMetrics (ms : List CalculatedMetric) :
    (r.withCalculatedMetrics ms).metricIds = r.baseMetrics.map (·.id) ++ ms.map (·.id) := rfl

/-- An edit that fails leaves the registry as it is. -/
theorem edit_cases {α : Type} {P : Registry → Prop} {outcome : Except Error (α × Registry)}
    (hr : P r) (h : ∀ a r', outcome = .ok (a, r') → P r') : P (r.edit outcome).2 := by
  cases outcome with
  | error e => exact hr
  | ok result => exact h _ _ rfl

/-! ## Edits of one metric -/

/-- The two registries have the same metrics but for that named `id`. -/
structure SameOff (id : String) (r r' : Registry) : Prop where
  dateColumn : r.dateColumn = r'.dateColumn
  base : ∀ n, n ≠ id → r.baseMetric? n = r'.baseMetric? n
  calculated : ∀ n, n ≠ id → r.calculatedMetric? n = r'.calculatedMetric? n

namespace SameOff

theorem mem_left (h : SameOff id r r') (hr' : r'.WellFormed) {m : CalculatedMetric}
    (hm : m ∈ r'.calculatedMetrics) (hne : m.id ≠ id) : m ∈ r.calculatedMetrics := by
  have hm? := hr'.calculatedMetric?_eq_some_iff.2 ⟨hm, rfl⟩
  rw [← h.calculated _ hne] at hm?
  exact List.mem_of_find?_eq_some hm?

theorem symm (h : SameOff id r r') : SameOff id r' r :=
  ⟨h.dateColumn.symm, fun n hn => (h.base n hn).symm, fun n hn => (h.calculated n hn).symm⟩

theorem metric? (h : SameOff id r r') {n : String} (hn : n ≠ id) : r.metric? n = r'.metric? n := by
  rw [Registry.metric?, Registry.metric?, h.base n hn, h.calculated n hn]

/-- What does not lead to `id` is the same in both registries. -/
theorem agreeOn (h : SameOff id r r') (hr : r.Sound) :
    AgreeOn r r' fun n => ¬ ReflTransGen (ofRegistry r).Refers n id where
  dateColumn := h.dateColumn
  base n hn := h.base n fun heq => hn (heq ▸ .refl)
  formula n hn := by rw [h.calculated n fun heq => hn (heq ▸ .refl)]
  closed n hn m hm := by
    have hmem := List.mem_of_find?_eq_some hm
    obtain rfl : m.id = n := by simpa using List.find?_some hm
    exact (hr.resolves m hmem).of_referredIds fun x hx hchain =>
      hn (hchain.head (refers_iff.2 ⟨m, hmem, rfl, hx⟩))

theorem fresh (h : SameOff id r r') (hr : r.Consistent d) (hr' : r'.WellFormed)
    {m : CalculatedMetric} (hm : m ∈ r'.calculatedMetrics)
    (hoff : ¬ ReflTransGen (ofRegistry r).Refers m.id id) : Fresh d r' m := by
  have hmem := h.mem_left hr' hm fun heq => hoff (heq ▸ .refl)
  have hagree := h.agreeOn hr.toSound
  exact fresh_congr hagree hr.toWellFormed (hagree.readsOnly hr.toWellFormed hmem hoff)
    (hr.fresh m hmem)

/-- Chains to `id` run over metrics that are the same in both. -/
theorem reaches (h : SameOff id r r') (hr : r.WellFormed) {n : String}
    (hn : ReflTransGen (ofRegistry r).Refers n id) : ReflTransGen (ofRegistry r').Refers n id := by
  induction hn using ReflTransGen.head_induction_on with
  | refl => exact .refl
  | @head a b hab _ ih =>
    by_cases ha : a = id
    · exact ha ▸ .refl
    · obtain ⟨m, hm, rfl, hb⟩ := refers_iff.1 hab
      exact ih.head (refers_iff.2 ⟨m, h.symm.mem_left hr hm ha, rfl, hb⟩)

/-- The dependencies of other metrics than `id` are the same, as long as `id`
does not become a calculated metric under those that refer to it. -/
theorem dependsOn (h : SameOff id r r') (hr' : r'.WellFormed)
    (hold : ∀ m ∈ r.calculatedMetrics, id ∈ m.referredIds →
      (r'.calculatedMetric? id).isSome → (r.calculatedMetric? id).isSome)
    {a b : String} (ha : a ≠ id) (hab : (ofRegistry r').DependsOn a b) :
    (ofRegistry r).DependsOn a b := by
  obtain ⟨hrefers, hcalc⟩ := dependsOn_iff.1 hab
  obtain ⟨m, hm, rfl, hb⟩ := refers_iff.1 hrefers
  have hmem := h.mem_left hr' hm ha
  refine dependsOn_iff.2 ⟨refers_iff.2 ⟨m, hmem, rfl, hb⟩, ?_⟩
  by_cases heq : b = id
  · exact heq ▸ hold m hmem (heq ▸ hb) (heq ▸ hcalc)
  · rwa [h.calculated b heq]

/-- After an edit of `id` the registry is sound if what refers to `id` finds a
metric of the same kind there, and the formula of `id`, if it has one now, leads
nowhere from where `id` was reached before. -/
theorem sound (h : SameOff id r r') (hr : r.Sound) (hr' : r'.WellFormed)
    (hold : ∀ m ∈ r.calculatedMetrics, id ∈ m.referredIds → (r'.metric? id).isSome ∧
      ((r'.calculatedMetric? id).isSome → (r.calculatedMetric? id).isSome))
    (hnew : ∀ m ∈ r'.calculatedMetrics, m.id = id →
      ReadsOnly (fun n => (r'.metric? n).isSome) m.formula ∧
      ∀ n ∈ m.referredIds, (r'.calculatedMetric? n).isSome →
        ¬ ReflTransGen (ofRegistry r).DependsOn n id) : r'.Sound where
  toWellFormed := hr'
  resolves m hm := by
    by_cases hid : m.id = id
    · exact (hnew m hm hid).1
    · have hmem := h.mem_left hr' hm hid
      refine (hr.resolves m hmem).of_referredIds fun n hn => ?_
      by_cases heq : n = id
      · exact heq ▸ (hold m hmem (heq ▸ hn)).1
      · exact h.metric? heq ▸ hr.referred hmem hn
  acyclic := by
    have hsame (a b : String) (ha : a ≠ id) (hab : (ofRegistry r').DependsOn a b) :
        (ofRegistry r).DependsOn a b :=
      h.dependsOn hr' (fun m hm hmem => (hold m hm hmem).2) ha hab
    refine DependencyGraph.acyclic_of_changed hr.acyclic hsame fun b hb => ?_
    obtain ⟨hrefers, hcalc⟩ := dependsOn_iff.1 hb
    obtain ⟨m, hm, hid, hmem⟩ := refers_iff.1 hrefers
    exact (hnew m hm hid).2 b hmem hcalc

end SameOff

/-! ## Base metrics -/

theorem isName_of_validate {m : BaseMetric} (h : m.validate = .ok ()) : isName m.id = true := by
  rw [BaseMetric.validate] at h
  split at h
  · cases h
  · simp_all

theorem isName_of_checkId (h : checkId id = .ok ()) : isName id = true := by
  rw [checkId] at h
  split at h
  · assumption
  · cases h

theorem ensureMetricFree_eq_ok_iff : r.ensureMetricFree id = .ok () ↔ r.metric? id = none := by
  rw [ensureMetricFree]
  cases r.metric? id <;> simp

/-- Nothing refers to an id that is free. -/
theorem Sound.notMem_referredIds (hr : r.Sound) (hfree : r.metric? id = none)
    {m : CalculatedMetric} (hm : m ∈ r.calculatedMetrics) : id ∉ m.referredIds := fun h => by
  have := hr.referred hm h
  rw [hfree] at this
  cases this

/-- Nothing but `id` leads to an id that nothing refers to. -/
theorem eq_of_reaches (h : ∀ m ∈ r.calculatedMetrics, id ∉ m.referredIds) {n : String}
    (hn : ReflTransGen (ofRegistry r).Refers n id) : n = id := by
  rcases ReflTransGen.cases_tail hn with rfl | ⟨b, -, hb⟩
  · rfl
  · obtain ⟨m, hm, -, hmem⟩ := refers_iff.1 hb
    exact absurd hmem (h m hm)

theorem consistent_addBaseMetric (hr : r.Consistent d) (m : BaseMetric) :
    (r.addBaseMetric m).2.Consistent d := by
  refine edit_cases hr fun a r' h => ?_
  simp only [bind, Except.bind_eq_ok, Except.mapError_eq_ok] at h
  obtain ⟨_, hvalid, _, hensure, h⟩ := h
  obtain ⟨-, rfl⟩ := Prod.mk.inj (Except.ok.inj h)
  have hfree := ensureMetricFree_eq_ok_iff.1 hensure
  have hoff : SameOff m.id r (r.withBaseMetrics (r.baseMetrics ++ [m])) :=
    ⟨rfl, fun n hn => (find?_append_of_ne hn).symm, fun _ _ => rfl⟩
  have hids : (r.withBaseMetrics (r.baseMetrics ++ [m])).metricIds.Perm (m.id :: r.metricIds) := by
    rw [metricIds_withBaseMetrics, List.map_append, List.append_assoc]
    exact List.perm_middle
  have hr' := hr.toWellFormed.of_perm hids (isName_of_validate hvalid) hfree
  have hunread {m' : CalculatedMetric} (hm' : m' ∈ r.calculatedMetrics) : m.id ∉ m'.referredIds :=
    hr.toSound.notMem_referredIds hfree hm'
  have hne {m' : CalculatedMetric} (hm' : m' ∈ r.calculatedMetrics) : m'.id ≠ m.id := fun heq =>
    (metric?_eq_none_iff.1 hfree).1 (heq ▸ mem_metricIds_of_calculated hm')
  refine ⟨hoff.sound hr.toSound hr' ?_ ?_, fun m' hm' => ?_⟩
  · exact fun m' hm' hmem => absurd hmem (hunread hm')
  · exact fun m' hm' heq => absurd heq (hne hm')
  · exact hoff.fresh hr hr' hm' fun hchain => hne hm' (eq_of_reaches (fun _ => hunread) hchain)

theorem consistent_cascade (hr : r.Consistent d) (id : String) :
    (r.cascadeAndApply d id).2.Consistent d := by
  by_cases hid : (r.baseMetric? id).isSome ∨ (r.calculatedMetric? id).isSome
  · exact consistent_cascadeAndApply hr.toSound hid fun m hm _ => hr.fresh m hm
  · refine edit_cases hr fun a r' h => ?_
    have hunknown : (r.baseMetric? id).isNone && (r.calculatedMetric? id).isNone := by
      simpa using hid
    simp [cascade, hunknown, bind, Except.bind] at h

/-- What is not compiled again when `id` has been edited is up to date. -/
theorem SameOff.fresh_of_notMem (h : SameOff id r r') (hr : r.Consistent d) (hr' : r'.WellFormed)
    {m : CalculatedMetric} (hm : m ∈ r'.calculatedMetrics) (hne : m.id ≠ id)
    (hoff : m.id ∉ (ofRegistry r').transitiveDependents id) : Fresh d r' m :=
  h.fresh hr hr' hm fun hchain => hoff
    (DependencyGraph.mem_transitiveDependents.2 ⟨hne, h.reaches hr.toWellFormed hchain⟩)

theorem metricIds_putBase (r : Registry) (m : BaseMetric) :
    (r.putBase m).metricIds = r.metricIds := by
  rw [putBase, metricIds_withBaseMetrics, metricIds, List.map_map]
  congr 1
  refine List.map_congr_left fun x _ => ?_
  by_cases hx : x.id = m.id <;> simp [hx]

theorem sameOff_putBase (r : Registry) (m : BaseMetric) : SameOff m.id r (r.putBase m) :=
  ⟨rfl, fun _ hn => (find?_map_of_ne hn).symm, fun _ _ => rfl⟩

theorem consistent_updateBaseMetric (hr : r.Consistent d) (m : BaseMetric) :
    (r.updateBaseMetric d m).2.Consistent d := by
  rw [updateBaseMetric]
  split
  · exact hr
  · split
    · exact hr
    · rename_i _ hknown
      have hoff := sameOff_putBase r m
      have hr' : (r.putBase m).WellFormed :=
        hr.toWellFormed.of_sublist (metricIds_putBase r m ▸ List.Sublist.refl _)
      have hthere : ((r.putBase m).baseMetric? m.id).isSome := by
        obtain ⟨old, hold⟩ := Option.ne_none_iff_exists'.1 (by simpa using hknown)
        obtain ⟨hmem, hid⟩ := hr.baseMetric?_eq_some_iff.1 hold
        exact isSome_baseMetric?_iff.2
          ⟨m, List.mem_map.2 ⟨old, hmem, if_pos (by simpa using hid)⟩, rfl⟩
      have hne {m' : CalculatedMetric} (hm' : m' ∈ (r.putBase m).calculatedMetrics) :
          m'.id ≠ m.id := fun heq => by
        rw [← heq, hr'.baseMetric?_eq_none hm'] at hthere
        cases hthere
      have hsound : (r.putBase m).Sound := by
        refine hoff.sound hr.toSound hr' (fun m' _ _ => ⟨?_, fun h => h⟩)
          fun m' hm' heq => absurd heq (hne hm')
        exact isSome_metric?_iff.2 (.inl hthere)
      exact consistent_cascadeAndApply hsound (.inl hthere) fun m' hm' hx =>
        hoff.fresh_of_notMem hr hr' hm' (hne hm') hx

/-! ## Calculated metrics -/

section Stored

variable {m : CalculatedMetric} {c : CompiledFormula}

/-- What a compiled formula refers to does not lead to the metric it is compiled
for. -/
theorem readsOnly_off_of_compile (hr : r.Sound) (hc : r.compile d m.formula (some m.id) = .ok c)
    (hkind : r.metric? m.id = none ∨ (r.calculatedMetric? m.id).isSome) :
    ReadsOnly (fun n => ¬ ReflTransGen (ofRegistry r).Refers n m.id) m.formula := by
  have hbase : r.baseMetric? m.id = none := by
    rcases hkind with h | h
    · rw [← Option.not_isSome_iff_eq_none]
      exact fun hs => (metric?_eq_none_iff.1 h).1 (mem_metricIds_iff.2 (.inl hs))
    · obtain ⟨old, hold, hid⟩ := isSome_calculatedMetric?_iff.1 h
      exact hid ▸ hr.baseMetric?_eq_none hold
  refine (readsOnly_of_compile hc).of_referredIds fun n hn hchain => ?_
  by_cases heq : n = m.id
  · exact not_dependsOn_of_compile hc hn (heq ▸ hbase) (by simp [isCalculatedFor, heq])
      (heq ▸ .refl)
  · obtain ⟨b, hb, -⟩ := (ReflTransGen.cases_head hchain).resolve_left heq
    obtain ⟨m', hm', rfl, -⟩ := refers_iff.1 hb
    rcases hkind with h | h
    · exact heq (eq_of_reaches (fun _ hx => hr.notMem_referredIds h hx) hchain)
    · refine not_dependsOn_of_compile hc hn (hr.baseMetric?_eq_none hm') ?_
        (dependsOn_of_refers hchain h)
      rw [isCalculatedFor, isSome_calculatedMetric?_iff.2 ⟨m', hm', rfl⟩, Bool.true_or]

/-- The registry after a calculated metric has been compiled and stored, which
was free or calculated before. -/
theorem SameOff.sound_of_compile (h : SameOff m.id r r') (hr : r.Sound) (hr' : r'.WellFormed)
    (hc : r.compile d m.formula (some m.id) = .ok c)
    (hkind : r.metric? m.id = none ∨ (r.calculatedMetric? m.id).isSome)
    (hm : m.withCompiled c ∈ r'.calculatedMetrics) : r'.Sound := by
  have hthere : (r'.calculatedMetric? m.id).isSome := isSome_calculatedMetric?_iff.2 ⟨_, hm, rfl⟩
  refine h.sound hr hr' (fun m' hm' hmem => ⟨?_, fun _ => ?_⟩) fun m' hm' heq => ?_
  · exact isSome_metric?_iff.2 (.inr (.inl hthere))
  · exact hkind.resolve_left fun hfree => hr.notMem_referredIds hfree hm' hmem
  · obtain rfl : m' = m.withCompiled c :=
      List.inj_on_of_nodup_map (List.nodup_append.1 hr'.nodup).2.1 hm' hm heq
    refine ⟨(readsOnly_of_compile hc).mono fun n hn => ?_, fun n hn _ hchain => ?_⟩
    · by_cases hn' : n = m.id
      · exact hn' ▸ isSome_metric?_iff.2 (.inr (.inl hthere))
      · rw [← h.metric? hn', isSome_metric?_iff]
        rcases hn with hn | hn | hn
        · exact .inl hn
        · refine .inr (.inl ?_)
          simpa [isCalculatedFor, Ne.symm hn'] using hn
        · exact .inr (.inr hn)
    · refine (readsOnly_off_of_compile hr hc hkind).of_mem_referredIds (m := m.withCompiled c) hn ?_
      exact ReflTransGen.mono (fun _ _ => DependencyGraph.DependsOn.refers) _ _ hchain

theorem SameOff.fresh_of_compile (h : SameOff m.id r r') (hr : r.Sound) (hr' : r'.WellFormed)
    (hc : r.compile d m.formula (some m.id) = .ok c)
    (hkind : r.metric? m.id = none ∨ (r.calculatedMetric? m.id).isSome) :
    Fresh d r' (m.withCompiled c) :=
  fresh_withCompiled (compile_congr (h.agreeOn hr) hr' (readsOnly_off_of_compile hr hc hkind) hc)

end Stored

theorem consistent_addCalculatedMetric (hr : r.Consistent d) (m : CalculatedMetric) :
    (r.addCalculatedMetric d m).2.Consistent d := by
  refine edit_cases hr fun a r' h => ?_
  simp only [bind, Except.bind_eq_ok] at h
  obtain ⟨_, hname, _, hensure, c, hc, h⟩ := h
  obtain ⟨-, rfl⟩ := Prod.mk.inj (Except.ok.inj h)
  have hfree := ensureMetricFree_eq_ok_iff.1 hensure
  generalize hadded : r.withCalculatedMetrics (r.calculatedMetrics ++ [m.withCompiled c]) = added
  have hcalcs : added.calculatedMetrics = r.calculatedMetrics ++ [m.withCompiled c] := by
    rw [← hadded]; rfl
  have hoff : SameOff m.id r added := by
    refine ⟨by rw [← hadded]; rfl, fun _ _ => by rw [← hadded]; rfl, fun n hn => ?_⟩
    rw [calculatedMetric?, calculatedMetric?, hcalcs]
    exact (find?_append_of_ne (x := m.withCompiled c) hn).symm
  have hids : added.metricIds.Perm (m.id :: r.metricIds) := by
    rw [← hadded, metricIds_withCalculatedMetrics, List.map_append, ← List.append_assoc]
    exact List.perm_append_singleton _ _
  have hr' := hr.toWellFormed.of_perm hids (isName_of_checkId hname) hfree
  have hmem : m.withCompiled c ∈ added.calculatedMetrics := by simp [hcalcs]
  refine ⟨hoff.sound_of_compile hr.toSound hr' hc (.inl hfree) hmem, fun m' hm' => ?_⟩
  rw [hcalcs, List.mem_append, List.mem_singleton] at hm'
  rcases hm' with hm' | rfl
  · refine hoff.fresh hr hr' (by simp [hcalcs, hm']) fun hchain => ?_
    have heq := eq_of_reaches (fun _ hx => hr.toSound.notMem_referredIds hfree hx) hchain
    exact (metric?_eq_none_iff.1 hfree).1 (heq ▸ mem_metricIds_of_calculated hm')
  · exact hoff.fresh_of_compile hr.toSound hr' hc (.inl hfree)

theorem metricIds_putCalculated (r : Registry) (m : CalculatedMetric) :
    (r.putCalculated m).metricIds = r.metricIds := by
  rw [metricIds, metricIds, calculatedMetrics_putCalculated, List.map_map]
  congr 1
  refine List.map_congr_left fun x _ => ?_
  by_cases hx : x.id = m.id <;> simp [hx]

theorem sameOff_putCalculated (r : Registry) (m : CalculatedMetric) :
    SameOff m.id r (r.putCalculated m) :=
  ⟨rfl, fun _ _ => rfl, fun _ hn => (find?_map_of_ne hn).symm⟩

theorem consistent_updateCalculatedMetric (hr : r.Consistent d) (m : CalculatedMetric) :
    (r.updateCalculatedMetric d m).2.Consistent d := by
  rw [updateCalculatedMetric]
  split
  · exact hr
  · split
    · exact hr
    · rename_i hknown _ c hc
      have hold : (r.calculatedMetric? m.id).isSome := by
        simpa [Option.isSome_iff_ne_none] using hknown
      have hoff : SameOff m.id r (r.putCalculated (m.withCompiled c)) :=
        sameOff_putCalculated r (m.withCompiled c)
      have hr' : (r.putCalculated (m.withCompiled c)).WellFormed :=
        hr.toWellFormed.of_sublist (metricIds_putCalculated r _ ▸ List.Sublist.refl _)
      have hmem : m.withCompiled c ∈ (r.putCalculated (m.withCompiled c)).calculatedMetrics :=
        mem_putCalculated.2 (.inl ⟨rfl, isSome_calculatedMetric?_iff.1 hold⟩)
      refine consistent_cascadeAndApply
        (hoff.sound_of_compile hr.toSound hr' hc (.inr hold) hmem)
        (.inr (isSome_calculatedMetric?_iff.2 ⟨_, hmem, rfl⟩)) fun m' hm' hx => ?_
      rcases mem_putCalculated.1 hm' with ⟨rfl, -⟩ | ⟨-, hne⟩
      · exact hoff.fresh_of_compile hr.toSound hr' hc (.inr hold)
      · exact hoff.fresh_of_notMem hr hr' hm' hne hx

/-! ## Removal -/

theorem consistent_removeMetric (hr : r.Consistent d) (id : String) :
    (r.removeMetric id).2.Consistent d := by
  refine edit_cases hr fun a r' h => ?_
  dsimp only at h
  split at h <;> [cases h; skip]
  split at h <;> [cases h; skip]
  rename_i hdependents _
  obtain ⟨-, rfl⟩ := Prod.mk.inj (Except.ok.inj h)
  have hunread {m : CalculatedMetric} (hm : m ∈ r.calculatedMetrics) : id ∉ m.referredIds := by
    intro hmem
    have hdep : m.id ∈ (ofRegistry r).dependents id :=
      DependencyGraph.mem_dependents.2 (refers_iff.2 ⟨m, hm, rfl, hmem⟩)
    simp_all
  generalize hremoved : (r.withBaseMetrics _).withCalculatedMetrics _ = removed
  have hbases : removed.baseMetrics = r.baseMetrics.filter (·.id != id) := by rw [← hremoved]; rfl
  have hcalcs : removed.calculatedMetrics = r.calculatedMetrics.filter (·.id != id) := by
    rw [← hremoved]; rfl
  have hoff : SameOff id r removed := by
    refine ⟨by rw [← hremoved]; rfl, fun n hn => ?_, fun n hn => ?_⟩
    · rw [baseMetric?, baseMetric?, hbases, find?_filter_of_ne hn]
    · rw [calculatedMetric?, calculatedMetric?, hcalcs, find?_filter_of_ne hn]
  have hr' : removed.WellFormed := by
    refine hr.toWellFormed.of_sublist ?_
    rw [metricIds, metricIds, hbases, hcalcs]
    exact (List.filter_sublist.map _).append (List.filter_sublist.map _)
  have hne {m : CalculatedMetric} (hm : m ∈ removed.calculatedMetrics) : m.id ≠ id := by
    rw [hcalcs, List.mem_filter] at hm
    simpa using hm.2
  refine ⟨hoff.sound hr.toSound hr' ?_ ?_, fun m hm => ?_⟩
  · exact fun m hm hmem => absurd hmem (hunread hm)
  · exact fun m hm heq => absurd heq (hne hm)
  · exact hoff.fresh hr hr' hm fun hchain => hne hm (eq_of_reaches (fun _ => hunread) hchain)

/-! ## Dimensions -/

theorem SameMetrics.consistent_of_eq (hr : r.Consistent d) (hdate : r.dateColumn = r'.dateColumn)
    (hbase : r.baseMetrics = r'.baseMetrics) (hcalc : r.calculatedMetrics = r'.calculatedMetrics) :
    r'.Consistent d :=
  SameMetrics.consistent ⟨hdate, hbase, by rw [hcalc]⟩ hr.toSound
    fun m hm => hr.fresh m (hcalc ▸ hm)

theorem consistent_addDimension (hr : r.Consistent d) (dim : Dimension) :
    (r.addDimension dim).2.Consistent d := by
  refine edit_cases hr fun a r' h => ?_
  simp only [bind, Except.bind_eq_ok] at h
  obtain ⟨_, -, _, -, h⟩ := h
  obtain ⟨-, rfl⟩ := Prod.mk.inj (Except.ok.inj h)
  exact SameMetrics.consistent_of_eq hr rfl rfl rfl

theorem consistent_addCalculatedDimension (hr : r.Consistent d) (dim : CalculatedDimension) :
    (r.addCalculatedDimension d dim).2.Consistent d := by
  refine edit_cases hr fun a r' h => ?_
  simp only [bind, Except.bind_eq_ok] at h
  obtain ⟨_, -, _, -, c, -, h⟩ := h
  obtain ⟨-, rfl⟩ := Prod.mk.inj (Except.ok.inj h)
  exact SameMetrics.consistent_of_eq hr rfl rfl rfl

theorem consistent_removeDimension (hr : r.Consistent d) (id : String) :
    (r.removeDimension id).2.Consistent d := by
  refine edit_cases hr fun a r' h => ?_
  split at h <;> [cases h; skip]
  obtain ⟨-, rfl⟩ := Prod.mk.inj (Except.ok.inj h)
  exact SameMetrics.consistent_of_eq hr rfl rfl rfl

/-! ## Validation -/

theorem calculatedMetrics_validateAll (r : Registry) (d : Sql.Dialect) :
    (r.validateAll d).2.calculatedMetrics =
      r.calculatedMetrics.map fun m => (r.revalidateMetric d m).1 :=
  List.map_map

theorem calculatedDimensions_validateAll (r : Registry) (d : Sql.Dialect) :
    (r.validateAll d).2.calculatedDimensions =
      r.calculatedDimensions.map fun dim => (revalidateDimension d dim).1 :=
  List.map_map

/-- What validation leaves of each metric as it was, it leaves of all of them. -/
theorem map_calculatedMetrics_validateAll {α : Type} {f : CalculatedMetric → α}
    (hf : ∀ m, f (r.revalidateMetric d m).1 = f m) :
    (r.validateAll d).2.calculatedMetrics.map f = r.calculatedMetrics.map f := by
  rw [calculatedMetrics_validateAll, List.map_map]
  exact List.map_congr_left fun m _ => hf m

theorem map_calculatedDimensions_validateAll {α : Type} {f : CalculatedDimension → α}
    (hf : ∀ dim, f (revalidateDimension d dim).1 = f dim) :
    (r.validateAll d).2.calculatedDimensions.map f = r.calculatedDimensions.map f := by
  rw [calculatedDimensions_validateAll, List.map_map]
  exact List.map_congr_left fun dim _ => hf dim

theorem fresh_revalidateMetric (d : Sql.Dialect) (r : Registry) (m : CalculatedMetric) :
    Fresh d r (r.revalidateMetric d m).1 := by
  rw [revalidateMetric]
  cases hc : r.compile d m.formula (some m.id) with
  | ok c => exact fresh_withCompiled hc
  | error e =>
    intro c h
    cases hc.symm.trans h

theorem sameMetrics_validateAll (r : Registry) (d : Sql.Dialect) :
    r.SameMetrics (r.validateAll d).2 where
  dateColumn := rfl
  base := rfl
  calculated := by
    refine (map_calculatedMetrics_validateAll fun m => ?_).symm
    rw [revalidateMetric]
    split <;> rfl

/-- Validation makes a sound registry consistent. -/
theorem consistent_validateAll (hr : r.Sound) : (r.validateAll d).2.Consistent d := by
  refine (sameMetrics_validateAll r d).consistent hr fun m hm => ?_
  rw [calculatedMetrics_validateAll] at hm
  obtain ⟨m, -, rfl⟩ := List.mem_map.1 hm
  exact fresh_revalidateMetric d r m

/-! ## Accepted documents -/

/-- Ids are claimed where the checks pass and no id is taken or occurs twice. -/
theorem foldlM_claimId_eq_ok_iff {α : Type} {key : α → String} {check : α → Except Error Unit}
    {entity : Entity} {xs : List α} {seen ids : List String} :
    xs.foldlM (fun seen x => do
      check x
      claimId entity seen (key x)) seen = .ok ids ↔
      (∀ x ∈ xs, check x = .ok ()) ∧ ids = (xs.map key).reverse ++ seen ∧ (xs.map key).Nodup ∧
        ∀ x ∈ xs, key x ∉ seen := by
  refine Except.foldlM_seen_eq_ok_iff key (fun x => check x = .ok ()) fun seen x seen' => ?_
  have hclaim : claimId entity seen (key x) = .ok seen' ↔ key x ∉ seen ∧ seen' = key x :: seen := by
    rw [claimId]
    by_cases hnew : key x ∈ seen <;> simp [hnew, eq_comm]
  simp only [bind, Except.bind_eq_ok, hclaim]
  constructor
  · rintro ⟨_, h⟩
    exact h
  · exact fun h => ⟨_, h⟩

theorem foldlM_claimId {α : Type} {key : α → String} {check : α → Except Error Unit}
    {entity : Entity} {xs : List α} {seen ids : List String}
    (h : xs.foldlM (fun seen x => do
      check x
      claimId entity seen (key x)) seen = .ok ids) :
    (∀ x ∈ xs, check x = .ok ()) ∧ ids = (xs.map key).reverse ++ seen ∧
      (seen.Nodup → ids.Nodup) := by
  obtain ⟨hcheck, rfl, hkeys, hnew⟩ := foldlM_claimId_eq_ok_iff.1 h
  refine ⟨hcheck, rfl, fun hseen => List.nodup_append'.2 ⟨List.nodup_reverse.2 hkeys, hseen, ?_⟩⟩
  simpa [List.Disjoint] using hnew

theorem wellFormed_ofDocument {document : SchemaDocument} (h : ofDocument document = .ok r) :
    r.WellFormed := by
  simp only [ofDocument, bind, Except.bind_eq_ok, checkMetrics] at h
  obtain ⟨_, ⟨ids, hbase, ids', hcalc, hreserved⟩, _, -, h⟩ := h
  obtain rfl := Except.ok.inj h
  obtain ⟨hbases, rfl, hnodup⟩ := foldlM_claimId hbase
  obtain ⟨hcalcs, rfl, hnodup'⟩ := foldlM_claimId hcalc
  split at hreserved <;> [cases hreserved; skip]
  rename_i hsystem
  have hmem (id : String) : id ∈ (⟨document⟩ : Registry).metricIds ↔
      id ∈ (document.calculatedMetrics.map (·.id)).reverse ++
        ((document.baseMetrics.map (·.id)).reverse ++ []) := by
    simp [metricIds, or_comm]
  refine ⟨fun id hid => ?_, ?_, fun id hid => ?_⟩
  · rcases List.mem_append.1 hid with hid | hid
    · obtain ⟨m, hm, rfl⟩ := List.mem_map.1 hid
      exact isName_of_validate (Except.mapError_eq_ok.1 (hbases m hm))
    · obtain ⟨m, hm, rfl⟩ := List.mem_map.1 hid
      exact isName_of_checkId (hcalcs m hm)
  · have := hnodup' (hnodup List.nodup_nil)
    rw [List.append_nil, ← List.reverse_append, List.nodup_reverse] at this
    exact this
  · rw [SystemMetric.ofId?, List.find?_eq_none]
    intro s hs heq
    refine List.find?_eq_none.1 hsystem s hs ?_
    obtain rfl : s.id = id := by simpa using heq
    simpa using (hmem s.id).1 hid

/-! ## Runs -/

/-- What may be done to a registry. -/
inductive Operation where
  | addBaseMetric (m : BaseMetric)
  | updateBaseMetric (m : BaseMetric)
  | addCalculatedMetric (m : CalculatedMetric)
  | updateCalculatedMetric (m : CalculatedMetric)
  | removeMetric (id : String)
  | addDimension (dim : Dimension)
  | addCalculatedDimension (dim : CalculatedDimension)
  | removeDimension (id : String)
  | validateAll
  | cascade (id : String)

/-- The registry after an operation, whether it has succeeded or failed. -/
def Operation.run (d : Sql.Dialect) (r : Registry) : Operation → Registry
  | addBaseMetric m => (r.addBaseMetric m).2
  | updateBaseMetric m => (r.updateBaseMetric d m).2
  | addCalculatedMetric m => (r.addCalculatedMetric d m).2
  | updateCalculatedMetric m => (r.updateCalculatedMetric d m).2
  | removeMetric id => (r.removeMetric id).2
  | addDimension dim => (r.addDimension dim).2
  | addCalculatedDimension dim => (r.addCalculatedDimension d dim).2
  | removeDimension id => (r.removeDimension id).2
  | validateAll => (r.validateAll d).2
  | cascade id => (r.cascadeAndApply d id).2

theorem Operation.consistent_run (hr : r.Consistent d) (op : Operation) :
    (op.run d r).Consistent d := by
  cases op with
  | addBaseMetric m => exact consistent_addBaseMetric hr m
  | updateBaseMetric m => exact consistent_updateBaseMetric hr m
  | addCalculatedMetric m => exact consistent_addCalculatedMetric hr m
  | updateCalculatedMetric m => exact consistent_updateCalculatedMetric hr m
  | removeMetric id => exact consistent_removeMetric hr id
  | addDimension dim => exact consistent_addDimension hr dim
  | addCalculatedDimension dim => exact consistent_addCalculatedDimension hr dim
  | removeDimension id => exact consistent_removeDimension hr id
  | validateAll => exact consistent_validateAll hr.toSound
  | cascade id => exact consistent_cascade hr id

/-- The registries that operations lead to, from an empty one or from an accepted
document in whose validation no calculated metric failed. -/
inductive Reachable (d : Sql.Dialect) : Registry → Prop where
  | empty (table sourceTable : String) : Reachable d (Registry.empty table sourceTable)
  | document {document : SchemaDocument} {r : Registry} (accepted : ofDocument document = .ok r)
      (compiles : ∀ m ∈ r.calculatedMetrics, (r.revalidateMetric d m).2 = none) :
      Reachable d (r.validateAll d).2
  | step {r : Registry} (h : Reachable d r) (op : Operation) : Reachable d (op.run d r)

theorem Reachable.run (h : Reachable d r) (ops : List Operation) :
    Reachable d (ops.foldl (Operation.run d) r) := by
  induction ops generalizing r with
  | nil => exact h
  | cons op rest ih => exact ih (h.step op)

theorem consistent_empty (table sourceTable : String) :
    (Registry.empty table sourceTable).Consistent d := by
  have hids : (Registry.empty table sourceTable).metricIds = [] := rfl
  have hcalc : (Registry.empty table sourceTable).calculatedMetrics = [] := rfl
  have hwell : (Registry.empty table sourceTable).WellFormed := by
    constructor <;> simp [hids]
  exact ⟨sound_of_compiles (d := d) hwell (by simp [hcalc]), by simp [hcalc]⟩

theorem consistent_of_reachable (h : Reachable d r) : r.Consistent d := by
  induction h with
  | empty table sourceTable => exact consistent_empty table sourceTable
  | @document _ r accepted compiles =>
    refine consistent_validateAll (sound_of_compiles (d := d) (wellFormed_ofDocument accepted) ?_)
    intro m hm
    have hnone := compiles m hm
    rw [revalidateMetric] at hnone
    split at hnone
    · exact ⟨_, ‹_›⟩
    · cases hnone
  | step _ op ih => exact op.consistent_run ih

/-- A base metric, a calculated metric over it, and another source column for the
base metric afterwards. -/
theorem consistent_margin :
    let r := [Operation.addBaseMetric ⟨"sales", none, none, ["amount"], .sum, none, .number, none⟩,
      .addCalculatedMetric { id := "margin", formula := "{sales} * 0.2" },
      .updateBaseMetric ⟨"sales", none, none, ["net_amount"], .sum, none, .number, none⟩].foldl
        (Operation.run .bigQuery) (Registry.empty "sales" "raw_sales")
    r.calculatedMetrics.map (·.compiledSql) = ["SUM(`net_amount`) * 0.2"] ∧
      r.Consistent .bigQuery :=
  ⟨by decide +kernel, consistent_of_reachable ((Reachable.empty _ _).run _)⟩

end MetricLayer.Registry
