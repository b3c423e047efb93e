import MetricLayer.Proofs.Registry.Editing

/-!
# Accepted documents stay accepted

`ofDocument` takes a document for a registry if it is `Accepted`: its metrics and
its dimensions have names, each used once, and its base metrics are valid
(`ofDocument_eq_ok_iff`). What operations may leave of a registry
(`Operation.leaves_run`) keeps this, whether they succeed or fail (`Accepted.run`).
What a document says of its table and of itself they leave as it is (`heading_run`),
and base metrics and dimensions go only by their removal (`Operation.keeps_run`).
-/

namespace MetricLayer

/-- A document without what it defines. -/
def SchemaDocument.heading (document : SchemaDocument) : SchemaDocument :=
  { document with
    baseMetrics := []
    calculatedMetrics := []
    dimensions := []
    calculatedDimensions := [] }

namespace Registry

variable {d : Sql.Dialect} {r r' : Registry}

/-- The ids that the two kinds of dimension share. -/
def dimensionIds (r : Registry) : List String :=
  r.dimensions.map (·.id) ++ r.calculatedDimensions.map (·.id)

structure Accepted (r : Registry) : Prop extends r.WellFormed where
  bases : ∀ m ∈ r.baseMetrics, m.validate = .ok ()
  dimensionsValid : ∀ id ∈ r.dimensionIds, isName id = true
  dimensionsNodup : r.dimensionIds.Nodup

/-! ## What is checked -/

theorem checkId_eq_ok_iff {id : String} : checkId id = .ok () ↔ isName id = true := by
  rw [checkId]
  split <;> simp_all

/-- Keys that differ can be claimed. -/
theorem foldlM_claimId_of_nodup {α : Type} (entity : Entity) (key : α → String)
    (check : α → Except Error Unit) {xs : List α} {s : List String}
    (hcheck : ∀ x ∈ xs, check x = .ok ()) (hnodup : ((xs.map key).reverse ++ s).Nodup) :
    xs.foldlM (fun seen x => do
      check x
      claimId entity seen (key x)) s = .ok ((xs.map key).reverse ++ s) := by
  obtain ⟨hkeys, -, hnew⟩ := List.nodup_append'.1 hnodup
  exact foldlM_claimId_eq_ok_iff.2
    ⟨hcheck, rfl, List.nodup_reverse.1 hkeys, by simpa [List.Disjoint] using hnew⟩

theorem checkMetrics_of_accepted {document : SchemaDocument} (h : (⟨document⟩ : Registry).Accepted) :
    checkMetrics document = .ok () := by
  have hnodup := List.nodup_reverse.2 h.nodup
  rw [metricIds, List.reverse_append] at hnodup
  have hbases := foldlM_claimId_of_nodup .metric BaseMetric.id
    (fun m => m.validate.mapError Error.baseMetric) (s := [])
    (fun m hm => Except.mapError_eq_ok.2 (h.bases m hm))
    (by simpa using (List.nodup_append.1 hnodup).2.1)
  have hcalcs := foldlM_claimId_of_nodup .metric CalculatedMetric.id (fun m => checkId m.id)
    (fun m hm => checkId_eq_ok_iff.2 (h.valid _ (List.mem_append_right _ (List.mem_map_of_mem hm))))
    hnodup
  rw [List.append_nil] at hbases
  simp only [checkMetrics, bind, Except.bind_eq_ok]
  refine ⟨_, hbases, _, hcalcs, ?_⟩
  -- a system metric whose id is taken would be what the id stands for
  have hreserved : SystemMetric.all.find? (fun s =>
      ((document.calculatedMetrics.map (·.id)).reverse ++
        (document.baseMetrics.map (·.id)).reverse).contains s.id) = none := by
    refine List.find?_eq_none.2 fun s hs htaken => ?_
    have hid : s.id ∈ (⟨document⟩ : Registry).metricIds := by
      simpa [metricIds, or_comm] using htaken
    exact List.find?_eq_none.1 (h.unreserved s.id hid) s hs (by simp)
  rw [hreserved]

theorem checkDimensions_of_accepted {document : SchemaDocument}
    (h : (⟨document⟩ : Registry).Accepted) : checkDimensions document = .ok () := by
  have hnodup := List.nodup_reverse.2 h.dimensionsNodup
  rw [dimensionIds, List.reverse_append] at hnodup
  have hcolumns := foldlM_claimId_of_nodup .dimension Dimension.id (fun m => checkId m.id) (s := [])
    (fun m hm => checkId_eq_ok_iff.2
      (h.dimensionsValid _ (List.mem_append_left _ (List.mem_map_of_mem hm))))
    (by simpa using (List.nodup_append.1 hnodup).2.1)
  have hcalcs := foldlM_claimId_of_nodup .dimension CalculatedDimension.id (fun m => checkId m.id)
    (fun m hm => checkId_eq_ok_iff.2
      (h.dimensionsValid _ (List.mem_append_right _ (List.mem_map_of_mem hm)))) hnodup
  rw [List.append_nil] at hcolumns
  simp only [checkDimensions, bind, Except.bind_eq_ok]
  exact ⟨_, hcolumns, _, hcalcs, trivial⟩

theorem accepted_of_ofDocument {document : SchemaDocument} (h : ofDocument document = .ok r) :
    r.Accepted := by
  have hwell := wellFormed_ofDocument h
  simp only [ofDocument, bind, Except.bind_eq_ok, checkMetrics, checkDimensions] at h
  obtain ⟨_, ⟨ids, hbase, _⟩, _, ⟨_, hcolumns, _, hcalcs, _⟩, h⟩ := h
  obtain rfl := Except.ok.inj h
  obtain ⟨hbases, -⟩ := foldlM_claimId hbase
  obtain ⟨hnames, rfl, hnodup⟩ := foldlM_claimId hcolumns
  obtain ⟨hnames', rfl, hnodup'⟩ := foldlM_claimId hcalcs
  refine { hwell with
    bases := fun m hm => Except.mapError_eq_ok.1 (hbases m hm)
    dimensionsValid := fun id hid => ?_
    dimensionsNodup := ?_ }
  · rcases List.mem_append.1 hid with hid | hid
    · obtain ⟨m, hm, rfl⟩ := List.mem_map.1 hid
      exact checkId_eq_ok_iff.1 (hnames m hm)
    · obtain ⟨m, hm, rfl⟩ := List.mem_map.1 hid
      exact checkId_eq_ok_iff.1 (hnames' m hm)
  · have := hnodup' (hnodup List.nodup_nil)
    rw [List.append_nil, ← List.reverse_append, List.nodup_reverse] at this
    exact this

theorem ofDocument_eq_ok_iff {document : SchemaDocument} :
    ofDocument document = .ok r ↔ r = ⟨document⟩ ∧ r.Accepted := by
  constructor
  · exact fun h => ⟨document_of_ofDocument h, accepted_of_ofDocument h⟩
  · rintro ⟨rfl, h⟩
    simp only [ofDocument, bind, Except.bind_eq_ok]
    exact ⟨_, checkMetrics_of_accepted h, _, checkDimensions_of_accepted h, trivial⟩

/-! ## What operations do -/

/-- What may be left of a registry by an operation, with what it has checked.
Calculated metrics that are compiled again keep their ids. -/
inductive Operation.Leaves (r : Registry) : Operation → Registry → Prop where
  | same (op : Operation) : Leaves r op r
  | recompiled (op : Operation) {ms : List CalculatedMetric}
      (ids : ms.map (·.id) = r.calculatedMetrics.map (·.id)) :
      Leaves r op (r.withCalculatedMetrics ms)
  | addedBase {m : BaseMetric} (valid : m.validate = .ok ()) (free : r.metric? m.id = none) :
      Leaves r (.addBaseMetric m) (r.withBaseMetrics (r.baseMetrics ++ [m]))
  | updatedBase {m : BaseMetric} {ms : List CalculatedMetric} (valid : m.validate = .ok ())
      (ids : ms.map (·.id) = r.calculatedMetrics.map (·.id)) :
      Leaves r (.updateBaseMetric m) ((r.putBase m).withCalculatedMetrics ms)
  | addedCalculated {m m' : CalculatedMetric} (id_eq : m'.id = m.id) (name : isName m.id = true)
      (free : r.metric? m.id = none) :
      Leaves r (.addCalculatedMetric m) (r.withCalculatedMetrics (r.calculatedMetrics ++ [m']))
  | removedMetric (id : String) :
      Leaves r (.removeMetric id)
        ((r.withBaseMetrics (r.baseMetrics.filter (·.id != id))).withCalculatedMetrics
          (r.calculatedMetrics.filter (·.id != id)))
  | addedDimension {dim : Dimension} (name : isName dim.id = true)
      (free : r.dimension? dim.id = none) :
      Leaves r (.addDimension dim) (r.withDimensions (r.dimensions ++ [dim]))
  | addedCalculatedDimension {dim dim' : CalculatedDimension} (id_eq : dim'.id = dim.id)
      (name : isName dim.id = true) (free : r.dimension? dim.id = none) :
      Leaves r (.addCalculatedDimension dim)
        (r.withCalculatedDimensions (r.calculatedDimensions ++ [dim']))
  | removedDimension (id : String) :
      Leaves r (.removeDimension id)
        ((r.withDimensions (r.dimensions.filter (·.id != id))).withCalculatedDimensions
          (r.calculatedDimensions.filter (·.id != id)))
  | validated {ms : List CalculatedMetric} {ds : List CalculatedDimension}
      (ids : ms.map (·.id) = r.calculatedMetrics.map (·.id))
      (ids_dimensions : ds.map (·.id) = r.calculatedDimensions.map (·.id)) :
      Leaves r .validateAll ((r.withCalculatedMetrics ms).withCalculatedDimensions ds)

theorem exists_putCalculated_eq (r : Registry) (m : CalculatedMetric) :
    ∃ ms, r.putCalculated m = r.withCalculatedMetrics ms ∧
      ms.map (·.id) = r.calculatedMetrics.map (·.id) :=
  ⟨_, rfl, List.append_cancel_left (metricIds_putCalculated r m)⟩

theorem exists_applyCascade_eq (r : Registry) (outcome : CascadeOutcome) :
    ∃ ms, r.applyCascade outcome = r.withCalculatedMetrics ms ∧
      ms.map (·.id) = r.calculatedMetrics.map (·.id) :=
  ⟨_, foldl_putCalculated_eq outcome.updated r, map_foldl_putCalculated fun _ _ _ _ hid => hid⟩

theorem exists_cascadeAndApply_eq (d : Sql.Dialect) (r : Registry) (id : String) :
    ∃ ms, (r.cascadeAndApply d id).2 = r.withCalculatedMetrics ms ∧
      ms.map (·.id) = r.calculatedMetrics.map (·.id) := by
  refine edit_cases (P := fun r' => ∃ ms, r' = r.withCalculatedMetrics ms ∧
    ms.map (·.id) = r.calculatedMetrics.map (·.id)) ⟨r.calculatedMetrics, rfl, rfl⟩ fun a r' h => ?_
  simp only [bind, Except.bind_eq_ok] at h
  obtain ⟨outcome, -, h⟩ := h
  obtain ⟨-, rfl⟩ := Prod.mk.inj (Except.ok.inj h)
  exact exists_applyCascade_eq r outcome

theorem ensureDimensionFree_eq_ok_iff {id : String} :
    r.ensureDimensionFree id = .ok () ↔ r.dimension? id = none := by
  rw [ensureDimensionFree]
  cases r.dimension? id <;> simp

theorem Operation.leaves_run (op : Operation) (d : Sql.Dialect) (r : Registry) :
    op.Leaves r (op.run d r) := by
  have hedit {α : Type} {outcome : Except Error (α × Registry)}
      (h : ∀ a r', outcome = .ok (a, r') → op.Leaves r r') : op.Leaves r (r.edit outcome).2 :=
    edit_cases (.same op) h
  cases op with
  | addBaseMetric m =>
    refine hedit fun a r' h => ?_
    simp only [bind, Except.bind_eq_ok, Except.mapError_eq_ok] at h
    obtain ⟨_, hvalid, _, hfree, h⟩ := h
    obtain ⟨-, rfl⟩ := Prod.mk.inj (Except.ok.inj h)
    exact .addedBase hvalid (ensureMetricFree_eq_ok_iff.1 hfree)
  | updateBaseMetric m =>
    rw [run, Registry.updateBaseMetric]
    split
    · exact .same _
    · split
      · exact .same _
      · obtain ⟨ms, heq, hids⟩ := exists_cascadeAndApply_eq d (r.putBase m) m.id
        rw [heq]
        exact .updatedBase ‹_› hids
  | addCalculatedMetric m =>
    refine hedit fun a r' h => ?_
    simp only [bind, Except.bind_eq_ok] at h
    obtain ⟨_, hname, _, hfree, c, -, h⟩ := h
    obtain ⟨-, rfl⟩ := Prod.mk.inj (Except.ok.inj h)
    exact .addedCalculated rfl (isName_of_checkId hname) (ensureMetricFree_eq_ok_iff.1 hfree)
  | updateCalculatedMetric m =>
    rw [run, Registry.updateCalculatedMetric]
    split
    · exact .same _
    · split
      · exact .same _
      · rename_i c _
        obtain ⟨ms, heq, hids⟩ := exists_putCalculated_eq r (m.withCompiled c)
        obtain ⟨ms', heq', hids'⟩ :=
          exists_cascadeAndApply_eq d (r.putCalculated (m.withCompiled c)) m.id
        rw [heq']
        rw [heq] at hids' ⊢
        exact .recompiled _ (hids'.trans hids)
  | removeMetric id =>
    refine hedit fun a r' h => ?_
    dsimp only at h
    split at h <;> [cases h; skip]
    split at h <;> [cases h; skip]
    obtain ⟨-, rfl⟩ := Prod.mk.inj (Except.ok.inj h)
    exact .removedMetric id
  | addDimension dim =>
    refine hedit fun a r' h => ?_
    simp only [bind, Except.bind_eq_ok] at h
    obtain ⟨_, hname, _, hfree, h⟩ := h
    obtain ⟨-, rfl⟩ := Prod.mk.inj (Except.ok.inj h)
    exact .addedDimension (isName_of_checkId hname) (ensureDimensionFree_eq_ok_iff.1 hfree)
  | addCalculatedDimension dim =>
    refine hedit fun a r' h => ?_
    simp only [bind, Except.bind_eq_ok] at h
    obtain ⟨_, hname, _, hfree, c, -, h⟩ := h
    obtain ⟨-, rfl⟩ := Prod.mk.inj (Except.ok.inj h)
    exact .addedCalculatedDimension rfl (isName_of_checkId hname)
      (ensureDimensionFree_eq_ok_iff.1 hfree)
  | removeDimension id =>
    refine hedit fun a r' h => ?_
    split at h <;> [cases h; skip]
    obtain ⟨-, rfl⟩ := Prod.mk.inj (Except.ok.inj h)
    exact .removedDimension id
  | validateAll =>
    refine .validated (map_calculatedMetrics_validateAll fun m => ?_)
      (map_calculatedDimensions_validateAll fun dim => ?_)
    · rw [revalidateMetric]
      split <;> rfl
    · rw [revalidateDimension]
      split <;> rfl
  | cascade id =>
    obtain ⟨ms, heq, hids⟩ := exists_cascadeAndApply_eq d r id
    rw [run, heq]
    exact .recompiled _ hids

/-! ## What stays accepted -/

theorem Accepted.withBaseMetrics (h : r.Accepted) {ms : List BaseMetric}
    (hms : ∀ m ∈ ms, m.validate = .ok ()) (hwell : (r.withBaseMetrics ms).WellFormed) :
    (r.withBaseMetrics ms).Accepted :=
  { hwell with
    bases := hms
    dimensionsValid := h.dimensionsValid
    dimensionsNodup := h.dimensionsNodup }

theorem Accepted.withCalculatedMetrics (h : r.Accepted) {ms : List CalculatedMetric}
    (hwell : (r.withCalculatedMetrics ms).WellFormed) : (r.withCalculatedMetrics ms).Accepted :=
  { hwell with
    bases := h.bases
    dimensionsValid := h.dimensionsValid
    dimensionsNodup := h.dimensionsNodup }

/-- Other calculated metrics under the ids that there are. -/
theorem Accepted.withCalculatedMetrics_of_ids (h : r.Accepted) {ms : List CalculatedMetric}
    (hids : ms.map (·.id) = r.calculatedMetrics.map (·.id)) : (r.withCalculatedMetrics ms).Accepted := by
  refine h.withCalculatedMetrics (h.toWellFormed.of_sublist ?_)
  rw [metricIds_withCalculatedMetrics, hids, metricIds]

theorem Accepted.applyCascade (h : r.Accepted) (outcome : CascadeOutcome) :
    (r.applyCascade outcome).Accepted := by
  obtain ⟨ms, hms, hids⟩ := exists_applyCascade_eq r outcome
  rw [hms]
  exact h.withCalculatedMetrics_of_ids hids

theorem Accepted.putBase (h : r.Accepted) {m : BaseMetric} (hm : m.validate = .ok ()) :
    (r.putBase m).Accepted := by
  refine h.withBaseMetrics (fun x hx => ?_)
    (h.toWellFormed.of_sublist (metricIds_putBase r m ▸ List.Sublist.refl _))
  obtain ⟨old, hold, rfl⟩ := List.mem_map.1 hx
  split
  · exact hm
  · exact h.bases old hold

theorem Accepted.appendBase (h : r.Accepted) {m : BaseMetric} (hm : m.validate = .ok ())
    (hfree : r.metric? m.id = none) : (r.withBaseMetrics (r.baseMetrics ++ [m])).Accepted := by
  have hids : (r.withBaseMetrics (r.baseMetrics ++ [m])).metricIds.Perm (m.id :: r.metricIds) := by
    rw [metricIds_withBaseMetrics, List.map_append, List.append_assoc]
    exact List.perm_middle
  refine h.withBaseMetrics (fun x hx => ?_)
    (h.toWellFormed.of_perm hids (isName_of_validate hm) hfree)
  rcases List.mem_append.1 hx with hx | hx
  · exact h.bases x hx
  · exact List.mem_singleton.1 hx ▸ hm

theorem Accepted.appendCalculated (h : r.Accepted) {m : CalculatedMetric}
    (hname : isName m.id = true) (hfree : r.metric? m.id = none) :
    (r.withCalculatedMetrics (r.calculatedMetrics ++ [m])).Accepted := by
  refine h.withCalculatedMetrics (h.toWellFormed.of_perm ?_ hname hfree)
  rw [metricIds_withCalculatedMetrics, List.map_append, ← List.append_assoc]
  exact List.perm_append_singleton _ _

theorem Accepted.filterMetrics (h : r.Accepted) (id : String) :
    ((r.withBaseMetrics (r.baseMetrics.filter (·.id != id))).withCalculatedMetrics
      (r.calculatedMetrics.filter (·.id != id))).Accepted := by
  have hbases : (r.withBaseMetrics (r.baseMetrics.filter (·.id != id))).Accepted := by
    refine h.withBaseMetrics (fun m hm => h.bases m (List.mem_of_mem_filter hm))
      (h.toWellFormed.of_sublist ?_)
    rw [metricIds_withBaseMetrics]
    exact (List.filter_sublist.map _).append (List.Sublist.refl _)
  refine hbases.withCalculatedMetrics (hbases.toWellFormed.of_sublist ?_)
  rw [metricIds_withCalculatedMetrics]
  exact (List.Sublist.refl _).append (List.filter_sublist.map _)

theorem dimensionIds_withDimensions (ds : List Dimension) :
    (r.withDimensions ds).dimensionIds = ds.map (·.id) ++ r.calculatedDimensions.map (·.id) := rfl

theorem dimensionIds_withCalculatedDimensions (ds : List CalculatedDimension) :
    (r.withCalculatedDimensions ds).dimensionIds = r.dimensions.map (·.id) ++ ds.map (·.id) := rfl

theorem isSome_dimension?_iff {id : String} :
    (r.dimension? id).isSome = true ↔ id ∈ r.dimensionIds := by
  have hcolumns : (r.dimensions.find? (·.id == id)).isSome = true ↔
      id ∈ r.dimensions.map (·.id) := by
    simp
  have hcalcs : (r.calculatedDimensions.find? (·.id == id)).isSome = true ↔
      id ∈ r.calculatedDimensions.map (·.id) := by
    simp
  rw [dimensionIds, List.mem_append, ← hcolumns, ← hcalcs, dimension?]
  cases r.dimensions.find? (·.id == id) <;> simp

/-- Other dimensions, with names used once. -/
theorem Accepted.of_dimensions (h : r.Accepted) (hbase : r'.baseMetrics = r.baseMetrics)
    (hcalc : r'.calculatedMetrics = r.calculatedMetrics)
    (hvalid : ∀ id ∈ r'.dimensionIds, isName id = true) (hnodup : r'.dimensionIds.Nodup) :
    r'.Accepted where
  toWellFormed := h.toWellFormed.of_sublist (by rw [metricIds, metricIds, hbase, hcalc])
  bases := hbase ▸ h.bases
  dimensionsValid := hvalid
  dimensionsNodup := hnodup

theorem Accepted.of_dimensionIds_perm (h : r.Accepted) {id : String}
    (hbase : r'.baseMetrics = r.baseMetrics) (hcalc : r'.calculatedMetrics = r.calculatedMetrics)
    (hname : isName id = true) (hfree : r.dimension? id = none)
    (hids : r'.dimensionIds.Perm (id :: r.dimensionIds)) : r'.Accepted := by
  have hnew : id ∉ r.dimensionIds := by
    rw [← isSome_dimension?_iff, hfree]
    nofun
  refine h.of_dimensions hbase hcalc (fun x hx => ?_)
    (hids.nodup_iff.2 (List.nodup_cons.2 ⟨hnew, h.dimensionsNodup⟩))
  rcases List.mem_cons.1 (hids.mem_iff.1 hx) with rfl | hx
  · exact hname
  · exact h.dimensionsValid x hx

theorem Accepted.of_dimensionIds_sublist (h : r.Accepted) (hbase : r'.baseMetrics = r.baseMetrics)
    (hcalc : r'.calculatedMetrics = r.calculatedMetrics)
    (hids : r'.dimensionIds.Sublist r.dimensionIds) : r'.Accepted :=
  h.of_dimensions hbase hcalc (fun id hid => h.dimensionsValid id (hids.subset hid))
    (h.dimensionsNodup.sublist hids)

theorem Operation.Leaves.accepted {op : Operation} (h : op.Leaves r r') (hr : r.Accepted) :
    r'.Accepted := by
  cases h with
  | same => exact hr
  | recompiled _ ids => exact hr.withCalculatedMetrics_of_ids ids
  | addedBase valid free => exact hr.appendBase valid free
  | updatedBase valid ids => exact (hr.putBase valid).withCalculatedMetrics_of_ids ids
  | addedCalculated id_eq name free =>
    rw [← id_eq] at name free
    exact hr.appendCalculated name free
  | removedMetric id => exact hr.filterMetrics id
  | addedDimension name free =>
    refine hr.of_dimensionIds_perm rfl rfl name free ?_
    rw [dimensionIds_withDimensions, List.map_append, List.append_assoc]
    exact List.perm_middle
  | addedCalculatedDimension id_eq name free =>
    rw [← id_eq] at name free
    refine hr.of_dimensionIds_perm rfl rfl name free ?_
    rw [dimensionIds_withCalculatedDimensions, List.map_append, ← List.append_assoc]
    exact List.perm_append_singleton _ _
  | removedDimension id =>
    exact hr.of_dimensionIds_sublist rfl rfl
      ((List.filter_sublist.map _).append (List.filter_sublist.map _))
  | validated ids hds =>
    refine (hr.withCalculatedMetrics_of_ids ids).of_dimensionIds_sublist rfl rfl ?_
    rw [dimensionIds_withCalculatedDimensions, hds]
    exact List.Sublist.refl _

/-- Operations keep what makes a document acceptable, also those that fail. -/
theorem Accepted.run (h : r.Accepted) (op : Operation) : (op.run d r).Accepted :=
  (op.leaves_run d r).accepted h

/-! ## What operations leave alone -/

theorem heading_applyCascade (r : Registry) (outcome : CascadeOutcome) :
    (r.applyCascade outcome).document.heading = r.document.heading := by
  obtain ⟨ms, hms, -⟩ := exists_applyCascade_eq r outcome
  rw [hms]
  rfl

theorem Operation.Leaves.heading_eq {op : Operation} (h : op.Leaves r r') :
    r'.document.heading = r.document.heading := by
  cases h <;> rfl

/-- No operation changes what a document says of its table and of itself. -/
theorem heading_run (r : Registry) (op : Operation) :
    (op.run d r).document.heading = r.document.heading :=
  (op.leaves_run d r).heading_eq

/-- Only what an operation is to remove may be gone after it. -/
structure Operation.Keeps (op : Operation) (r r' : Registry) : Prop where
  baseMetrics : ∀ id, op ≠ .removeMetric id →
    id ∈ r.baseMetrics.map (·.id) → id ∈ r'.baseMetrics.map (·.id)
  dimensions : ∀ id, op ≠ .removeDimension id → id ∈ r.dimensionIds → id ∈ r'.dimensionIds

theorem Operation.Leaves.keeps {op : Operation} (h : op.Leaves r r') : op.Keeps r r' := by
  have hsubset {op : Operation} {r' : Registry}
      (hbase : r.baseMetrics.map (·.id) ⊆ r'.baseMetrics.map (·.id))
      (hdimension : r.dimensionIds ⊆ r'.dimensionIds) : op.Keeps r r' :=
    ⟨fun _ _ hid => hbase hid, fun _ _ hid => hdimension hid⟩
  cases h with
  | same => exact hsubset (List.Subset.refl _) (List.Subset.refl _)
  | recompiled => exact hsubset (List.Subset.refl _) (List.Subset.refl _)
  | addedCalculated => exact hsubset (List.Subset.refl _) (List.Subset.refl _)
  | addedBase =>
    refine hsubset ?_ (List.Subset.refl _)
    exact List.map_subset _ (List.subset_append_left _ _)
  | @updatedBase m =>
    have hids : (r.putBase m).baseMetrics.map (·.id) = r.baseMetrics.map (·.id) :=
      List.append_cancel_right (metricIds_putBase r m)
    exact hsubset (fun _ hid => hids.symm ▸ hid) (List.Subset.refl _)
  | removedMetric id =>
    refine ⟨fun other hop => ?_, fun _ _ h => h⟩
    exact mem_map_filter_of_ne fun heq => hop (heq ▸ rfl)
  | addedDimension =>
    refine hsubset (List.Subset.refl _) fun other hother => ?_
    rw [dimensionIds_withDimensions, List.map_append, List.append_assoc]
    exact List.mem_append.2 ((List.mem_append.1 hother).imp_right (List.mem_append_right _))
  | addedCalculatedDimension =>
    refine hsubset (List.Subset.refl _) fun other hother => ?_
    rw [dimensionIds_withCalculatedDimensions, List.map_append, ← List.append_assoc]
    exact List.mem_append_left _ hother
  | removedDimension id =>
    refine ⟨fun _ _ h => h, fun other hop hother => ?_⟩
    have hne : other ≠ id := fun heq => hop (heq ▸ rfl)
    exact List.mem_append.2 ((List.mem_append.1 hother).imp
      (mem_map_filter_of_ne hne) (mem_map_filter_of_ne hne))
  | validated _ hds =>
    refine hsubset (List.Subset.refl _) fun other hother => ?_
    rw [dimensionIds_withCalculatedDimensions, hds]
    exact hother

/-- Base metrics and dimensions stay there through all operations but their removal. -/
theorem Operation.keeps_run (op : Operation) (d : Sql.Dialect) (r : Registry) :
    op.Keeps r (op.run d r) :=
  (op.leaves_run d r).keeps

end Registry

end MetricLayer
