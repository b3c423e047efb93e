import MetricLayer.Proofs.Lookup
import MetricLayer.Proofs.Outcome
import MetricLayer.Rollup.Catalog

/-!
# Catalogs of rollups

The rollups of a catalog have ids of their own, and each has passed the checks of
its shape (`RollupCatalog.Accepted`): a rollup is created, changed and deleted so
that this stays true (`Accepted.create`, `Accepted.update`, `Accepted.delete`), and
it stays true over another registry that has what the rollups rest on
(`Accepted.of_registry`).
-/

namespace MetricLayer.RollupCatalog

variable {r : Registry} {id : String}

theorem find?_modify {c : RollupCatalog} {change : RollupDefinition → RollupDefinition}
    (hid : ∀ r, (change r).id = r.id) (other : String) :
    (c.modify id change).find? other =
      if other = id then (c.find? id).map change else c.find? other := by
  obtain ⟨rollups⟩ := c
  simp only [modify, find?]
  induction rollups with
  | nil => simp [modify.go]
  | cons r rest ih =>
    rw [modify.go]
    by_cases hr : r.id = id
    · by_cases ho : other = id
      · simp [hr, ho, hid]
      · simp [hr, hid, Ne.symm ho, ho]
    · by_cases ho : other = id
      · subst ho
        simpa [hr] using ih
      · simp only [beq_iff_eq, hr, if_false, List.find?_cons, ho] at ih ⊢
        rw [ih]

/-- A change either finds no rollup of its id, or it changes the first. -/
theorem modify_cases (rollups : List RollupDefinition) (id : String)
    (change : RollupDefinition → RollupDefinition) :
    ((∀ r ∈ rollups, r.id ≠ id) ∧ (modify ⟨rollups⟩ id change).rollups = rollups) ∨
    ∃ before r after, rollups = before ++ r :: after ∧ (∀ a ∈ before, a.id ≠ id) ∧ r.id = id ∧
      (modify ⟨rollups⟩ id change).rollups = before ++ change r :: after := by
  simp only [modify]
  induction rollups with
  | nil => exact .inl ⟨List.forall_mem_nil _, rfl⟩
  | cons r rest ih =>
    rw [modify.go]
    by_cases hr : r.id = id
    · exact .inr ⟨[], r, rest, rfl, List.forall_mem_nil _, hr, by simp [hr]⟩
    · rw [if_neg (by simpa using hr)]
      rcases ih with ⟨hne, heq⟩ | ⟨before, first, after, rfl, hne, hfirst, heq⟩
      · exact .inl ⟨List.forall_mem_cons.2 ⟨hr, hne⟩, by rw [heq]⟩
      · exact .inr ⟨r :: before, first, after, rfl, List.forall_mem_cons.2 ⟨hr, hne⟩, hfirst,
          by rw [heq]; rfl⟩

/-- What no change touches is the same for all rollups. -/
theorem map_modify {β : Type} {c : RollupCatalog} {change : RollupDefinition → RollupDefinition}
    {f : RollupDefinition → β} (hf : ∀ r, f (change r) = f r) :
    (c.modify id change).rollups.map f = c.rollups.map f := by
  rcases modify_cases c.rollups id change with ⟨-, heq⟩ | ⟨before, r, after, hc, -, -, heq⟩
  · rw [heq]
  · rw [heq, hc, List.map_append, List.map_append, List.map_cons, List.map_cons, hf]

theorem ids_modify {c : RollupCatalog} {change : RollupDefinition → RollupDefinition}
    (hid : ∀ r, (change r).id = r.id) :
    (c.modify id change).rollups.map (·.id) = c.rollups.map (·.id) :=
  map_modify hid

/-- Where ids are used once, only the rollup of that id changes. -/
theorem mem_modify_iff {c : RollupCatalog} {change : RollupDefinition → RollupDefinition}
    (hid : ∀ r, (change r).id = r.id) (hnodup : (c.rollups.map (·.id)).Nodup)
    {rollup : RollupDefinition} : rollup ∈ (c.modify id change).rollups ↔
      if rollup.id = id then (c.find? id).map change = some rollup else rollup ∈ c.rollups := by
  have hmem {c : RollupCatalog} (h : (c.rollups.map (·.id)).Nodup) :
      rollup ∈ c.rollups ↔ c.find? rollup.id = some rollup := by
    rw [find?, find?_eq_some_iff_of_nodup h, and_iff_left rfl]
  rw [hmem (by rw [ids_modify hid]; exact hnodup), find?_modify hid, hmem hnodup]
  split <;> rfl

/-- A rollup after a change is what the change made of the one with its id, or it has
another id and was there before. -/
theorem cases_of_mem_modify {c : RollupCatalog} {change : RollupDefinition → RollupDefinition}
    (hid : ∀ r, (change r).id = r.id) (hnodup : (c.rollups.map (·.id)).Nodup)
    {rollup : RollupDefinition} (h : rollup ∈ (c.modify id change).rollups) :
    (∃ current ∈ c.rollups, current.id = id ∧ c.find? id = some current ∧
      rollup = change current) ∨ rollup.id ≠ id ∧ rollup ∈ c.rollups := by
  rw [mem_modify_iff hid hnodup] at h
  split at h
  · obtain ⟨current, hcurrent, rfl⟩ := Option.map_eq_some_iff.1 h
    obtain ⟨hmem, heq⟩ := (find?_eq_some_iff_of_nodup hnodup).1 hcurrent
    exact .inl ⟨current, hmem, heq, hcurrent, rfl⟩
  · exact .inr ⟨‹_›, h⟩

theorem nodup_ids_append {c : RollupCatalog} {created : RollupDefinition}
    (h : (c.rollups.map (·.id)).Nodup) (hnew : c.find? created.id = none) :
    ((c.rollups ++ [created]).map (·.id)).Nodup := by
  rw [List.map_append, List.nodup_append]
  refine ⟨h, by simp, fun id hid id' hid' => ?_⟩
  obtain ⟨other, hother, rfl⟩ := List.mem_map.1 hid
  obtain rfl : id' = created.id := by simpa using hid'
  simp only [find?, List.find?_eq_none, beq_iff_eq] at hnew
  exact hnew other hother

theorem removeFirst_sublist (id : String) (rollups : List RollupDefinition) :
    (removeFirst id rollups).Sublist rollups := by
  induction rollups with
  | nil => exact .slnil
  | cons r rest ih =>
    rw [removeFirst]
    split
    · exact List.sublist_cons_self r rest
    · exact ih.cons_cons r

theorem removeFirst_map {f : RollupDefinition → RollupDefinition} (hid : ∀ r, (f r).id = r.id)
    (id : String) (rollups : List RollupDefinition) :
    removeFirst id (rollups.map f) = (removeFirst id rollups).map f := by
  induction rollups with
  | nil => rfl
  | cons r rest ih =>
    simp only [List.map_cons, removeFirst, hid]
    split
    · rfl
    · rw [List.map_cons, ih]

theorem find?_markStaleForMetrics (old : List RollupDefinition) (ids : List String) (id : String) :
    find? (markStaleForMetrics ⟨old⟩ ids).2 id =
      (find? ⟨old⟩ id).map fun r =>
        if holdsAny ids r then { r with build := r.build.markStale } else r := by
  simp only [markStaleForMetrics, find?, List.find?_map]
  congr 1
  congr 1
  funext r
  by_cases h : holdsAny ids r <;> simp [h]

theorem ids_markStaleForMetrics (c : RollupCatalog) (ids : List String) :
    (c.markStaleForMetrics ids).2.rollups.map (·.id) = c.rollups.map (·.id) := by
  simp only [markStaleForMetrics, List.map_map]
  refine List.map_congr_left fun r _ => ?_
  rw [Function.comp_apply]
  split <;> rfl

/-! ## What the operations do -/

/-- A rollup as it is taken in, with a table for it. -/
theorem of_create {c c' : RollupCatalog} {now : Timestamp} {definition created : RollupDefinition}
    (h : c.create r now definition = .ok (created, c')) :
    c.find? definition.id = none ∧
      checkShape r definition.dimensions definition.metrics = .ok () ∧
      (∃ targetTableName, created =
        { definition with targetTableName, createdAt := some now, updatedAt := some now }) ∧
      c'.rollups = c.rollups ++ [created] := by
  simp only [RollupCatalog.create, bind, Except.bind_eq_ok] at h
  obtain ⟨_, -, h⟩ := h
  split at h <;> [cases h; skip]
  rename_i hnew
  simp only [Except.bind_eq_ok] at h
  obtain ⟨_, hshape, h⟩ := h
  obtain ⟨rfl, rfl⟩ := Prod.mk.inj (Except.ok.inj h)
  exact ⟨by simpa using hnew, hshape, ⟨_, rfl⟩, rfl⟩

theorem of_update {c c' : RollupCatalog} {now : Timestamp} {change : RollupUpdate}
    {changed : RollupDefinition} (h : c.update r now id change = .ok (changed, c')) :
    ∃ current, c.find? id = some current ∧ changed = updated current change now ∧
      checkShape r changed.dimensions changed.metrics = .ok () ∧
      c' = c.modify id fun current => updated current change now := by
  rw [RollupCatalog.update] at h
  split at h <;> [cases h; skip]
  rename_i current hcurrent
  simp only [bind, Except.bind_eq_ok] at h
  obtain ⟨_, hshape, h⟩ := h
  obtain ⟨rfl, rfl⟩ := Prod.mk.inj (Except.ok.inj h)
  exact ⟨current, hcurrent, rfl, hshape, rfl⟩

theorem of_delete {c c' : RollupCatalog} {gone : RollupDefinition}
    (h : c.delete id = .ok (gone, c')) :
    c.find? id = some gone ∧ c'.rollups = removeFirst id c.rollups := by
  rw [RollupCatalog.delete] at h
  split at h <;> [cases h; skip]
  obtain ⟨rfl, rfl⟩ := Prod.mk.inj (Except.ok.inj h)
  exact ⟨‹_›, rfl⟩

/-! ## The checks of a shape -/

theorem checkDimensions_eq_ok_iff {dimensions : List String} :
    checkDimensions r dimensions = .ok () ↔
      dimensions.Nodup ∧ ∀ id ∈ dimensions, (r.dimension? id).isSome = true := by
  have hseen := @Except.foldlM_seen_eq_ok_iff Error String String id
    (fun id => (r.dimension? id).isSome = true)
    (fun seen id => if seen.contains id then .error (.schema (.listedTwice .dimension id))
      else if (r.dimension? id).isNone then .error (.schema (.unknown .dimension id))
      else .ok (id :: seen)) ?_
  · simp only [checkDimensions, bind, Except.bind_eq_ok, hseen]
    simp [and_comm]
  · intro seen id seen'
    by_cases hnew : id ∈ seen <;> cases r.dimension? id <;> simp [hnew, eq_comm]

theorem checkMetric_eq_ok_iff {m : RollupMetric} :
    checkMetric r m = .ok () ↔
      (r.baseMetric? m.metricId).isSome = true ∧ (m.includeConditional = true → m.flag?.isSome) := by
  rw [checkMetric]
  cases r.baseMetric? m.metricId with
  | none => cases (r.calculatedMetric? m.metricId).isSome <;> simp
  | some base => cases m.includeConditional <;> cases m.flag? <;> simp

theorem checkMetrics_eq_ok_iff {metrics : List RollupMetric} :
    checkMetrics r metrics = .ok () ↔
      (metrics.map (·.metricId)).Nodup ∧ ∀ m ∈ metrics, checkMetric r m = .ok () := by
  have hseen := @Except.foldlM_seen_eq_ok_iff Error RollupMetric String (·.metricId)
    (fun m => checkMetric r m = .ok ())
    (fun seen m => if seen.contains m.metricId then
        .error (.schema (.listedTwice .metric m.metricId))
      else do
        checkMetric r m
        .ok (m.metricId :: seen)) ?_
  · simp only [checkMetrics, bind, Except.bind_eq_ok] at hseen ⊢
    simp only [hseen]
    simp [and_comm]
  · intro seen m seen'
    by_cases hnew : m.metricId ∈ seen <;> cases checkMetric r m <;>
      simp [hnew, eq_comm, bind, Except.bind]

theorem checkShape_eq_ok_iff {dimensions : List String} {metrics : List RollupMetric} :
    checkShape r dimensions metrics = .ok () ↔ dimensions ≠ [] ∧ metrics ≠ [] ∧
      checkDimensions r dimensions = .ok () ∧ checkMetrics r metrics = .ok () := by
  cases dimensions with
  | nil => simp [checkShape]
  | cons dimension dimensions =>
    cases metrics with
    | nil => simp [checkShape]
    | cons m metrics =>
      simp only [checkShape, List.isEmpty_cons, Bool.false_eq_true, if_false, bind,
        Except.bind_eq_ok, ne_eq, reduceCtorEq, not_false_eq_true, true_and]
      constructor
      · rintro ⟨_, h⟩
        exact h
      · exact fun h => ⟨_, h⟩

theorem of_checkShape {dimensions : List String} {metrics : List RollupMetric}
    (h : checkShape r dimensions metrics = .ok ()) :
    checkDimensions r dimensions = .ok () ∧ checkMetrics r metrics = .ok () :=
  (checkShape_eq_ok_iff.1 h).2.2

theorem nodup_of_checkDimensions {dimensions : List String}
    (h : checkDimensions r dimensions = .ok ()) : dimensions.Nodup :=
  (checkDimensions_eq_ok_iff.1 h).1

theorem nodup_of_checkMetrics {metrics : List RollupMetric}
    (h : checkMetrics r metrics = .ok ()) : (metrics.map (·.metricId)).Nodup :=
  (checkMetrics_eq_ok_iff.1 h).1

/-! ## Accepted rollups -/

/-- What a catalog of rollups over a registry keeps to. -/
structure Accepted (r : Registry) (rollups : List RollupDefinition) : Prop where
  nodup : (rollups.map (·.id)).Nodup
  shaped : ∀ rollup ∈ rollups, checkShape r rollup.dimensions rollup.metrics = .ok ()

/-- Rollups fit any other registry that has their dimensions and base metrics. -/
theorem Accepted.of_registry {r' : Registry} {rollups : List RollupDefinition}
    (h : Accepted r rollups)
    (hdimension : ∀ id, (r.dimension? id).isSome = true → (r'.dimension? id).isSome = true)
    (hbase : ∀ rollup ∈ rollups, ∀ m ∈ rollup.metrics,
      (r.baseMetric? m.metricId).isSome = true → (r'.baseMetric? m.metricId).isSome = true) :
    Accepted r' rollups := by
  refine ⟨h.nodup, fun rollup hrollup => ?_⟩
  have hshape := h.shaped rollup hrollup
  simp only [checkShape_eq_ok_iff, checkDimensions_eq_ok_iff, checkMetrics_eq_ok_iff,
    checkMetric_eq_ok_iff] at hshape ⊢
  obtain ⟨hdims, hmetrics, ⟨hnodup, hknown⟩, hnodup', hheld⟩ := hshape
  exact ⟨hdims, hmetrics, ⟨hnodup, fun id hid => hdimension id (hknown id hid)⟩, hnodup',
    fun m hm => ⟨hbase rollup hrollup m hm (hheld m hm).1, (hheld m hm).2⟩⟩

/-- A catalog that has taken a rollup in. -/
theorem Accepted.create {c c' : RollupCatalog} {now : Timestamp}
    {definition created : RollupDefinition} (hc : Accepted r c.rollups)
    (h : c.create r now definition = .ok (created, c')) : Accepted r c'.rollups := by
  obtain ⟨hnew, hshape, ⟨_, rfl⟩, hrollups⟩ := of_create h
  rw [hrollups]
  refine ⟨nodup_ids_append hc.nodup hnew, fun rollup hrollup => ?_⟩
  rcases List.mem_append.1 hrollup with hrollup | hrollup
  · exact hc.shaped rollup hrollup
  · obtain rfl := List.mem_singleton.1 hrollup
    exact hshape

/-- A catalog that has changed one of its rollups. -/
theorem Accepted.update {c c' : RollupCatalog} {now : Timestamp}
    {change : RollupUpdate} {changed : RollupDefinition} (hc : Accepted r c.rollups)
    (h : c.update r now id change = .ok (changed, c')) : Accepted r c'.rollups := by
  obtain ⟨current, hcurrent, rfl, hshape, rfl⟩ := of_update h
  have hid (current : RollupDefinition) : (updated current change now).id = current.id := rfl
  refine ⟨by rw [ids_modify hid]; exact hc.nodup, fun rollup hrollup => ?_⟩
  rcases cases_of_mem_modify hid hc.nodup hrollup with ⟨found, -, -, hfound, rfl⟩ | ⟨-, hrollup⟩
  · obtain rfl := Option.some.inj (hcurrent.symm.trans hfound)
    exact hshape
  · exact hc.shaped rollup hrollup

/-- A catalog that has let a rollup go. -/
theorem Accepted.delete {c c' : RollupCatalog} {gone : RollupDefinition}
    (hc : Accepted r c.rollups) (h : c.delete id = .ok (gone, c')) : Accepted r c'.rollups := by
  rw [(of_delete h).2]
  have hsub := removeFirst_sublist id c.rollups
  exact ⟨hc.nodup.sublist (hsub.map _),
    fun rollup hrollup => hc.shaped rollup (hsub.subset hrollup)⟩

theorem Accepted.dimensions_ne_nil {rollups : List RollupDefinition} (h : Accepted r rollups)
    {rollup : RollupDefinition} (hrollup : rollup ∈ rollups) : rollup.dimensions ≠ [] :=
  (checkShape_eq_ok_iff.1 (h.shaped rollup hrollup)).1

theorem Accepted.nodup_dimensions {rollups : List RollupDefinition} (h : Accepted r rollups)
    {rollup : RollupDefinition} (hrollup : rollup ∈ rollups) : rollup.dimensions.Nodup :=
  nodup_of_checkDimensions (of_checkShape (h.shaped rollup hrollup)).1

theorem Accepted.nodup_metricIds {rollups : List RollupDefinition} (h : Accepted r rollups)
    {rollup : RollupDefinition} (hrollup : rollup ∈ rollups) :
    (rollup.metrics.map (·.metricId)).Nodup :=
  nodup_of_checkMetrics (of_checkShape (h.shaped rollup hrollup)).2

end MetricLayer.RollupCatalog
