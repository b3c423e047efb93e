import MetricLayer.Proofs.Ranking
import MetricLayer.Proofs.Service.Plans
import MetricLayer.Service.Routes

/-!
# Plans of schemas that have changed

A plan merges what the current schema gives into what was planned before
(`plans_iff`). Key columns and cluster columns are always those of a plan made from
scratch. The copied table and the column of its partitions are those of the plan
before, so a plan describes the schema just where that one copied the table that the
schema is of now, in partitions by its dates (`describes_iff_of_plans`). A schema of
another table leaves a copy ready that requests are then routed to
(`exists_ready_copy_of_other_table`).
-/

namespace MetricLayer

/-! ## The columns to cluster by -/

/-- The columns to cluster by, with these answers to questions for numbers. -/
def Registry.clusterColumnsBy (r : Registry)
    (counts : List CountQuery → Except Error (List UInt64)) (most : UInt64) :
    Except Error (List String) :=
  if r.clusterCandidates.isEmpty || most == 0 then .ok []
  else (counts (r.clusterCandidates.map (cardinalityQuery r.sourceTable))).map fun cardinalities =>
    ((ranked (·.2) (r.clusterCandidates.zip cardinalities)).take most.toNat).map (·.1)

/-- Once the number of values of each column is known, those with most values come first,
and columns with equally many stay in the order of the dimensions. -/
theorem Registry.clusterColumnsBy_ranks {r : Registry} {number : String → UInt64}
    {counts : List CountQuery → Except Error (List UInt64)}
    (h : counts (r.clusterCandidates.map (cardinalityQuery r.sourceTable)) =
      .ok (r.clusterCandidates.map number)) (most : UInt64) :
    ∃ ranking : List String, ranking.Perm r.clusterCandidates ∧
      ranking.Pairwise (Outranks (fun column => (number column).toNat) r.clusterCandidates) ∧
      r.clusterColumnsBy counts most = .ok (ranking.take most.toNat) := by
  refine ⟨ranked number r.clusterCandidates, ranked_perm _ _, ?_, ?_⟩
  · have hcongr : ranked number r.clusterCandidates =
        ranked (fun column => ((number column).toNat : Int)) r.clusterCandidates :=
      ranked_congr fun _ _ _ _ => UInt64.lt_iff_toNat_lt.trans Int.ofNat_lt.symm
    rw [hcongr]
    exact pairwise_ranked _ _
  · rw [clusterColumnsBy, h]
    split
    · rename_i hnone
      rw [Bool.or_eq_true] at hnone
      rcases hnone with hnone | hnone
      · rw [List.isEmpty_iff.1 hnone, ranked, List.foldr_nil, List.take_nil]
      · rw [beq_iff_eq.1 hnone]
        rfl
    · have hzip : r.clusterCandidates.zip (r.clusterCandidates.map number) =
          r.clusterCandidates.map fun column => (column, number column) := by
        rw [← List.zip_map', List.map_id']
      rw [Except.map, hzip, ranked_map, ← List.map_take, List.map_map]
      simp [Function.comp_def]

namespace Service

open Work (Pause Answers)

variable {service : Service} {table : String} {answers : Answers} {s s' : State}
  {previous : Option OptimizedSource} {plan : OptimizedSource} {keyMappings : List KeyMapping}
  {clusterColumns : List String}

/-! ## What is merged into a plan -/

@[simp] theorem sourceTable_replan :
    (replan plan keyMappings clusterColumns).sourceTable = plan.sourceTable := by
  rw [replan]
  split <;> rfl

@[simp] theorem partitionColumn_replan :
    (replan plan keyMappings clusterColumns).partitionColumn = plan.partitionColumn := by
  rw [replan]
  split <;> rfl

/-- A plan that has these columns already stays as it is. -/
theorem replan_of_eq (hkeys : plan.keyMappings = keyMappings)
    (hclusters : plan.clusterColumns = clusterColumns) :
    replan plan keyMappings clusterColumns = plan := by
  simp [replan, hkeys, hclusters]

theorem replan_of_ne
    (h : ¬ (plan.keyMappings = keyMappings ∧ plan.clusterColumns = clusterColumns)) :
    replan plan keyMappings clusterColumns =
      { plan with keyMappings, clusterColumns, build := plan.build.markStale } := by
  rw [replan, if_pos]
  rw [Bool.or_eq_true, bne_iff_ne, bne_iff_ne]
  by_contra! heq
  exact h ⟨heq.1.symm, heq.2.symm⟩

@[simp] theorem keyMappings_replan :
    (replan plan keyMappings clusterColumns).keyMappings = keyMappings := by
  by_cases h : plan.keyMappings = keyMappings ∧ plan.clusterColumns = clusterColumns
  · rw [replan_of_eq h.1 h.2, h.1]
  · rw [replan_of_ne h]

@[simp] theorem clusterColumns_replan :
    (replan plan keyMappings clusterColumns).clusterColumns = clusterColumns := by
  by_cases h : plan.keyMappings = keyMappings ∧ plan.clusterColumns = clusterColumns
  · rw [replan_of_eq h.1 h.2, h.2]
  · rw [replan_of_ne h]

theorem isReady_replan : (replan plan keyMappings clusterColumns).build.isReady = true ↔
    plan.build.isReady = true ∧ plan.keyMappings = keyMappings ∧
      plan.clusterColumns = clusterColumns := by
  by_cases h : plan.keyMappings = keyMappings ∧ plan.clusterColumns = clusterColumns
  · rw [replan_of_eq h.1 h.2]
    exact (and_iff_left h).symm
  · rw [replan_of_ne h]
    simp [BuildState.markStale_isReady, h]

/-! ## A plan with its answer -/

/-- The key columns that a schema asks for. -/
def keyMappingsOf (service : Service) (r : Registry) : List KeyMapping :=
  r.keyMappings service.dialect service.config.optimizer.keyPrefix

/-- The cluster columns of a schema, with these answers to questions for numbers. -/
def clusterColumnsOf (service : Service) (answers : Answers) (r : Registry) :
    Except Error (List String) :=
  r.clusterColumnsBy answers.counts service.config.optimizer.maxClusterColumns

/-- A plan of the schema that has no columns yet. -/
def emptyPlan (service : Service) (r : Registry) : OptimizedSource :=
  .ofTable r.sourceTable r.dateColumn service.config.optimizer

/-- With these answers, and no other work meanwhile, a plan succeeds. -/
def Plans (service : Service) (table : String) (answers : Answers) (s : State)
    (plan : OptimizedSource) (s' : State) : Prop :=
  (service.planOptimized table).respond answers s = (.ended (.ok plan), s')

theorem respond_clusterColumns_bind (r : Registry) (most : UInt64)
    (step : List String → Act OptimizedSource) :
    ((Work.clusterColumns r most).bind fun columns => Work.act (step columns)).respond answers s =
      match r.clusterColumnsBy answers.counts most with
      | .ok columns => (.ended ((step columns).run s).1, ((step columns).run s).2)
      | .error e => (.ended (.error e), s) := by
  rw [Registry.clusterColumnsBy]
  simp only [Work.clusterColumns]
  split
  · exact Work.respond_act answers (step []) s
  · rw [Work.respond]
    change Pause.resume answers (.counting _ _ []) s = _
    rw [Pause.resume]
    cases answers.counts (r.clusterCandidates.map (cardinalityQuery r.sourceTable)) with
    | error e => rfl
    | ok cardinalities => exact Work.respond_act answers (step _) s

theorem respond_planOptimized (service : Service) (table : String) (answers : Answers) (s : State) :
    (service.planOptimized table).respond answers s =
      match ((loadRegistry table).run s).1 with
      | .error e => (.ended (.error e), s)
      | .ok r => match service.clusterColumnsOf answers r with
        | .error e => (.ended (.error e), s)
        | .ok columns =>
          let stored := (service.storePlan table r (service.keyMappingsOf r) columns).run s
          (.ended stored.1, stored.2) := by
  rw [planOptimized_eq, respond_loadRegistry_bind]
  cases ((loadRegistry table).run s).1 with
  | error e => rfl
  | ok r =>
    dsimp only
    rw [respond_clusterColumns_bind, clusterColumnsOf]
    cases r.clusterColumnsBy answers.counts service.config.optimizer.maxClusterColumns <;> rfl

/-- What a plan is made of that succeeds, and what is stored after it. -/
theorem plans_iff : Plans service table answers s plan s' ↔
    ∃ r columns previous, ((loadRegistry table).run s).1 = .ok r ∧
      service.clusterColumnsOf answers r = .ok columns ∧
      s.store.loadOptimized table = .ok previous ∧
      plan = replan (previous.getD (service.emptyPlan r)) (service.keyMappingsOf r) columns ∧
      s' = withOptimized table plan s := by
  rw [Plans, respond_planOptimized]
  cases hr : ((loadRegistry table).run s).1 with
  | error e => simp
  | ok r =>
    cases hcolumns : service.clusterColumnsOf answers r with
    | error e => simp [hcolumns]
    | ok columns =>
      cases hload : s.store.loadOptimized table with
      | error e =>
        have hstore : (service.storePlan table r (service.keyMappingsOf r) columns).run s =
            (.error e, s) := by
          simp only [storePlan, loadOptimized, Action.run_bind, Action.run_get, Action.run_lift,
            hload]
        simp [hcolumns, hstore]
      | ok previous =>
        simp only [hcolumns, storePlan_run hload]
        constructor
        · intro h
          cases h
          exact ⟨r, columns, previous, rfl, hcolumns, rfl, rfl, rfl⟩
        · rintro ⟨r', columns', previous', hr, hcolumns', hprevious, rfl, rfl⟩
          cases hr
          cases hcolumns.symm.trans hcolumns'
          cases hprevious
          rfl

/-! ## Whether a plan describes the schema -/

/-- A plan that has what the schema, the numbers of values in its columns and the
configuration give. -/
structure Describes (service : Service) (answers : Answers) (r : Registry)
    (plan : OptimizedSource) : Prop where
  sourceTable : plan.sourceTable = r.sourceTable
  partitionColumn : plan.partitionColumn = r.dateColumn
  keyMappings : plan.keyMappings = service.keyMappingsOf r
  clusterColumns : service.clusterColumnsOf answers r = .ok plan.clusterColumns

/-- The state in which no optimized source is stored for the table. -/
def withoutOptimized (table : String) (s : State) : State :=
  { s with store := s.store.modifyFiles table fun files => { files with optimized := none } }

/-- What becomes of a plan when the schema is planned again. -/
structure Merges (service : Service) (answers : Answers) (r : Registry)
    (previous : Option OptimizedSource) (plan : OptimizedSource) : Prop where
  keyMappings : plan.keyMappings = service.keyMappingsOf r
  clusterColumns : service.clusterColumnsOf answers r = .ok plan.clusterColumns
  describes : Describes service answers r plan ↔ ∀ old, previous = some old →
    old.sourceTable = r.sourceTable ∧ old.partitionColumn = r.dateColumn
  isReady : plan.build.isReady = true ↔ ∃ old, previous = some old ∧
    old.build.isReady = true ∧ old.keyMappings = plan.keyMappings ∧
      old.clusterColumns = plan.clusterColumns
  /-- A plan that is ready builds its table by the statement that it was built by. -/
  fullRefresh : plan.build.isReady = true → ∃ old, previous = some old ∧
    old.build.isReady = true ∧ ∀ d, old.fullRefresh.render d = plan.fullRefresh.render d

theorem merges_replan {r : Registry}
    (hcolumns : service.clusterColumnsOf answers r = .ok clusterColumns) :
    Merges service answers r previous
      (replan (previous.getD (service.emptyPlan r)) (service.keyMappingsOf r) clusterColumns) where
  keyMappings := keyMappings_replan
  clusterColumns := by rw [clusterColumns_replan, hcolumns]
  describes := by
    constructor
    · rintro ⟨hsource, hpartition, -, -⟩ old rfl
      rw [sourceTable_replan] at hsource
      rw [partitionColumn_replan] at hpartition
      exact ⟨hsource, hpartition⟩
    · intro hold
      -- What is kept is from the plan before, or from the schema if there was none.
      have hkept : (previous.getD (service.emptyPlan r)).sourceTable = r.sourceTable ∧
          (previous.getD (service.emptyPlan r)).partitionColumn = r.dateColumn := by
        cases previous with
        | none => exact ⟨rfl, rfl⟩
        | some old => exact hold old rfl
      exact ⟨by rw [sourceTable_replan, hkept.1], by rw [partitionColumn_replan, hkept.2],
        keyMappings_replan, by rw [clusterColumns_replan, hcolumns]⟩
  isReady := by
    rw [isReady_replan, keyMappings_replan, clusterColumns_replan]
    cases previous with
    | none => exact iff_of_false nofun nofun
    | some old => simp
  fullRefresh := by
    intro hready
    obtain ⟨hbuilt, hkeys, hclusters⟩ := isReady_replan.1 hready
    cases previous with
    | none => cases hbuilt
    | some old =>
      refine ⟨old, rfl, hbuilt, fun d => ?_⟩
      rw [replan_of_eq hkeys hclusters, Option.getD_some]

theorem loadRegistry_withoutOptimized (table : String) (s : State) :
    ((loadRegistry table).run (withoutOptimized table s)).1 = ((loadRegistry table).run s).1 := by
  refine loadRegistry_congr ?_
  rw [withoutOptimized, Store.files_modifyFiles, if_pos rfl]

theorem loadOptimized_withoutOptimized (h : s.store.loadOptimized table = .ok previous) :
    (withoutOptimized table s).store.loadOptimized table = .ok none := by
  simp only [Store.loadOptimized, Store.loadFile, checkName_of_loadOptimized h, withoutOptimized,
    Store.files_modifyFiles]
  rfl

/-- A plan made from scratch describes the schema. -/
theorem exists_fresh_describes (h : Plans service table answers s plan s') {r : Registry}
    (hr : ((loadRegistry table).run s).1 = .ok r) :
    ∃ fresh s'', Plans service table answers (withoutOptimized table s) fresh s'' ∧
      Describes service answers r fresh := by
  obtain ⟨r', columns, previous, hr', hcolumns, hload, -, -⟩ := plans_iff.1 h
  cases hr.symm.trans hr'
  have hplans := plans_iff.2 ⟨r, columns, none, (loadRegistry_withoutOptimized table s).trans hr,
    hcolumns, loadOptimized_withoutOptimized hload, rfl, rfl⟩
  exact ⟨_, _, hplans, (merges_replan hcolumns).describes.2 nofun⟩

/-- **Plans of the current schema**: a plan that succeeds is stored, with the key columns
and the cluster columns of a plan made from scratch. It describes the schema just where
the plan before it did not copy another table or have partitions by another column, and
is ready just where that one was ready with the same columns. -/
theorem describes_iff_of_plans (h : Plans service table answers s plan s') :
    ∃ r previous, ((loadRegistry table).run s).1 = .ok r ∧
      s.store.loadOptimized table = .ok previous ∧
      s'.store.loadOptimized table = .ok (some plan) ∧
      Merges service answers r previous plan ∧
      ∃ fresh s'', Plans service table answers (withoutOptimized table s) fresh s'' ∧
        Describes service answers r fresh := by
  obtain ⟨r, columns, previous, hr, hcolumns, hload, hplan, hs'⟩ := plans_iff.1 h
  refine ⟨r, previous, hr, hload, ?_, ?_, exists_fresh_describes h hr⟩
  · rw [hs', loadOptimized_withOptimized hload]
  · rw [hplan]
    exact merges_replan hcolumns

/-! ## A copy of another table -/

/-- A schema of searches in a raw table. -/
def searchDocument (sourceTable : String) : SchemaDocument where
  table := "search"
  sourceTable
  baseMetrics := [{ id := "clicks", sourceColumns := ["clicks"], aggregation := .sum }]
  dimensions := [{ id := "country", columnName := "country" }]

/-- A copy of the raw table that has been built. -/
def searchCopy : OptimizedSource where
  sourceTable := "raw.search"
  optimizedTable := "raw.search_optimized"
  partitionColumn := "date"
  clusterColumns := ["country"]
  build := { status := .ready, rowCount := some 10 }

/-- The copy is stored with a schema of this table. -/
def copiedState (sourceTable : String) : State where
  store := ⟨[("search", {
    schema := some (.saved (searchDocument sourceTable))
    optimized := some (.saved searchCopy) })]⟩
  now := ⟨0, 0⟩

/-- The warehouse finds three values in each column. -/
def threeValues : Answers where
  reply
    | .execute _ => .ok {}
    | .dryRun _ => .ok ()
    | .columns _ => .ok {}
  counts queries := .ok (queries.map fun _ => 3)

/-- Whatever table the schema is of, the copy is planned again as it is. -/
theorem plans_searchCopy (sourceTable : String) :
    Plans {} "search" threeValues (copiedState sourceTable) searchCopy
      (withOptimized "search" searchCopy (copiedState sourceTable)) :=
  plans_iff.2 ⟨⟨searchDocument sourceTable⟩, ["country"], some searchCopy, rfl, rfl, rfl, rfl, rfl⟩

theorem describes_searchCopy :
    (∃ s', Plans {} "search" threeValues (copiedState "raw.search") searchCopy s') ∧
      searchCopy.build.isReady = true ∧
      Describes {} threeValues ⟨searchDocument "raw.search"⟩ searchCopy := by
  obtain ⟨r, previous, hr, hload, -, hmerges, -⟩ :=
    describes_iff_of_plans (plans_searchCopy "raw.search")
  cases hr
  cases hload
  refine ⟨⟨_, plans_searchCopy "raw.search"⟩, rfl, hmerges.describes.2 ?_⟩
  rintro old ⟨⟩
  exact ⟨rfl, rfl⟩

/-- When the schema is of another table the copy stays ready, and requests go to it. -/
theorem exists_ready_copy_of_other_table :
    let s' := withOptimized "search" searchCopy (copiedState "raw.search_v2")
    Plans {} "search" threeValues (copiedState "raw.search_v2") searchCopy s' ∧
      searchCopy.build.isReady = true ∧
      ¬ Describes {} threeValues ⟨searchDocument "raw.search_v2"⟩ searchCopy ∧
      ((({} : Service).route "search" { dimensions := ["country"], metrics := ["clicks"] }).run
        s').1.toOption.map (·.table) = some "raw.search_optimized" := by
  refine ⟨plans_searchCopy "raw.search_v2", rfl, fun h => ?_, rfl⟩
  have hsource : searchCopy.sourceTable = "raw.search_v2" := h.sourceTable
  revert hsource
  decide

end Service

end MetricLayer
