import Mathlib.Data.Set.Finite.Basic
import MetricLayer.Proofs.Registry.Acceptance
import MetricLayer.Proofs.Route.Columns
import MetricLayer.Proofs.Route.Rules

/-!
# The advice of a refused request

A request that insists on a rollup and counts distinct values is refused where none
can answer it, and it is told the dimensions of one to create. A rollup follows this
advice (`Router.Advised`) if it groups by these dimensions and holds the base metrics
that the request needs; it helps (`Router.Helps`) if the catalog takes it in and the
request is sent to it once it is ready. There is one that does both unless the request
names no dimension, since no rollup may group by none, or names a metric that leads to
a system metric, which no rollup serves (`Router.exists_helps_iff`).
-/

namespace MetricLayer

/-- Whatever names are taken, there is another. -/
theorem exists_isName_not_mem (ids : List String) : ∃ id, isName id = true ∧ id ∉ ids := by
  have hinjective : Function.Injective fun n => String.ofList ('r' :: List.replicate n 'r') := by
    intro m n h
    simpa using congrArg List.length (String.ofList_injective h)
  obtain ⟨_, ⟨n, rfl⟩, hfresh⟩ :=
    (Set.infinite_range_of_injective hinjective).exists_notMem_finset ids.toFinset
  refine ⟨_, ?_, by simpa using hfresh⟩
  simp [isName, List.all_replicate, Text.isNameChar]

namespace RouteNeeds.Are

variable {r : Registry} {request : RouteRequest} {needs : RouteNeeds}

theorem mem_columns_iff (h : needs.Are r request) {column : String} : column ∈ needs.columns ↔
    ∃ id ∈ request.metrics, ∃ m, r.Needs id column m := by
  simp only [h.mem_columns, Registry.mem_columnsOf]

theorem unroutable_iff (h : needs.Are r request) : needs.unroutable = none ↔
    ∀ id ∈ request.metrics, ¬ r.ReachesSystem id := by
  simp only [h.unroutable, Registry.isRoutable_iff]

end RouteNeeds.Are

/-! ## The advised rollup -/

namespace Registry

/-- The base metric of which a column is part in a rollup. -/
def storedFor (r : Registry) (column : String) : String :=
  if (r.baseMetric? column).isSome then column else (unflagged? column).getD column

/-- A base metric as a rollup has to hold it for these columns. -/
def stored (r : Registry) (columns : List String) (id : String) : RollupMetric where
  metricId := id
  includeConditional := columns.contains (flaggedColumn id) && (r.metric? (flaggedColumn id)).isNone
  flagColumn := some "is_flagged"

/-- A rollup of the dimensions and columns that a request needs, and of nothing else. -/
def advised (r : Registry) (needs : RouteNeeds) (id : String) : RollupDefinition where
  id
  dimensions := needs.dimensions
  metrics := (sortedSet (needs.columns.map r.storedFor)).map (r.stored needs.columns)

variable {r : Registry} {id column : String} {columns : List String} {m : BaseMetric}

/-- A needed column is that of a base metric or, where no metric has its name, that of
one over flagged rows. -/
theorem Needs.cases_column (h : r.Needs id column m) : r.baseMetric? column = some m ∨
    r.metric? column = none ∧ ∃ name, name ≠ "" ∧ column = flaggedColumn name ∧
      r.baseMetric? name = some m := by
  cases h with
  | base known => exact .inl (metric?_eq_base_iff.1 known)
  | flagged unknown nonempty named known => exact .inr ⟨unknown, _, nonempty, named, known⟩
  | calculated _ _ _ aggregated => exact .inl aggregated

theorem Needs.baseMetric?_storedFor (h : r.Needs id column m) :
    r.baseMetric? (r.storedFor column) = some m := by
  rcases h.cases_column with hbase | ⟨hnone, name, hne, rfl, hname⟩
  · simp [storedFor, hbase]
  · simp [storedFor, baseMetric?_eq_none_of_metric? hnone, unflagged?_flaggedColumn hne, hname]

theorem Needs.mem_outputColumns (h : r.Needs id column m) (hcolumn : column ∈ columns) :
    column ∈ (r.stored columns (r.storedFor column)).outputColumns := by
  rw [RollupMetric.mem_outputColumns]
  rcases h.cases_column with hbase | ⟨hnone, name, hne, rfl, -⟩
  · exact .inl (by simp [stored, storedFor, hbase])
  · right
    simp [stored, storedFor, baseMetric?_eq_none_of_metric? hnone, unflagged?_flaggedColumn hne,
      hcolumn, hnone]

theorem stored_mem_advised {needs : RouteNeeds} (id : String) (hcolumn : column ∈ needs.columns) :
    r.stored needs.columns (r.storedFor column) ∈ (r.advised needs id).metrics :=
  List.mem_map_of_mem (mem_sortedSet.2 (List.mem_map_of_mem hcolumn))

end Registry

theorem RouteNeeds.Are.columns_subset_advised {r : Registry} {request : RouteRequest}
    {needs : RouteNeeds} (h : needs.Are r request) (id : String) :
    needs.columns ⊆ (r.advised needs id).availableMetrics := by
  intro column hcolumn
  obtain ⟨requested, -, m, hm⟩ := h.mem_columns_iff.1 hcolumn
  exact List.mem_flatMap.2 ⟨_, Registry.stored_mem_advised id hcolumn, hm.mem_outputColumns hcolumn⟩

/-- A definition with an id of its own is taken in if its shape is right. -/
theorem RollupCatalog.exists_create {c : RollupCatalog} {r : Registry}
    {definition : RollupDefinition} (hname : isName definition.id = true)
    (hnew : definition.id ∉ c.rollups.map (·.id))
    (hshape : checkShape r definition.dimensions definition.metrics = .ok ()) (now : Timestamp) :
    ∃ created c', c.create r now definition = .ok (created, c') := by
  have hfind : c.find? definition.id = none := by
    simpa [find?] using hnew
  simp only [create, Registry.checkId_eq_ok_iff.2 hname, hfind, hshape, bind, Except.bind,
    Option.isSome_none, Bool.false_eq_true, if_false]
  exact ⟨_, _, rfl⟩

/-- The shape of an advised rollup is right as soon as there is a dimension to group by. -/
theorem Registry.checkShape_advised {r : Registry} {request : RouteRequest} {needs : RouteNeeds}
    (hneeds : needs.Are r request) (hunknown : RouteNeeds.unknownIds r request = [])
    (hdimensions : needs.dimensions ≠ []) (hcolumns : needs.columns ≠ []) (id : String) :
    RollupCatalog.checkShape r (r.advised needs id).dimensions (r.advised needs id).metrics =
      .ok () := by
  rw [RollupCatalog.checkShape_eq_ok_iff, RollupCatalog.checkDimensions_eq_ok_iff,
    RollupCatalog.checkMetrics_eq_ok_iff]
  refine ⟨hdimensions, ?_, ⟨?_, fun dimension hdimension => ?_⟩, ?_, fun stored hstored => ?_⟩
  · obtain ⟨column, hcolumn⟩ := List.exists_mem_of_ne_nil _ hcolumns
    exact List.ne_nil_of_mem (stored_mem_advised id hcolumn)
  · simp only [advised, hneeds.dimensions]
    exact nodup_sortedSet _
  · simp only [advised, hneeds.dimensions, mem_sortedSet] at hdimension
    exact RouteNeeds.isSome_dimension?_of_unknownIds hunknown hdimension
  · have hids : (r.advised needs id).metrics.map (·.metricId) =
        sortedSet (needs.columns.map r.storedFor) := by
      simp [advised, Function.comp_def, stored]
    rw [hids]
    exact nodup_sortedSet _
  · obtain ⟨base, hbase, rfl⟩ := List.mem_map.1 hstored
    obtain ⟨column, hcolumn, rfl⟩ := List.mem_map.1 (mem_sortedSet.1 hbase)
    obtain ⟨requested, -, m, hm⟩ := hneeds.mem_columns_iff.1 hcolumn
    have hflag : (r.stored needs.columns (r.storedFor column)).flag?.isSome = true := by
      have : Text.isBlankText "is_flagged" = false := by decide
      simp [stored, RollupMetric.flag?, this]
    rw [RollupCatalog.checkMetric_eq_ok_iff]
    exact ⟨by simp [stored, hm.baseMetric?_storedFor], fun _ => hflag⟩

/-! ## Routing with one rollup more -/

namespace Router

variable {router : Router} {request : RouteRequest} {needs : RouteNeeds}
  {rollup : RollupDefinition} {dimensions : List String}

/-- A router that has one rollup more. -/
def withRollup (router : Router) (rollup : RollupDefinition) : Router :=
  { router with rollups := router.rollups ++ [rollup] }

/-- The next rollup is the only candidate where there was none. -/
theorem candidates_withRollup (h : router.candidates needs = []) :
    (router.withRollup rollup).candidates needs = (router.candidate? needs rollup).toList := by
  have hnone : router.rollups.filterMap (router.candidate? needs) = [] := by
    rw [candidates] at h
    exact (h ▸ (ranked_perm _ _)).nil_eq.symm
  have hsame : (router.withRollup rollup).candidate? needs = router.candidate? needs := rfl
  rw [candidates, hsame, withRollup, List.filterMap_append, hnone, List.nil_append]
  cases hcandidate : router.candidate? needs rollup with
  | none => simp [hcandidate, ranked]
  | some candidate => simp [hcandidate, ranked, insertRanked]

/-- A request that was refused is sent to the next rollup just if this one has a score. -/
theorem route_withRollup_iff (hneeds : RouteNeeds.ofRequest router.registry request = .ok needs)
    (hnone : router.candidates needs = [])
    (hrefused : (request.requireRollup && needs.hasDistinct) = true) :
    (∃ decision, (router.withRollup rollup).route request = .ok decision ∧
      decision.rollup.map (·.rollupId) = some rollup.id) ↔
      (router.score? needs rollup).isSome = true := by
  have hmore : RouteNeeds.ofRequest (router.withRollup rollup).registry request = .ok needs := hneeds
  rw [route_eq hmore, candidates_withRollup hnone, candidate?]
  cases hscore : router.score? needs rollup with
  | none => simp [hrefused]
  | some score => simp [toRollup]

/-- A request is refused where no rollup can answer and it insists on one that counts
distinct values. -/
theorem of_route_infeasible (h : router.route request = .error (.routingInfeasible dimensions)) :
    ∃ needs, RouteNeeds.ofRequest router.registry request = .ok needs ∧
      router.candidates needs = [] ∧ (request.requireRollup && needs.hasDistinct) = true ∧
      dimensions = needs.dimensions := by
  cases hneeds : RouteNeeds.ofRequest router.registry request with
  | error e =>
    rw [route, hneeds] at h
    obtain rfl : e = .routingInfeasible dimensions := Except.error.inj h
    rw [RouteNeeds.ofRequest] at hneeds
    split at hneeds <;> cases hneeds
  | ok needs =>
    rw [route_eq hneeds] at h
    split at h
    · cases h
    · rename_i hnone
      split at h <;> [skip; cases h]
      obtain rfl := Error.routingInfeasible.inj (Except.error.inj h)
      exact ⟨needs, rfl, hnone, ‹_›, rfl⟩

/-! ## Advice -/

/-- A definition follows the advice to a request: it groups by the dimensions of the
advice, and holds each base metric that the request needs, over flagged rows too where
these are asked for. -/
structure Advised (router : Router) (request : RouteRequest) (dimensions : List String)
    (definition : RollupDefinition) : Prop where
  dimensions : definition.dimensions.Perm dimensions
  metrics : ∀ id ∈ request.metrics, ∀ column m, router.registry.Needs id column m →
    ∃ stored ∈ definition.metrics, router.registry.baseMetric? stored.metricId = some m ∧
      column ∈ stored.outputColumns

/-- The catalog takes a definition in at any time, and once the rollup is ready the
request is sent to it. -/
def Helps (router : Router) (request : RouteRequest) (definition : RollupDefinition) : Prop :=
  ∀ now, ∃ created c, RollupCatalog.create ⟨router.rollups⟩ router.registry now definition =
      .ok (created, c) ∧
    ∀ build, build.status = .ready →
      ∃ decision, (router.withRollup { created with build }).route request = .ok decision ∧
        decision.rollup.map (·.rollupId) = some created.id

/-- What helps does not group by nothing, and what it is to answer leads to no system
metric. -/
theorem of_helps (hneeds : RouteNeeds.ofRequest router.registry request = .ok needs)
    (hnone : router.candidates needs = [])
    (hrefused : (request.requireRollup && needs.hasDistinct) = true)
    {definition : RollupDefinition} (hadvised : router.Advised request needs.dimensions definition)
    (hhelps : router.Helps request definition) :
    needs.dimensions ≠ [] ∧ needs.unroutable = none := by
  obtain ⟨created, c, hcreate, hroute⟩ := hhelps ⟨0, 0⟩
  obtain ⟨-, hshape, -, -⟩ := RollupCatalog.of_create hcreate
  constructor
  · intro hnil
    have hempty : definition.dimensions = [] := (hnil ▸ hadvised.dimensions).eq_nil
    exact (RollupCatalog.checkShape_eq_ok_iff.1 hshape).1 hempty
  · have hscore := (route_withRollup_iff hneeds hnone hrefused).1 (hroute { status := .ready } rfl)
    exact (isSome_score?.1 hscore).1

theorem advised_advised (hare : needs.Are router.registry request) (id : String) :
    router.Advised request needs.dimensions (router.registry.advised needs id) := by
  refine ⟨.refl _, fun requested hrequested column m hm => ?_⟩
  have hcolumn : column ∈ needs.columns := hare.mem_columns_iff.2 ⟨requested, hrequested, m, hm⟩
  exact ⟨_, Registry.stored_mem_advised id hcolumn, hm.baseMetric?_storedFor,
    hm.mem_outputColumns hcolumn⟩

theorem helps_advised (hneeds : RouteNeeds.ofRequest router.registry request = .ok needs)
    (hnone : router.candidates needs = [])
    (hrefused : (request.requireRollup && needs.hasDistinct) = true)
    (hdimensions : needs.dimensions ≠ []) (hroutable : needs.unroutable = none) {id : String}
    (hname : isName id = true) (hnew : id ∉ router.rollups.map (·.id)) :
    router.Helps request (router.registry.advised needs id) := by
  intro now
  obtain ⟨hunknown, hare⟩ := RouteNeeds.are_of_ofRequest hneeds
  have hcolumns : needs.columns ≠ [] := by
    obtain ⟨-, hdistinct⟩ := Bool.and_eq_true_iff.1 hrefused
    obtain ⟨requested, hrequested, column, m, hm, -⟩ := (needsDistinct_iff hare).2 hdistinct
    exact List.ne_nil_of_mem (hare.mem_columns_iff.2 ⟨requested, hrequested, m, hm⟩)
  obtain ⟨created, c, hcreate⟩ := RollupCatalog.exists_create (c := ⟨router.rollups⟩) hname hnew
    (Registry.checkShape_advised hare hunknown hdimensions hcolumns id) now
  refine ⟨created, c, hcreate, fun build hready => ?_⟩
  obtain ⟨-, -, ⟨targetTableName, rfl⟩, -⟩ := RollupCatalog.of_create hcreate
  have hnodup : needs.dimensions.Nodup := hare.dimensions ▸ nodup_sortedSet _
  refine (route_withRollup_iff hneeds hnone hrefused).2 (isSome_score?.2 ⟨hroutable, ?_, ?_, ?_, ?_⟩)
  · simp [BuildState.isReady, hready]
  · exact List.Subset.refl _
  · exact hare.columns_subset_advised id
  · exact fun _ => length_sortedSet_of_nodup hnodup

/-- **Advice to refused requests.** For a request that is refused there is a rollup that
follows the advice and helps just if the request names a dimension and no metric that
leads to a system metric. -/
theorem exists_helps_iff (h : router.route request = .error (.routingInfeasible dimensions)) :
    (∃ definition, router.Advised request dimensions definition ∧
      router.Helps request definition) ↔
      dimensions ≠ [] ∧ ∀ id ∈ request.metrics, ¬ router.registry.ReachesSystem id := by
  obtain ⟨needs, hneeds, hnone, hrefused, rfl⟩ := of_route_infeasible h
  obtain ⟨-, hare⟩ := RouteNeeds.are_of_ofRequest hneeds
  rw [← hare.unroutable_iff]
  constructor
  · rintro ⟨definition, hadvised, hhelps⟩
    exact of_helps hneeds hnone hrefused hadvised hhelps
  · rintro ⟨hdimensions, hroutable⟩
    obtain ⟨id, hname, hnew⟩ := exists_isName_not_mem (router.rollups.map (·.id))
    exact ⟨_, advised_advised hare id,
      helps_advised hneeds hnone hrefused hdimensions hroutable hname hnew⟩

/-- Visitors by date and country, and their average over the days. -/
def visitorsDocument : SchemaDocument where
  table := "web"
  sourceTable := "raw.web"
  baseMetrics := [{ id := "visitors", sourceColumns := ["visitor"], aggregation := .countDistinct }]
  calculatedMetrics := [{ id := "visitors_a_day", formula := "{visitors} / {days_in_range}" }]
  dimensions := [
    { id := "country", columnName := "country" },
    { id := "date", columnName := "date", dataType := .date }]

/-- A rollup that is finer than the request is of no use, and a coarser one can be
created. -/
theorem exists_helps_for_visitors :
    let router : Router :=
      { registry := ⟨visitorsDocument⟩
        rollups := [{
          id := "daily"
          dimensions := ["date", "country"]
          metrics := [⟨"visitors", true, some "is_new"⟩]
          build := { status := .ready } }] }
    let request : RouteRequest :=
      { dimensions := ["date"], metrics := ["visitors", "visitors_flagged"], requireRollup := true }
    router.route request = .error (.routingInfeasible ["date"]) ∧
      ∃ definition, router.Advised request ["date"] definition ∧
        router.Helps request definition := by
  intro router request
  have hrefused : router.route request = .error (.routingInfeasible ["date"]) := by
    decide +kernel
  have hroutable : ∀ id ∈ request.metrics, router.registry.isRoutable id = true := by
    decide +kernel
  exact ⟨hrefused, (exists_helps_iff hrefused).2
    ⟨by decide, fun id hid => Registry.isRoutable_iff.1 (hroutable id hid)⟩⟩

/-- One request leads to a system metric, and one names no dimension. -/
def refusedRequests : List RouteRequest := [
  { dimensions := ["date"], metrics := ["visitors_a_day"], requireRollup := true },
  { metrics := ["visitors"], requireRollup := true }]

/-- Both are told to create a rollup, and no rollup helps. -/
theorem exists_infeasible_not_helped :
    let router : Router := { registry := ⟨visitorsDocument⟩, rollups := [] }
    Registry.ofDocument visitorsDocument = .ok ⟨visitorsDocument⟩ ∧
      ∀ request ∈ refusedRequests, ∃ dimensions,
        router.route request = .error (.routingInfeasible dimensions) ∧
        ¬ ∃ definition, router.Advised request dimensions definition ∧
          router.Helps request definition := by
  intro router
  refine ⟨by decide +kernel, fun request hrequest => ?_⟩
  have hany : ∀ request ∈ refusedRequests,
      (RouteNeeds.ofRequest router.registry request).toOption.any (fun needs =>
        (request.requireRollup && needs.hasDistinct) &&
          (needs.dimensions.isEmpty || needs.unroutable.isSome)) = true := by
    decide +kernel
  obtain ⟨needs, hneeds, hrefused⟩ := Except.exists_of_any (hany request hrequest)
  rw [Bool.and_eq_true, Bool.or_eq_true, List.isEmpty_iff] at hrefused
  obtain ⟨hrefused, hhopeless⟩ := hrefused
  refine ⟨needs.dimensions, ?_, ?_⟩
  · rw [route_eq hneeds, if_pos hrefused]
    rfl
  · rintro ⟨definition, hadvised, hhelps⟩
    obtain ⟨hdimensions, hroutable⟩ := of_helps hneeds rfl hrefused hadvised hhelps
    rcases hhopeless with hnil | hsome
    · exact hdimensions hnil
    · rw [hroutable] at hsome
      cases hsome

end Router

end MetricLayer
