import Mathlib.Data.List.Perm.Subperm
import MetricLayer.Proofs.Registry.Agreement
import MetricLayer.Proofs.Rollup.Catalog
import MetricLayer.Proofs.SortedSet
import MetricLayer.Route.Router

/-!
# What a rollup was chosen for

A request that is sent to a rollup is sent to one that is ready, groups by every
dimension of the request and holds every column that the request needs
(`Router.chosen_of_route`). It needs the columns of all metrics that requested
ones rest on (`RouteNeeds.covers_of_ofRequest`).
-/

namespace MetricLayer

namespace Registry

variable (r : Registry)

/-- The columns that a requested metric is computed from. -/
def columnsOf (id : String) : List String :=
  match r.requested id with
  | .base _ => [id]
  | .calculated m => (DependencyGraph.ofRegistry r).transitiveBases m.id
  | .system | .unknown => []

/-- The columns that a request needs. -/
def neededColumns (request : RouteRequest) : List String := request.metrics.flatMap r.columnsOf

theorem mem_neededColumns {r : Registry} {request : RouteRequest} {id column : String}
    (hid : id ∈ request.metrics) (hcolumn : column ∈ r.columnsOf id) :
    column ∈ r.neededColumns request :=
  List.mem_flatMap.2 ⟨id, hid, hcolumn⟩

/-- The base metrics that a requested metric rests on. -/
def basesOf (id : String) : List BaseMetric :=
  match r.requested id with
  | .base m => [m]
  | .calculated m =>
    ((DependencyGraph.ofRegistry r).transitiveBases m.id).filterMap r.baseMetric?
  | .system | .unknown => []

/-- Whether a requested metric has nothing to do with system metrics. -/
def isRoutable (id : String) : Bool :=
  match r.requested id with
  | .calculated m => !r.usesSystemMetric m.id
  | .system => false
  | .base _ | .unknown => true

end Registry

namespace RouteNeeds

variable {r : Registry} {request : RouteRequest} {needs : RouteNeeds}

/-- A table that has what is needed can serve a metric. -/
structure Covers (r : Registry) (needs : RouteNeeds) (id : String) : Prop where
  columns : r.columnsOf id ⊆ needs.columns
  routable : needs.unroutable = none → r.isRoutable id = true
  distinct : needs.hasDistinct = false → ∀ m ∈ r.basesOf id, m.aggregation.isDistinct = false

theorem mem_foldl_insertSorted {ids columns : List String} {id : String} :
    id ∈ ids.foldl (fun columns base => insertSorted base columns) columns ↔
      id ∈ ids ∨ id ∈ columns := by
  induction ids generalizing columns with
  | nil => simp
  | cons x ids ih =>
    rw [List.foldl_cons, ih, mem_insertSorted, List.mem_cons]
    tauto

/-- The needs of a request grow with each of its metrics. -/
structure Extends (needs needs' : RouteNeeds) : Prop where
  dimensions : needs'.dimensions = needs.dimensions
  columns : needs.columns ⊆ needs'.columns
  unroutable : needs'.unroutable = none → needs.unroutable = none
  distinct : needs'.hasDistinct = false → needs.hasDistinct = false

theorem Extends.refl (needs : RouteNeeds) : needs.Extends needs :=
  ⟨rfl, List.Subset.refl _, id, id⟩

theorem Extends.trans {needs' needs'' : RouteNeeds} (h : needs.Extends needs')
    (h' : needs'.Extends needs'') : needs.Extends needs'' :=
  ⟨h'.dimensions.trans h.dimensions, List.Subset.trans h.columns h'.columns,
    h.unroutable ∘ h'.unroutable, h.distinct ∘ h'.distinct⟩

theorem Extends.covers {needs' : RouteNeeds} (h : needs.Extends needs') {id : String}
    (hid : needs.Covers r id) : needs'.Covers r id :=
  ⟨List.Subset.trans hid.columns h.columns, hid.routable ∘ h.unroutable,
    hid.distinct ∘ h.distinct⟩

theorem or_some_ne_none (o : Option String) (id : String) : o.or (some id) ≠ none := by
  cases o <;> simp

theorem extends_addMetric (r : Registry) (needs : RouteNeeds) (id : String) :
    needs.Extends (addMetric r needs id) := by
  rw [addMetric]
  split
  · exact ⟨rfl, fun _ h => mem_insertSorted.2 (.inr h), fun h => h, by simp +contextual⟩
  · refine ⟨rfl, fun _ h => mem_foldl_insertSorted.2 (.inr h), ?_, by simp +contextual⟩
    dsimp only
    split
    · exact fun h => absurd h (or_some_ne_none _ _)
    · exact fun h => h
  · exact ⟨rfl, List.Subset.refl _, fun h => absurd h (or_some_ne_none _ _), fun h => h⟩
  · exact .refl needs

theorem covers_addMetric (r : Registry) (needs : RouteNeeds) (id : String) :
    (addMetric r needs id).Covers r id := by
  rw [addMetric]
  cases hid : r.requested id with
  | base m =>
    exact ⟨by simp [Registry.columnsOf, hid], by simp [Registry.isRoutable, hid],
      by simp +contextual [Registry.basesOf, hid]⟩
  | calculated m =>
    refine ⟨?_, ?_, ?_⟩
    · simp only [Registry.columnsOf, hid]
      exact fun base hbase => mem_foldl_insertSorted.2 (.inl hbase)
    · simp only [Registry.isRoutable, hid]
      split
      · exact fun h => absurd h (or_some_ne_none _ _)
      · simp_all
    · simp only [Registry.basesOf, hid, Bool.or_eq_false_iff, List.any_eq_false,
        List.mem_filterMap]
      rintro ⟨-, h⟩ m ⟨base, hbase, hm⟩
      simpa [hm] using h base hbase
  | system =>
    exact ⟨by simp [Registry.columnsOf, hid], fun h => absurd h (or_some_ne_none _ _),
      by simp [Registry.basesOf, hid]⟩
  | unknown =>
    exact ⟨by simp [Registry.columnsOf, hid], by simp [Registry.isRoutable, hid],
      by simp [Registry.basesOf, hid]⟩

theorem foldl_addMetric (ids : List String) (needs : RouteNeeds) :
    needs.Extends (ids.foldl (addMetric r) needs) ∧
      ∀ id ∈ ids, (ids.foldl (addMetric r) needs).Covers r id := by
  induction ids generalizing needs with
  | nil => exact ⟨.refl needs, by simp⟩
  | cons id ids ih =>
    obtain ⟨hextends, hcovers⟩ := ih (addMetric r needs id)
    refine ⟨(extends_addMetric r needs id).trans hextends, fun other hother => ?_⟩
    rcases List.mem_cons.1 hother with rfl | hother
    · exact hextends.covers (covers_addMetric r needs other)
    · exact hcovers other hother

/-- The needs of a request cover all of its metrics. -/
theorem covers_of_ofRequest (h : ofRequest r request = .ok needs) :
    needs.dimensions = sortedSet request.allDimensions ∧
      ∀ id ∈ request.metrics, needs.Covers r id := by
  simp only [ofRequest] at h
  split at h
  · cases h
  obtain rfl := Except.ok.inj h
  obtain ⟨hextends, hcovers⟩ := foldl_addMetric (r := r) request.metrics
    { dimensions := sortedSet request.allDimensions }
  exact ⟨hextends.dimensions, hcovers⟩

end RouteNeeds

/-! ## Decisions -/

namespace Router

variable {router : Router} {request : RouteRequest} {decision : RouteDecision}

/-- A rollup that can answer a request, as a decision names it. -/
structure Chosen (router : Router) (request : RouteRequest) (decision : RouteDecision)
    (rollup : RollupDefinition) (needs : RouteNeeds) : Prop where
  mem : rollup ∈ router.rollups
  needs_eq : RouteNeeds.ofRequest router.registry request = .ok needs
  named : decision.rollup.map (·.rollupId) = some rollup.id
  table_eq : decision.table = rollup.targetTableName
  ready : rollup.build.isReady = true
  routable : needs.unroutable = none
  dimensions : needs.dimensions ⊆ rollup.dimensions
  columns : needs.columns ⊆ rollup.availableMetrics
  distinct : needs.hasDistinct = true →
    needs.dimensions.length = (sortedSet rollup.dimensions).length
  finer : decision.needsReaggregation = decide (needs.dimensions.length < rollup.dimensions.length)

variable {rollup : RollupDefinition} {needs : RouteNeeds}

theorem Chosen.mem_dimensions (h : router.Chosen request decision rollup needs) {id : String}
    (hid : id ∈ request.allDimensions) : id ∈ rollup.dimensions := by
  have hneeds := (RouteNeeds.covers_of_ofRequest h.needs_eq).1
  exact h.dimensions (hneeds ▸ mem_sortedSet.2 hid)

theorem Chosen.covers (h : router.Chosen request decision rollup needs) {id : String}
    (hid : id ∈ request.metrics) : needs.Covers router.registry id :=
  (RouteNeeds.covers_of_ofRequest h.needs_eq).2 id hid

theorem Chosen.isRoutable (h : router.Chosen request decision rollup needs) {id : String}
    (hid : id ∈ request.metrics) : router.registry.isRoutable id = true :=
  (h.covers hid).routable h.routable

theorem Chosen.columnsOf_subset (h : router.Chosen request decision rollup needs) {id : String}
    (hid : id ∈ request.metrics) :
    router.registry.columnsOf id ⊆ rollup.availableMetrics :=
  List.Subset.trans (h.covers hid).columns h.columns

/-- Without grouping again there are no dimensions to spare. -/
theorem Chosen.mem_allDimensions (h : router.Chosen request decision rollup needs)
    (hexact : decision.needsReaggregation = false) {id : String} (hid : id ∈ rollup.dimensions) :
    id ∈ request.allDimensions := by
  have hneeds := (RouteNeeds.covers_of_ofRequest h.needs_eq).1
  have hnodup : needs.dimensions.Nodup := hneeds ▸ nodup_sortedSet _
  have hlength : rollup.dimensions.length ≤ needs.dimensions.length := by
    have := h.finer
    rw [hexact] at this
    simpa using this.symm
  have hperm := (hnodup.subperm h.dimensions).perm_of_length_le hlength
  simpa [hneeds] using hperm.mem_iff.2 hid

theorem chosen_of_route (hc : RollupCatalog.Accepted router.registry router.rollups)
    (h : router.route request = .ok decision) (huse : decision.useRollup = true) :
    ∃ rollup needs, router.Chosen request decision rollup needs := by
  simp only [route, bind, Except.bind_eq_ok] at h
  obtain ⟨needs, hneeds, h⟩ := h
  split at h
  · rename_i best rest hcandidates
    obtain rfl := Except.ok.inj h
    have hbest : best ∈ router.candidates needs := hcandidates ▸ List.mem_cons_self
    rw [candidates, (ranked_perm _ _).mem_iff, List.mem_filterMap] at hbest
    obtain ⟨rollup, hmem, hcandidate⟩ := hbest
    rw [candidate?, Option.map_eq_some_iff] at hcandidate
    obtain ⟨score, hscore, rfl⟩ := hcandidate
    rw [score?] at hscore
    dsimp only at hscore
    split at hscore
    · cases hscore
    rename_i hok
    simp only [Bool.or_eq_true, not_or, Option.isSome_iff_ne_none, ne_eq, not_not,
      Bool.not_eq_true', Bool.not_eq_false, List.all_eq_true, List.contains_iff_mem,
      mem_sortedSet, Bool.and_eq_true, not_and, beq_iff_eq] at hok
    obtain ⟨⟨⟨⟨hroutable, hready⟩, hdimensions⟩, hcolumns⟩, hdistinct⟩ := hok
    refine ⟨rollup, needs, hmem, hneeds, rfl, ?_, hready, hroutable, hdimensions, hcolumns,
      fun h => (hdistinct h).symm, rfl⟩
    have hfind : router.rollups.find? (·.id == rollup.id) = some rollup :=
      (find?_eq_some_iff_of_nodup hc.nodup).2 ⟨hmem, rfl⟩
    simp only [toRollup, tableOf, hfind, Option.map_some, Option.getD_some]
  · split at h
    · cases h
    · obtain rfl := Except.ok.inj h
      rw [withoutRollup] at huse
      split at huse <;> cases huse

end Router

end MetricLayer
