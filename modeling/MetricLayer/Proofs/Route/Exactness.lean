import MetricLayer.Proofs.Route.Answers

/-!
# Answers without grouping again

A decision not to group the rows of a rollup again is made when the rollup has no
dimensions but those that the request groups or filters by. Rows of the rollup
that differ in a dimension of a filter only are then separate rows of the answer,
where the direct answer has one. So the answers are the same if and only if the
rows asked for have one value of each such dimension in every group
(`Router.ungrouped_perm_grouped_iff`).
-/

namespace MetricLayer

open Sql (Engine Row Scope Select)

namespace Registry

/-- Rows in the same group of a request have the same values of the dimensions
that it filters by, and there are rows if all of them are one group. -/
def FiltersSettled (r : Registry) (d : Sql.Dialect) (engine : Engine) (request : RouteRequest)
    (rows : List Row) : Prop :=
  (∀ x ∈ rows, ∀ y ∈ rows,
    (∀ id ∈ request.dimensions, r.dimensionValue d engine id x = r.dimensionValue d engine id y) →
      ∀ id ∈ request.filters.map (·.1),
        r.dimensionValue d engine id x = r.dimensionValue d engine id y) ∧
  (request.dimensions = [] → rows ≠ [])

end Registry

namespace Router

variable {router : Router} {request : RouteRequest} {decision : RouteDecision}
  {rollup : RollupDefinition} {needs : RouteNeeds} {d : Sql.Dialect} {engine : Engine}
  {q direct served : Select} {metrics metrics' : List Sql.Expr}

/-- Row by row, a rollup answers as the groups of its dimensions do. -/
theorem Chosen.ungrouped_perm (h : router.Chosen request decision rollup needs)
    (hr : router.registry.WellFormed)
    (hc : RollupCatalog.Accepted router.registry router.rollups)
    (hu : rollup.Unambiguous router.registry (router.registry.neededColumns request))
    (hq : (RollupSource.ofRegistry router.registry d none).query rollup = .ok q)
    (hdirect : router.registry.Direct d rollup request direct metrics)
    (hserved : router.registry.Served request served metrics')
    (hagrees : ∀ engine s s', (∀ id ∈ request.metrics,
      router.registry.HoldsColumns rollup id engine s s') →
        metrics.map (·.eval engine s) = metrics'.map (·.eval engine s')) (source : List Row) :
    (served.ungrouped engine (q.table engine source)).Perm
      ((groupsBy (q.key engine) (direct.kept engine source)).map fun group =>
        direct.result engine (.ofGroup group)) := by
  have hresult (s : Scope) :
      served.result engine (q.rowOf (q.result engine s)).scope = direct.result engine s := by
    rw [hserved.result, hdirect.result, hagrees engine s _ fun id hid =>
      Registry.holdsColumns_rowOf hr hq hu hid (h.columnsOf_subset hid) s]
    refine congrArg (· ++ _) (List.map_congr_left fun id hid => ?_)
    exact RollupSource.rowOf_dimension hq hu (h.mem_dimensions (List.mem_append_left _ hid)) s
  have htable := RollupSource.filter_table_perm engine hq hu
    (hc.dimensions_ne_nil h.mem) source (p := Registry.admits engine request)
    fun x y hxy => Registry.admits_congr fun id hid =>
      hxy id (h.mem_dimensions (List.mem_append_right _ hid))
  rw [Select.ungrouped_eq hserved.limit, hserved.kept, hdirect.kept]
  refine (htable.map fun row => served.result engine row.scope).trans (List.Perm.of_eq ?_)
  rw [List.map_map]
  exact List.map_congr_left fun group _ => hresult (.ofGroup group)

/-- Without dimensions to spare, rows of a rollup are rows of the source with the
same values of what the request groups or filters by. -/
theorem Chosen.key_eq_iff (h : router.Chosen request decision rollup needs) (engine : Engine)
    (hexact : decision.needsReaggregation = false)
    (hq : (RollupSource.ofRegistry router.registry d none).query rollup = .ok q)
    (hdirect : router.registry.Direct d rollup request direct metrics) {x y : Row} :
    q.key engine x = q.key engine y ↔
      direct.key engine x = direct.key engine y ∧
        ∀ id ∈ request.filters.map (·.1),
          router.registry.dimensionValue d engine id x =
            router.registry.dimensionValue d engine id y := by
  rw [RollupSource.key_eq_iff hq, hdirect.key_eq_iff]
  have hmem (id : String) : id ∈ rollup.dimensions ↔
      id ∈ request.dimensions ∨ id ∈ request.filters.map (·.1) := by
    rw [← List.mem_append]
    exact ⟨h.mem_allDimensions hexact, h.mem_dimensions⟩
  simp only [hmem, or_imp, forall_and]

/-- **Serving a request row by row.** If a decision names a rollup whose rows need
not be grouped again, then the rows of that rollup that satisfy the filters are
the direct answer to the request just where the filters are settled by what the
request groups by. -/
theorem ungrouped_perm_grouped_iff (hr : router.registry.WellFormed)
    (hc : RollupCatalog.Accepted router.registry router.rollups)
    (hroute : router.route request = .ok decision) (huse : decision.useRollup = true)
    (hexact : decision.needsReaggregation = false) :
    ∃ rollup ∈ router.rollups, decision.rollup.map (·.rollupId) = some rollup.id ∧
      decision.table = rollup.targetTableName ∧
      (rollup.Unambiguous router.registry (router.registry.neededColumns request) → ∀ d q direct,
        (RollupSource.ofRegistry router.registry d none).query rollup = .ok q →
        router.registry.directQuery d rollup request = .ok direct →
        ∃ served, router.registry.servedQuery rollup request = .ok served ∧
          ∀ engine source,
            (served.ungrouped engine (q.table engine source)).Perm (direct.grouped engine source) ↔
              router.registry.FiltersSettled d engine request (direct.kept engine source)) := by
  obtain ⟨rollup, needs, h⟩ := chosen_of_route hc hroute huse
  refine ⟨rollup, h.mem, h.named, h.table_eq, fun hu d q direct hq hdirect => ?_⟩
  obtain ⟨metrics, hmetrics⟩ := Registry.direct_of_directQuery hdirect
  obtain ⟨served, metrics', hserved, hserves, hagrees⟩ :=
    Registry.exists_served hr (fun _ hid => h.isRoutable hid) hmetrics
  refine ⟨served, hserved, fun engine source => ?_⟩
  have hkey {x y : Row} := h.key_eq_iff engine hexact hq hmetrics (x := x) (y := y)
  rw [(h.ungrouped_perm hr hc hu hq hmetrics hserves hagrees source).congr_left,
    Select.grouped_eq hmetrics.limit,
    Select.groupsBy_perm_groups_iff fun x y hxy => (hkey.1 hxy).1, Registry.FiltersSettled,
    hmetrics.groupBy]
  refine and_congr_left fun _ => forall₂_congr fun x _ => forall₂_congr fun y _ => ?_
  rw [← hmetrics.key_eq_iff, hkey]
  exact imp_congr_right fun hxy => and_iff_right hxy

/-- One country is asked for, which settles the country of every group. -/
theorem ungrouped_perm_of_one_country :
    let router : Router :=
      { registry := .searches, rollups := [.daily ["clicks", "cost"]] }
    let request : RouteRequest :=
      { dimensions := ["date"], metrics := ["clicks", "cost_per_click"],
        filters := [("country", [.text "US"])] }
    let rows := [Registry.searchRow 1 "US" 3, Registry.searchRow 1 "US" 4,
      Registry.searchRow 2 "US" 5, Registry.searchRow 3 "DE" 6]
    ∃ decision q direct served,
      router.route request = .ok decision ∧ decision.useRollup = true ∧
      decision.needsReaggregation = false ∧
      (RollupSource.ofRegistry .searches .bigQuery none).query (.daily ["clicks", "cost"]) =
        .ok q ∧
      Registry.searches.directQuery .bigQuery (.daily ["clicks", "cost"]) request = .ok direct ∧
      Registry.searches.servedQuery (.daily ["clicks", "cost"]) request = .ok served ∧
      (served.ungrouped .exact (q.table .exact rows)).Perm (direct.grouped .exact rows) := by
  intro router request rows
  have hroute : router.route request =
      .ok ⟨some ⟨"daily", 150, false⟩, .exact "daily", .rollup, "raw.search_daily"⟩ := by
    decide +kernel
  obtain ⟨rollup, hmem, -, -, hserve⟩ := ungrouped_perm_grouped_iff Registry.wellFormed_searches
    ⟨by decide +kernel, by decide +kernel⟩ hroute rfl rfl
  obtain rfl := List.mem_singleton.1 hmem
  obtain ⟨q, hq⟩ := Except.exists_of_toBool (x := (RollupSource.ofRegistry .searches .bigQuery
    none).query (.daily ["clicks", "cost"])) (by decide +kernel)
  obtain ⟨direct, hdirect⟩ := Except.exists_of_toBool (x := Registry.searches.directQuery .bigQuery
    (.daily ["clicks", "cost"]) request) (by decide +kernel)
  obtain ⟨served, hserved, hiff⟩ :=
    hserve ⟨by decide +kernel, by decide +kernel⟩ .bigQuery q direct hq hdirect
  have hsettled : ∀ x ∈ rows, ∀ y ∈ rows,
      (∀ id ∈ request.dimensions, Registry.searches.dimensionValue .bigQuery .exact id x =
        Registry.searches.dimensionValue .bigQuery .exact id y) →
      ∀ id ∈ request.filters.map (·.1), Registry.searches.dimensionValue .bigQuery .exact id x =
        Registry.searches.dimensionValue .bigQuery .exact id y := by
    decide +kernel
  exact ⟨_, q, direct, served, hroute, rfl, rfl, hq, hdirect, hserved, (hiff .exact rows).2
    ⟨fun x hx y hy => hsettled x (List.mem_of_mem_filter hx) y (List.mem_of_mem_filter hy),
      by simp [request]⟩⟩

/-- With two countries asked for, each has a row of its own. -/
theorem not_ungrouped_perm_of_two_countries :
    let router : Router := { registry := .searches, rollups := [.daily ["clicks"]] }
    let request : RouteRequest :=
      { dimensions := ["date"], metrics := ["clicks"],
        filters := [("country", [.text "US", .text "DE"])] }
    let rows := [Registry.searchRow 1 "US" 3, Registry.searchRow 1 "DE" 4]
    ∃ decision q direct served,
      router.route request = .ok decision ∧ decision.useRollup = true ∧
      decision.needsReaggregation = false ∧
      (RollupSource.ofRegistry .searches .bigQuery none).query (.daily ["clicks"]) = .ok q ∧
      Registry.searches.directQuery .bigQuery (.daily ["clicks"]) request = .ok direct ∧
      Registry.searches.servedQuery (.daily ["clicks"]) request = .ok served ∧
      ¬ (served.ungrouped .exact (q.table .exact rows)).Perm (direct.grouped .exact rows) := by
  intro router request rows
  have hroute : router.route request =
      .ok ⟨some ⟨"daily", 150, false⟩, .exact "daily", .rollup, "raw.search_daily"⟩ := by
    decide +kernel
  have hrows : ((RollupSource.ofRegistry .searches .bigQuery none).query (.daily ["clicks"])).bind
      (fun q => (Registry.searches.directQuery .bigQuery (.daily ["clicks"]) request).bind
        fun direct => (Registry.searches.servedQuery (.daily ["clicks"]) request).bind
          fun served => .ok (decide ((served.ungrouped .exact (q.table .exact rows)).Perm
            (direct.grouped .exact rows)))) = .ok false := by
    decide +kernel
  simp only [Except.bind_eq_ok] at hrows
  obtain ⟨q, hq, direct, hdirect, served, hserved, hperm⟩ := hrows
  exact ⟨_, q, direct, served, hroute, rfl, rfl, hq, hdirect, hserved,
    of_decide_eq_false (Except.ok.inj hperm)⟩

end Router

end MetricLayer
