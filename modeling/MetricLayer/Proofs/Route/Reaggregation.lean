import MetricLayer.Proofs.Route.Answers

/-!
# Answers by grouping again

A rollup with dimensions to spare has several rows for one row of the answer. Sums,
counts, minima and maxima of a group are merged from those of its parts
(`Registry.eval_groupOf`), and distinct counts are never asked of such a rollup. So
its rows decide the answer but for the averages in it
(`Router.grouped_perm_iff_averagesAgree`), which those of the parts do not decide.
-/

namespace MetricLayer

open Sql (Engine Expr Row Scope Select Value)

namespace Registry

variable {r : Registry} {d : Sql.Dialect} {rollup : RollupDefinition} (engine : Engine)
  {id : String} {request : RouteRequest} {direct q : Select} {metrics : List Expr}
  {needed : List String}

theorem exists_of_mem_transitiveBases {root base : String}
    (h : base ∈ (DependencyGraph.ofRegistry r).transitiveBases root) :
    ∃ m, r.baseMetric? base = some m := by
  obtain ⟨x, -, hedge⟩ := DependencyGraph.mem_transitiveBases.1 h
  obtain ⟨m, -, -, -, hkind⟩ := mem_edges_ofRegistry.1 hedge
  rw [← Option.isSome_iff_exists]
  dsimp only at hkind
  rw [DependencyGraph.targetKind] at hkind
  split at hkind
  · cases hkind
  · split at hkind
    · assumption
    · cases hkind

theorem eval_flaggedAggregate (a : Aggregation) (input : Expr) (flag : String) :
    ∃ f : Row → Value, ∀ s, (RollupSource.flaggedAggregate a input flag).eval engine s =
      a.eval engine.approximate (s.group.map f) := by
  cases a <;> exact ⟨_, fun _ => rfl⟩

/-- A column of metrics aggregates source rows, by the aggregation of a base
metric. -/
theorem columnExpr_aggregates {column : String} (hcolumn : column ∈ r.columnsOf id) {e : Expr}
    (h : r.columnExpr rollup column = .ok e) :
    ∃ m ∈ r.basesOf id, ∃ f : Row → Value, ∀ s,
      e.eval engine s = m.aggregation.eval engine.approximate (s.group.map f) := by
  have hplain {m : BaseMetric} (hm : m ∈ r.basesOf id) (he : m.expr = e) :
      ∃ m ∈ r.basesOf id, ∃ f : Row → Value, ∀ s,
        e.eval engine s = m.aggregation.eval engine.approximate (s.group.map f) := by
    subst he
    exact ⟨m, hm, _, fun _ => rfl⟩
  rw [columnExpr] at h
  cases hid : r.requested id with
  | system | unknown => simp [columnsOf, hid] at hcolumn
  | calculated m =>
    have hcolumn : column ∈ (DependencyGraph.ofRegistry r).transitiveBases m.id := by
      simpa [columnsOf, hid] using hcolumn
    obtain ⟨b, hb⟩ := exists_of_mem_transitiveBases hcolumn
    rw [hb] at h
    refine hplain (m := b) ?_ (Except.ok.inj h)
    simpa [basesOf, hid] using ⟨column, hcolumn, hb⟩
  | base m =>
    obtain rfl : column = id := by simpa [columnsOf, hid] using hcolumn
    have hm : m ∈ r.basesOf column := by simp [basesOf, hid]
    rcases requested_base hid with hb | ⟨hnone, hflagged⟩
    · rw [hb] at h
      exact hplain hm (Except.ok.inj h)
    · simp only [baseMetric?_eq_none_of_metric? hnone, hflagged] at h
      split at h
      · cases h
      · obtain rfl := Except.ok.inj h
        obtain ⟨f, hf⟩ := eval_flaggedAggregate engine m.aggregation m.input _
        exact ⟨m, hm, f, hf⟩

/-- The source rows of one row of the answer. -/
def groupOf (r : Registry) (d : Sql.Dialect) (engine : Engine) (request : RouteRequest)
    (source : List Row) (key : List Value) : List Row :=
  source.filter fun row =>
    admits engine request (fun id => r.dimensionValue d engine id row) &&
      (request.dimensions.map fun id => r.dimensionValue d engine id row) = key

/-- The rows of a rollup for one row of the answer. -/
def partsOf (engine : Engine) (request : RouteRequest) (table : List Row) (key : List Value) :
    List Row :=
  table.filter fun row => admits engine request row && request.dimensions.map row = key

/-- The rows of a rollup for one row of the answer are those of the groups that its
source rows are split into. -/
theorem partsOf_table_perm (hq : (RollupSource.ofRegistry r d none).query rollup = .ok q)
    (hu : rollup.Unambiguous r needed) (hne : rollup.dimensions ≠ [])
    (hdimensions : request.allDimensions ⊆ rollup.dimensions) (source : List Row)
    (key : List Value) :
    (partsOf engine request (q.table engine source) key).Perm
      ((groupsBy (q.key engine) (r.groupOf d engine request source key)).map fun group =>
        q.rowOf (q.result engine (.ofGroup group))) := by
  refine RollupSource.filter_table_perm engine hq hu hne source fun x y hxy => ?_
  have hadmits : admits engine request x = admits engine request y :=
    admits_congr fun id hid => hxy id (hdimensions (List.mem_append_right _ hid))
  have hkey : request.dimensions.map x = request.dimensions.map y :=
    List.map_congr_left fun id hid => hxy id (hdimensions (List.mem_append_left _ hid))
  rw [hadmits, hkey]

/-- A column of metrics over source rows is merged from the rows of a rollup. -/
theorem eval_groupOf (hr : r.WellFormed)
    (hq : (RollupSource.ofRegistry r d none).query rollup = .ok q) (hu : rollup.Unambiguous r needed)
    (hne : rollup.dimensions ≠ []) (hdimensions : request.allDimensions ⊆ rollup.dimensions)
    (hmergeable : ∀ m ∈ r.basesOf id, m.aggregation.isMergeable = true)
    {column : String} (hcolumn : column ∈ r.columnsOf id) (hneeded : column ∈ needed)
    (havailable : column ∈ rollup.availableMetrics) {e : Expr}
    (he : r.columnExpr rollup column = .ok e) :
    ∃ a : Aggregation, ∀ source key,
      e.eval engine (.ofGroup (r.groupOf d engine request source key)) =
        a.merge ((partsOf engine request (q.table engine source) key).map (· column)) := by
  obtain ⟨m, hm, f, hf⟩ := columnExpr_aggregates engine hcolumn he
  obtain ⟨e', he', hrow⟩ := RollupSource.rowOf_column hr hq hu hneeded havailable
  obtain rfl : e' = e := Except.ok.inj (he'.symm.trans he)
  refine ⟨m.aggregation, fun source key => ?_⟩
  let groups := groupsBy (q.key engine) (r.groupOf d engine request source key)
  calc e'.eval engine (.ofGroup (r.groupOf d engine request source key))
      = m.aggregation.eval engine.approximate ((r.groupOf d engine request source key).map f) :=
        hf _
    _ = m.aggregation.eval engine.approximate (groups.flatten.map f) :=
        Aggregation.eval_perm (hmergeable m hm) (flatten_groupsBy_perm.symm.map f)
    _ = m.aggregation.merge (groups.map fun group =>
          m.aggregation.eval engine.approximate (group.map f)) := by
        rw [List.map_flatten, Aggregation.eval_flatten (hmergeable m hm), List.map_map]
        rfl
    _ = m.aggregation.merge (groups.map fun group =>
          q.rowOf (q.result engine (.ofGroup group)) column) := by
        refine congrArg _ (List.map_congr_left fun group _ => ?_)
        rw [hrow, hf]
        rfl
    _ = m.aggregation.merge
          ((partsOf engine request (q.table engine source) key).map (· column)) := by
        refine Aggregation.merge_perm ?_
        have hperm := (partsOf_table_perm engine hq hu hne hdimensions source key).map (· column)
        rw [List.map_map] at hperm
        exact hperm.symm

/-! ## The rows of the answer -/

theorem groupOf_eq_nil_iff (hq : (RollupSource.ofRegistry r d none).query rollup = .ok q)
    (hu : rollup.Unambiguous r needed) (hne : rollup.dimensions ≠ [])
    (hdimensions : request.allDimensions ⊆ rollup.dimensions) {source : List Row}
    {key : List Value} :
    r.groupOf d engine request source key = [] ↔
      partsOf engine request (q.table engine source) key = [] := by
  have hlength := (partsOf_table_perm engine hq hu hne hdimensions source key).length_eq
  rw [← List.length_eq_zero_iff (l := partsOf ..), hlength, List.length_eq_zero_iff,
    List.map_eq_nil_iff, groupsBy_eq_nil_iff]

/-- The values that the rows of the answer are grouped by, from the rows of a
rollup. -/
def answerKeys (engine : Engine) (request : RouteRequest) (table : List Row) : List (List Value) :=
  if request.dimensions.isEmpty then [[]]
  else ((table.filter fun row => admits engine request row).map fun row =>
    request.dimensions.map row).dedup

variable {engine} {table table' : List Row} {key : List Value}

theorem mem_answerKeys (hdimensions : request.dimensions ≠ []) :
    key ∈ answerKeys engine request table ↔ partsOf engine request table key ≠ [] := by
  rw [answerKeys, if_neg (by simpa using hdimensions), List.mem_dedup]
  simp [partsOf, List.filter_eq_nil_iff, and_assoc]

theorem partsOf_eq_nil (hkey : key ∉ answerKeys engine request table) :
    partsOf engine request table key = [] := by
  by_cases hnil : request.dimensions = []
  · have hne : [] ≠ key := by
      rintro rfl
      exact hkey (by simp [answerKeys, hnil])
    simp [partsOf, hnil, hne]
  · exact not_not.1 (mt (mem_answerKeys hnil).2 hkey)

theorem length_of_mem_answerKeys (hkey : key ∈ answerKeys engine request table) :
    key.length = request.dimensions.length := by
  rw [answerKeys] at hkey
  split at hkey
  · rename_i hnil
    rw [List.mem_singleton.1 hkey, List.isEmpty_iff.1 hnil]
    rfl
  · obtain ⟨row, -, rfl⟩ := List.mem_map.1 (List.mem_dedup.1 hkey)
    exact List.length_map _

theorem answerKeys_perm (engine : Engine) (request : RouteRequest) (h : table.Perm table') :
    (answerKeys engine request table).Perm (answerKeys engine request table') := by
  rw [answerKeys, answerKeys]
  split
  · exact .refl _
  · exact ((h.filter _).map _).dedup

/-- The direct answer has a row for each of the keys that a rollup has rows for. -/
theorem grouped_perm (h : r.Direct d rollup request direct metrics)
    (hq : (RollupSource.ofRegistry r d none).query rollup = .ok q) (hu : rollup.Unambiguous r needed)
    (hne : rollup.dimensions ≠ []) (hdimensions : request.allDimensions ⊆ rollup.dimensions)
    (source : List Row) :
    (direct.grouped engine source).Perm
      ((answerKeys engine request (q.table engine source)).map fun key =>
        key ++ metrics.map (·.eval engine (.ofGroup (r.groupOf d engine request source key)))) := by
  have hfilter (key : List Value) : (direct.kept engine source).filter
      (fun row => direct.key engine row = key) = r.groupOf d engine request source key := by
    rw [h.kept, List.filter_filter]
    refine List.filter_congr fun row _ => ?_
    rw [h.key, Bool.and_comm]
  rw [Select.grouped_eq h.limit]
  by_cases hnil : request.dimensions = []
  · have hkept : direct.kept engine source = r.groupOf d engine request source [] := by
      rw [← hfilter, List.filter_eq_self.2]
      simp [h.key, hnil]
    rw [Select.groups_of_nil (h.groupBy.2 hnil), answerKeys, if_pos (by simp [hnil]), hkept]
    simp [h.result, hnil]
  have hkeys : ((direct.kept engine source).map (direct.key engine)).dedup.Perm
      (answerKeys engine request (q.table engine source)) := by
    have hnodup : (answerKeys engine request (q.table engine source)).Nodup := by
      rw [answerKeys, if_neg (by simpa using hnil)]
      exact List.nodup_dedup _
    refine (List.perm_ext_iff_of_nodup (List.nodup_dedup _) hnodup).2 fun key => ?_
    rw [mem_answerKeys hnil, ne_eq, ← groupOf_eq_nil_iff engine hq hu hne hdimensions, ← hfilter,
      List.mem_dedup]
    simp [List.filter_eq_nil_iff]
  rw [Select.groups_eq (mt h.groupBy.1 hnil), groupsBy, List.map_map]
  refine (List.Perm.of_eq (List.map_congr_left fun key hkey => ?_)).trans (hkeys.map _)
  obtain ⟨x, hx, rfl⟩ := List.mem_map.1 (List.mem_dedup.1 hkey)
  have hgroup := List.mem_filter.1 (Scope.row_ofGroup_mem (List.ne_nil_of_mem
    (mem_group (direct.key engine) hx)))
  rw [Function.comp_apply, h.result, ← h.key, of_decide_eq_true hgroup.2, hfilter]

/-- The requested metrics that rest on an average are the same in both answers, row
by row. -/
def AveragesAgree (r : Registry) (d : Sql.Dialect) (rollup : RollupDefinition) (engine : Engine)
    (request : RouteRequest) (source source' : List Row) : Prop :=
  ∀ id ∈ request.metrics, (∃ m ∈ r.basesOf id, m.aggregation = .avg) →
    ∀ e, r.directExpr d rollup id = .ok e → ∀ key,
      e.eval engine (.ofGroup (r.groupOf d engine request source key)) =
        e.eval engine (.ofGroup (r.groupOf d engine request source' key))

end Registry

namespace Router

variable {router : Router} {request : RouteRequest} {decision : RouteDecision}
  {rollup : RollupDefinition} {needs : RouteNeeds} {d : Sql.Dialect} {engine : Engine}
  {q : Select} {id : String} {source source' : List Row}

/-- Distinct counts are not asked of a rollup with dimensions to spare. -/
theorem Chosen.isDistinct_eq_false (h : router.Chosen request decision rollup needs)
    (hc : RollupCatalog.Accepted router.registry router.rollups)
    (hfiner : decision.needsReaggregation = true) (hid : id ∈ request.metrics)
    {m : BaseMetric} (hm : m ∈ router.registry.basesOf id) :
    m.aggregation.isDistinct = false := by
  refine (h.covers hid).distinct ?_ m hm
  by_contra hdistinct
  have hlength := h.distinct (by simpa using hdistinct)
  rw [length_sortedSet_of_nodup (hc.nodup_dimensions h.mem)] at hlength
  have hlt := h.finer
  rw [hfiner] at hlt
  have := of_decide_eq_true hlt.symm
  omega

/-- A metric that rests on no average is decided by the rows of the rollup. -/
theorem Chosen.eval_groupOf_congr (h : router.Chosen request decision rollup needs)
    (hr : router.registry.WellFormed)
    (hc : RollupCatalog.Accepted router.registry router.rollups)
    (hfiner : decision.needsReaggregation = true)
    (hu : rollup.Unambiguous router.registry (router.registry.neededColumns request))
    (hq : (RollupSource.ofRegistry router.registry d none).query rollup = .ok q)
    (hid : id ∈ request.metrics)
    (haverage : ¬ ∃ m ∈ router.registry.basesOf id, m.aggregation = .avg) {e : Expr}
    (he : router.registry.directExpr d rollup id = .ok e)
    (htable : (q.table engine source).Perm (q.table engine source')) (key : List Value) :
    e.eval engine (.ofGroup (router.registry.groupOf d engine request source key)) =
      e.eval engine (.ofGroup (router.registry.groupOf d engine request source' key)) := by
  have hmergeable (m : BaseMetric) (hm : m ∈ router.registry.basesOf id) :
      m.aggregation.isMergeable = true := by
    have haggregation : m.aggregation ≠ .avg := fun h => haverage ⟨m, hm, h⟩
    simp [Aggregation.isMergeable, h.isDistinct_eq_false hc hfiner hid hm, haggregation]
  refine Registry.eval_directExpr_congr hr (h.isRoutable hid) he fun column hcolumn x hx => ?_
  obtain ⟨a, ha⟩ := Registry.eval_groupOf engine hr hq hu (hc.dimensions_ne_nil h.mem)
    (fun _ => h.mem_dimensions) hmergeable hcolumn (Registry.mem_neededColumns hid hcolumn)
    (h.columnsOf_subset hid hcolumn) hx
  rw [ha, ha]
  exact Aggregation.merge_perm ((htable.filter _).map _)

/-- **Serving a request by grouping again.** If a decision names a rollup whose
rows must be grouped again, then sources with the same rows of that rollup have
the same direct answer to the request just where they agree on the averages in it:
all else is decided by the rows of the rollup, and so is the whole answer where
there are no averages in it. -/
theorem grouped_perm_iff_averagesAgree (hr : router.registry.WellFormed)
    (hc : RollupCatalog.Accepted router.registry router.rollups)
    (hroute : router.route request = .ok decision) (huse : decision.useRollup = true)
    (hfiner : decision.needsReaggregation = true) :
    ∃ rollup ∈ router.rollups, decision.rollup.map (·.rollupId) = some rollup.id ∧
      decision.table = rollup.targetTableName ∧
      (rollup.Unambiguous router.registry (router.registry.neededColumns request) → ∀ d q direct,
        (RollupSource.ofRegistry router.registry d none).query rollup = .ok q →
        router.registry.directQuery d rollup request = .ok direct →
        ∀ engine source source',
          (q.grouped engine source).Perm (q.grouped engine source') →
          ((direct.grouped engine source).Perm (direct.grouped engine source') ↔
            router.registry.AveragesAgree d rollup engine request source source')) := by
  obtain ⟨rollup, needs, h⟩ := chosen_of_route hc hroute huse
  refine ⟨rollup, h.mem, h.named, h.table_eq, fun hu d q direct hq hdirect engine source source'
    hrows => ?_⟩
  obtain ⟨metrics, hmetrics⟩ := Registry.direct_of_directQuery hdirect
  have hne := hc.dimensions_ne_nil h.mem
  have hdimensions : request.allDimensions ⊆ rollup.dimensions := fun _ => h.mem_dimensions
  have htable : (q.table engine source).Perm (q.table engine source') := hrows.map _
  have hkeys := Registry.answerKeys_perm engine request htable
  rw [(Registry.grouped_perm hmetrics hq hu hne hdimensions source).congr_left,
    (Registry.grouped_perm hmetrics hq hu hne hdimensions source').congr_right,
    map_append_perm_iff hkeys fun _ => Registry.length_of_mem_answerKeys]
  simp only [List.map_inj_left]
  constructor
  · intro hvalues id hid _ e he key
    obtain ⟨e', he', hmem⟩ := exists_mem_zip_of_forall₂ hmetrics.exprs hid
    obtain rfl : e' = e := Except.ok.inj (he'.symm.trans he)
    by_cases hkey : key ∈ Registry.answerKeys engine request (q.table engine source)
    · exact hvalues key hkey e' (List.of_mem_zip hmem).1
    · have hkey' := mt hkeys.mem_iff.2 hkey
      rw [(Registry.groupOf_eq_nil_iff engine hq hu hne hdimensions).2
          (Registry.partsOf_eq_nil hkey),
        (Registry.groupOf_eq_nil_iff engine hq hu hne hdimensions).2
          (Registry.partsOf_eq_nil hkey')]
  · intro haverages key _ e he
    obtain ⟨id, hexpr, hmem⟩ := exists_mem_zip_of_forall₂ hmetrics.exprs.flip he
    have hid := (List.of_mem_zip hmem).1
    by_cases haverage : ∃ m ∈ router.registry.basesOf id, m.aggregation = .avg
    · exact haverages id hid haverage e hexpr key
    · exact h.eval_groupOf_congr hr hc hfiner hu hq hid haverage hexpr htable key

/-- Totals for a day are the same, whichever searches they come from. -/
theorem grouped_perm_of_same_totals :
    let router : Router :=
      { registry := .searches, rollups := [.daily ["clicks", "cost"]] }
    let request : RouteRequest :=
      { dimensions := ["date"], metrics := ["clicks", "cost_per_click"] }
    let rows := [Registry.searchRow 1 "US" 3, Registry.searchRow 1 "US" 4,
      Registry.searchRow 1 "DE" 5]
    let rows' := [Registry.searchRow 1 "DE" 5, Registry.searchRow 1 "US" 7]
    ∃ decision q direct,
      router.route request = .ok decision ∧ decision.useRollup = true ∧
      decision.needsReaggregation = true ∧
      (RollupSource.ofRegistry .searches .bigQuery none).query (.daily ["clicks", "cost"]) =
        .ok q ∧
      Registry.searches.directQuery .bigQuery (.daily ["clicks", "cost"]) request = .ok direct ∧
      (q.grouped .exact rows).Perm (q.grouped .exact rows') ∧
      (direct.grouped .exact rows).Perm (direct.grouped .exact rows') := by
  intro router request rows rows'
  have hroute : router.route request =
      .ok ⟨some ⟨"daily", 95, true⟩, .reaggregated "daily", .rollup, "raw.search_daily"⟩ := by
    decide +kernel
  obtain ⟨rollup, hmem, -, -, hserve⟩ := grouped_perm_iff_averagesAgree
    Registry.wellFormed_searches ⟨by decide +kernel, by decide +kernel⟩ hroute rfl rfl
  obtain rfl := List.mem_singleton.1 hmem
  have hrows : ((RollupSource.ofRegistry .searches .bigQuery none).query
      (.daily ["clicks", "cost"])).bind
        (fun q => .ok (decide ((q.grouped .exact rows).Perm (q.grouped .exact rows')))) =
          .ok true := by
    decide +kernel
  simp only [Except.bind_eq_ok] at hrows
  obtain ⟨q, hq, hrows⟩ := hrows
  have hrows := of_decide_eq_true (Except.ok.inj hrows)
  obtain ⟨direct, hdirect⟩ := Except.exists_of_toBool (x := Registry.searches.directQuery .bigQuery
    (.daily ["clicks", "cost"]) request) (by decide +kernel)
  have haverages : ∀ id ∈ request.metrics, ¬ ∃ m ∈ Registry.searches.basesOf id,
      m.aggregation = .avg := by
    decide +kernel
  exact ⟨_, q, direct, hroute, rfl, rfl, hq, hdirect, hrows,
    (hserve ⟨by decide +kernel, by decide +kernel⟩ .bigQuery q direct hq hdirect .exact rows rows'
      hrows).2 fun id hid haverage => absurd haverage (haverages id hid)⟩

/-- The average price for a day depends on how many searches each of the averages
is of. -/
theorem not_grouped_perm_of_average :
    let router : Router := { registry := .searches, rollups := [.daily ["avg_price"]] }
    let request : RouteRequest := { dimensions := ["date"], metrics := ["avg_price"] }
    let rows := [Registry.searchRow 1 "US" 0, Registry.searchRow 1 "DE" 2]
    let rows' := rows ++ [Registry.searchRow 1 "DE" 2]
    ∃ decision q direct,
      router.route request = .ok decision ∧ decision.useRollup = true ∧
      decision.needsReaggregation = true ∧
      (RollupSource.ofRegistry .searches .bigQuery none).query (.daily ["avg_price"]) = .ok q ∧
      Registry.searches.directQuery .bigQuery (.daily ["avg_price"]) request = .ok direct ∧
      (q.grouped .exact rows).Perm (q.grouped .exact rows') ∧
      ¬ (direct.grouped .exact rows).Perm (direct.grouped .exact rows') := by
  intro router request rows rows'
  have hroute : router.route request =
      .ok ⟨some ⟨"daily", 95, true⟩, .reaggregated "daily", .rollup, "raw.search_daily"⟩ := by
    decide +kernel
  have hrows : ((RollupSource.ofRegistry .searches .bigQuery none).query
      (.daily ["avg_price"])).bind (fun q =>
        (Registry.searches.directQuery .bigQuery (.daily ["avg_price"]) request).bind fun direct =>
          .ok (decide ((q.grouped .exact rows).Perm (q.grouped .exact rows')),
            decide ((direct.grouped .exact rows).Perm (direct.grouped .exact rows')))) =
              .ok (true, false) := by
    decide +kernel
  simp only [Except.bind_eq_ok] at hrows
  obtain ⟨q, hq, direct, hdirect, hperm⟩ := hrows
  obtain ⟨hsame, hdiffers⟩ := Prod.mk.inj (Except.ok.inj hperm)
  exact ⟨_, q, direct, hroute, rfl, rfl, hq, hdirect, of_decide_eq_true hsame,
    of_decide_eq_false hdiffers⟩

end Router

end MetricLayer
