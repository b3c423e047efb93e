import MetricLayer.Proofs.Ranking
import MetricLayer.Proofs.Route.Answers

/-!
# The rules of routing

A rollup can answer a request if it is ready, has every dimension and every column
that the request needs, and no dimension beyond them where distinct values are
counted (`Router.CanAnswer`). Those that can are ranked by their scores, and in the
order of the catalog where scores are equal (`Router.Ranks`). The first of them
answers the request; without one the optimized source or the raw table does, or the
request is refused (`Router.Decides`). `Router.follows_rules` says that this is all
that routing does.
-/

namespace MetricLayer

open Relation (ReflTransGen)

theorem unflagged?_eq_some_iff {id base : String} :
    unflagged? id = some base ↔ base ≠ "" ∧ id = flaggedColumn base := by
  constructor
  · intro h
    simp only [unflagged?] at h
    split at h <;> [skip; cases h]
    rename_i hended
    simp only [Bool.and_eq_true, List.isPrefixOf_iff_prefix, decide_eq_true_eq] at hended
    obtain ⟨⟨start, hstart⟩, hlonger⟩ := hended
    obtain rfl := Option.some.inj h
    rw [← hstart, List.drop_left]
    have hid : id.toList = start.reverse ++ flaggedSuffix.toList := by
      rw [← List.reverse_reverse id.toList, ← hstart, List.reverse_append, List.reverse_reverse]
    constructor
    · intro hempty
      have : start.reverse = [] := by simpa using congrArg String.toList hempty
      simp [hid, this] at hlonger
    · rw [← String.toList_inj, hid]
      simp [flaggedColumn]
  · rintro ⟨hne, rfl⟩
    exact unflagged?_flaggedColumn hne

/-! ## Needs -/

namespace Registry

/-- For a requested metric a column is needed, in which a base metric is aggregated. -/
inductive Needs (r : Registry) (id : String) : (column : String) → BaseMetric → Prop where
  | base {m : BaseMetric} (known : r.metric? id = some (.base m)) : r.Needs id id m
  | flagged {name : String} {m : BaseMetric} (unknown : r.metric? id = none) (nonempty : name ≠ "")
      (named : id = flaggedColumn name) (known : r.baseMetric? name = some m) : r.Needs id id m
  | calculated {c : CalculatedMetric} {below column : String} {m : BaseMetric}
      (known : r.metric? id = some (.calculated c))
      (chain : ReflTransGen (DependencyGraph.ofRegistry r).DependsOn c.id below)
      (referred : ⟨below, column, .base⟩ ∈ (DependencyGraph.ofRegistry r).edges)
      (aggregated : r.baseMetric? column = some m) : r.Needs id column m

/-- A requested metric is a system metric or leads to one. -/
inductive ReachesSystem (r : Registry) (id : String) : Prop where
  | system {s : SystemMetric} (known : r.metric? id = some (.system s))
  | calculated {c m : CalculatedMetric} {below : String}
      (known : r.metric? id = some (.calculated c))
      (chain : ReflTransGen (DependencyGraph.ofRegistry r).DependsOn c.id below)
      (defined : r.calculatedMetric? below = some m) (reads : m.readsSystemMetric = true)

/-- A request can name a metric, or a base metric over flagged rows. -/
def Knows (r : Registry) (id : String) : Prop :=
  (r.metric? id).isSome ∨ ∃ name, name ≠ "" ∧ id = flaggedColumn name ∧ (r.baseMetric? name).isSome

variable {r : Registry} {id column : String} {m : BaseMetric}

theorem requested_of_none (h : r.metric? id = none) :
    r.requested id =
      match (unflagged? id).bind r.baseMetric? with
      | some m => .base m
      | none => .unknown := by
  cases hflag : (unflagged? id).bind r.baseMetric? <;> simp only [requested, h, hflag]

/-- What is needed for a requested metric depends on what it is. -/
theorem needs_iff_of_requested : r.Needs id column m ↔
    match r.requested id with
    | .base b => column = id ∧ m = b
    | .calculated c => column ∈ (DependencyGraph.ofRegistry r).transitiveBases c.id ∧
        r.baseMetric? column = some m
    | .system | .unknown => False := by
  constructor
  · intro h
    cases h with
    | base known => simp [requested, known]
    | flagged unknown nonempty named known =>
      simp [requested_of_none unknown, unflagged?_eq_some_iff.2 ⟨nonempty, named⟩, known]
    | calculated known chain referred aggregated =>
      simp only [requested, known]
      exact ⟨DependencyGraph.mem_transitiveBases.2 ⟨_, chain, referred⟩, aggregated⟩
  · intro h
    cases hmetric : r.metric? id with
    | some kind =>
      cases kind with
      | base b =>
        simp only [requested, hmetric] at h
        obtain ⟨rfl, rfl⟩ := h
        exact .base hmetric
      | calculated c =>
        simp only [requested, hmetric, DependencyGraph.mem_transitiveBases] at h
        obtain ⟨⟨below, chain, referred⟩, aggregated⟩ := h
        exact .calculated hmetric chain referred aggregated
      | system s => simp [requested, hmetric] at h
    | none =>
      rw [requested_of_none hmetric] at h
      cases hname : (unflagged? id).bind r.baseMetric? with
      | none => simp [hname] at h
      | some b =>
        simp only [hname] at h
        obtain ⟨rfl, rfl⟩ := h
        obtain ⟨name, hunflagged, hb⟩ := Option.bind_eq_some_iff.1 hname
        obtain ⟨hne, hid⟩ := unflagged?_eq_some_iff.1 hunflagged
        exact .flagged hmetric hne hid hb

theorem mem_columnsOf : column ∈ r.columnsOf id ↔ ∃ m, r.Needs id column m := by
  simp only [needs_iff_of_requested, columnsOf]
  cases r.requested id with
  | base b => simp
  | calculated c =>
    simp only [exists_and_left, iff_self_and, DependencyGraph.mem_transitiveBases]
    rintro ⟨below, -, hedge⟩
    exact Option.isSome_iff_exists.1 (isSome_baseMetric?_of_edge hedge)
  | system | unknown => simp

theorem mem_basesOf : m ∈ r.basesOf id ↔ ∃ column, r.Needs id column m := by
  simp only [needs_iff_of_requested, basesOf]
  cases r.requested id with
  | base b => simp
  | calculated c => simp [List.mem_filterMap]
  | system | unknown => simp

/-- Whether a system metric is reached depends on what is requested. -/
theorem reachesSystem_iff_of_requested : r.ReachesSystem id ↔
    match r.requested id with
    | .calculated c => r.usesSystemMetric c.id = true
    | .system => True
    | .base _ | .unknown => False := by
  constructor
  · rintro (known | ⟨known, chain, defined, reads⟩)
    · simp [requested, known]
    · simp only [requested, known, usesSystemMetric, List.any_eq_true]
      exact ⟨_, DependencyGraph.mem_reachable.2 chain, by simp [defined, reads]⟩
  · intro h
    cases hmetric : r.metric? id with
    | some kind =>
      cases kind with
      | base b => simp [requested, hmetric] at h
      | calculated c =>
        simp only [requested, hmetric, usesSystemMetric, List.any_eq_true, Option.any_eq_true,
          DependencyGraph.mem_reachable] at h
        obtain ⟨_, chain, _, defined, reads⟩ := h
        exact .calculated hmetric chain defined reads
      | system s => exact .system hmetric
    | none =>
      rw [requested_of_none hmetric] at h
      cases hname : (unflagged? id).bind r.baseMetric? <;> simp [hname] at h

theorem isRoutable_iff : r.isRoutable id = true ↔ ¬ r.ReachesSystem id := by
  rw [reachesSystem_iff_of_requested, isRoutable]
  cases r.requested id <;> simp

theorem knows_iff : r.Knows id ↔ ¬ r.requested id matches .unknown := by
  cases hmetric : r.metric? id with
  | some kind => cases kind <;> simp [Knows, requested, hmetric]
  | none =>
    rw [requested_of_none hmetric, Knows]
    cases hname : (unflagged? id).bind r.baseMetric? with
    | none =>
      simp only [hmetric, Option.isSome_none, Bool.false_eq_true, false_or, not_true_eq_false,
        iff_false, not_exists, not_and]
      rintro name hne hid
      rw [unflagged?_eq_some_iff.2 ⟨hne, hid⟩] at hname
      simpa using hname
    | some b =>
      obtain ⟨name, hunflagged, hb⟩ := Option.bind_eq_some_iff.1 hname
      obtain ⟨hne, hid⟩ := unflagged?_eq_some_iff.1 hunflagged
      simpa [hmetric] using ⟨name, hne, hid, by simp [hb]⟩

end Registry

namespace RouteNeeds

variable {r : Registry} {request : RouteRequest} {needs : RouteNeeds} {id column : String}

theorem mem_columns_addMetric : column ∈ (addMetric r needs id).columns ↔
    column ∈ r.columnsOf id ∨ column ∈ needs.columns := by
  rw [addMetric, Registry.columnsOf]
  cases r.requested id with
  | base m => simp
  | calculated m => exact mem_foldl_insertSorted
  | system | unknown => simp

theorem hasDistinct_addMetric : (addMetric r needs id).hasDistinct =
    (needs.hasDistinct || (r.basesOf id).any (·.aggregation.isDistinct)) := by
  rw [addMetric, Registry.basesOf]
  cases r.requested id with
  | base m => simp
  | calculated m =>
    simp only [List.any_filterMap]
    rfl
  | system | unknown => simp

theorem unroutable_addMetric : (addMetric r needs id).unroutable = none ↔
    needs.unroutable = none ∧ r.isRoutable id = true := by
  rw [addMetric, Registry.isRoutable]
  cases r.requested id with
  | base m | unknown => simp
  | calculated m =>
    dsimp only
    cases r.usesSystemMetric m.id <;> simp
  | system => simp

/-- What a request needs, metric by metric. -/
structure Are (r : Registry) (request : RouteRequest) (needs : RouteNeeds) : Prop where
  dimensions : needs.dimensions = sortedSet request.allDimensions
  mem_columns : ∀ {column}, column ∈ needs.columns ↔
    ∃ id ∈ request.metrics, column ∈ r.columnsOf id
  hasDistinct : needs.hasDistinct = true ↔
    ∃ id ∈ request.metrics, ∃ m ∈ r.basesOf id, m.aggregation.isDistinct = true
  unroutable : needs.unroutable = none ↔ ∀ id ∈ request.metrics, r.isRoutable id = true

theorem needs_foldl (ids : List String) (needs : RouteNeeds) :
    (∀ column, column ∈ (ids.foldl (addMetric r) needs).columns ↔
      (∃ id ∈ ids, column ∈ r.columnsOf id) ∨ column ∈ needs.columns) ∧
    ((ids.foldl (addMetric r) needs).hasDistinct = true ↔ needs.hasDistinct = true ∨
      ∃ id ∈ ids, ∃ m ∈ r.basesOf id, m.aggregation.isDistinct = true) ∧
    ((ids.foldl (addMetric r) needs).unroutable = none ↔ needs.unroutable = none ∧
      ∀ id ∈ ids, r.isRoutable id = true) := by
  induction ids generalizing needs with
  | nil => simp
  | cons id ids ih =>
    obtain ⟨hcolumns, hdistinct, hroutable⟩ := ih (addMetric r needs id)
    simp only [List.foldl_cons, List.exists_mem_cons_iff, List.forall_mem_cons]
    refine ⟨fun column => ?_, ?_, ?_⟩
    · rw [hcolumns, mem_columns_addMetric, or_left_comm, or_assoc]
    · rw [hdistinct, hasDistinct_addMetric, Bool.or_eq_true, List.any_eq_true, or_assoc]
    · rw [hroutable, unroutable_addMetric, and_assoc]

theorem unknownIds_eq_nil (hdimensions : ∀ id ∈ request.allDimensions, (r.dimension? id).isSome)
    (hmetrics : ∀ id ∈ request.metrics, r.Knows id) : unknownIds r request = [] := by
  rw [unknownIds, List.append_eq_nil_iff]
  constructor
  · have hnone : (request.allDimensions.filter fun id => (r.dimension? id).isNone) = [] := by
      rw [List.filter_eq_nil_iff]
      intro id hid
      simp [Option.isSome_iff_ne_none.1 (hdimensions id hid)]
    rw [hnone, List.eraseDups_nil]
  · rw [List.filter_eq_nil_iff]
    intro id hid
    have hknown := Registry.knows_iff.1 (hmetrics id hid)
    split
    · simp_all
    · simp

/-- What is found out of a request is what it needs, and it names nothing unknown. -/
theorem are_of_ofRequest (h : ofRequest r request = .ok needs) :
    unknownIds r request = [] ∧ needs.Are r request := by
  simp only [ofRequest] at h
  split at h
  · cases h
  rename_i hknown
  obtain rfl := Except.ok.inj h
  obtain ⟨hcolumns, hdistinct, hroutable⟩ := needs_foldl (r := r) request.metrics
    { dimensions := sortedSet request.allDimensions }
  refine ⟨by simpa using hknown, ?_, ?_, ?_, ?_⟩
  · exact (foldl_addMetric request.metrics _).1.dimensions
  · simp [hcolumns]
  · simp [hdistinct]
  · simp [hroutable]

/-- Of a request that names nothing unknown it is known what it needs. -/
theorem exists_are (hdimensions : ∀ id ∈ request.allDimensions, (r.dimension? id).isSome)
    (hmetrics : ∀ id ∈ request.metrics, r.Knows id) :
    ∃ needs, ofRequest r request = .ok needs ∧ needs.Are r request := by
  obtain ⟨needs, hneeds⟩ : ∃ needs, ofRequest r request = .ok needs :=
    ⟨_, by rw [ofRequest, unknownIds_eq_nil hdimensions hmetrics]; rfl⟩
  exact ⟨needs, hneeds, (are_of_ofRequest hneeds).2⟩

theorem isSome_dimension?_of_unknownIds (h : unknownIds r request = []) {id : String}
    (hid : id ∈ request.allDimensions) : (r.dimension? id).isSome := by
  by_contra hnone
  have hmem : id ∈ unknownIds r request := by
    rw [unknownIds, List.mem_append, List.mem_eraseDups, List.mem_filter]
    exact .inl ⟨hid, by simpa using hnone⟩
  rw [h] at hmem
  cases hmem

end RouteNeeds

/-! ## Scores -/

/-- How many of the dimensions of a rollup a request does not name. -/
def RouteRequest.spare (request : RouteRequest) (rollup : RollupDefinition) : Nat :=
  rollup.dimensions.countP (· ∉ request.allDimensions)

/-- The score of a rollup with some dimensions to spare, whatever its size. -/
def RouterConfig.exactScore (config : RouterConfig) (spare : Nat) : Int :=
  config.baseScore.toInt - spare * config.extraDimensionPenalty.toInt +
    if spare = 0 then config.exactMatchBonus.toInt else 0

/-- A dimension more costs its penalty, and the first one the bonus. -/
theorem RouterConfig.exactScore_lt {config : RouterConfig} (hbonus : 0 ≤ config.exactMatchBonus.toInt)
    (hpenalty : 0 < config.extraDimensionPenalty.toInt) {m n : Nat} (h : m < n) :
    config.exactScore n < config.exactScore m := by
  have hmul : (m : Int) * config.extraDimensionPenalty.toInt <
      n * config.extraDimensionPenalty.toInt :=
    Int.mul_lt_mul_of_pos_right (by exact_mod_cast h) hpenalty
  rw [exactScore, exactScore, if_neg (Nat.ne_zero_of_lt h)]
  split <;> omega

namespace Router

/-- Distinct values are counted somewhere in what a request needs. -/
def NeedsDistinct (router : Router) (request : RouteRequest) : Prop :=
  ∃ id ∈ request.metrics, ∃ column m, router.registry.Needs id column m ∧
    m.aggregation.isDistinct = true

/-- A rollup has all that a request needs. -/
structure CanAnswer (router : Router) (request : RouteRequest) (rollup : RollupDefinition) :
    Prop where
  ready : rollup.build.status = .ready
  dimensions : request.allDimensions ⊆ rollup.dimensions
  columns : ∀ id ∈ request.metrics, ∀ column m, router.registry.Needs id column m →
    column ∈ rollup.availableMetrics
  distinct : router.NeedsDistinct request → rollup.dimensions ⊆ request.allDimensions
  routable : ∀ id ∈ request.metrics, ¬ router.registry.ReachesSystem id

variable {router : Router} {request : RouteRequest} {needs : RouteNeeds}
  {rollup : RollupDefinition}

theorem needsDistinct_iff (hneeds : needs.Are router.registry request) :
    router.NeedsDistinct request ↔ needs.hasDistinct = true := by
  rw [hneeds.hasDistinct, NeedsDistinct]
  simp only [Registry.mem_basesOf]
  constructor
  · rintro ⟨id, hid, column, m, hcolumn, hm⟩
    exact ⟨id, hid, m, ⟨column, hcolumn⟩, hm⟩
  · rintro ⟨id, hid, m, ⟨column, hcolumn⟩, hm⟩
    exact ⟨id, hid, column, m, hcolumn, hm⟩

/-- Dimensions that are not to spare are those of the request. -/
theorem length_eq_add_spare (hneeds : needs.Are router.registry request)
    (hnodup : rollup.dimensions.Nodup) (hsub : request.allDimensions ⊆ rollup.dimensions) :
    rollup.dimensions.length = needs.dimensions.length + request.spare rollup := by
  have hperm : (rollup.dimensions.filter (· ∈ request.allDimensions)).Perm needs.dimensions := by
    rw [hneeds.dimensions]
    refine (List.perm_ext_iff_of_nodup (hnodup.filter _) (nodup_sortedSet _)).2 fun id => ?_
    rw [List.mem_filter, mem_sortedSet, decide_eq_true_eq]
    exact ⟨And.right, fun h => ⟨hsub h, h⟩⟩
  rw [← hperm.length_eq, ← List.countP_eq_length_filter, RouteRequest.spare]
  simpa using List.length_eq_countP_add_countP (· ∈ request.allDimensions)

theorem spare_eq_zero_iff :
    request.spare rollup = 0 ↔ rollup.dimensions ⊆ request.allDimensions := by
  simp [RouteRequest.spare, List.countP_eq_zero, List.subset_def]

theorem isSome_score? : (router.score? needs rollup).isSome ↔ needs.unroutable = none ∧
    rollup.build.isReady = true ∧ needs.dimensions ⊆ rollup.dimensions ∧
    needs.columns ⊆ rollup.availableMetrics ∧
    (needs.hasDistinct = true →
      (sortedSet rollup.dimensions).length = needs.dimensions.length) := by
  have hguard : ∀ {b : Bool} {score : Int64},
      (if b then none else some score).isSome ↔ b = false := by
    intro b score
    cases b <;> simp
  rw [score?]
  dsimp only
  rw [hguard]
  simp only [Bool.or_eq_false_iff, Option.isSome_eq_false_iff, Option.isNone_iff_eq_none,
    Bool.not_eq_false', List.all_eq_true, List.contains_iff_mem, mem_sortedSet,
    Bool.and_eq_false_imp, beq_iff_eq, List.subset_def, and_assoc]

theorem isSome_score?_iff (hneeds : needs.Are router.registry request)
    (hnodup : rollup.dimensions.Nodup) :
    (router.score? needs rollup).isSome ↔ router.CanAnswer request rollup := by
  have hready : rollup.build.isReady = true ↔ rollup.build.status = .ready := beq_iff_eq
  have hroutable : needs.unroutable = none ↔
      ∀ id ∈ request.metrics, ¬ router.registry.ReachesSystem id := by
    simp only [hneeds.unroutable, Registry.isRoutable_iff]
  have hdimensions : needs.dimensions ⊆ rollup.dimensions ↔
      request.allDimensions ⊆ rollup.dimensions := by
    simp [hneeds.dimensions, List.subset_def]
  have hcolumns : needs.columns ⊆ rollup.availableMetrics ↔
      ∀ id ∈ request.metrics, ∀ column m, router.registry.Needs id column m →
        column ∈ rollup.availableMetrics := by
    simp only [List.subset_def, hneeds.mem_columns, Registry.mem_columnsOf]
    exact ⟨fun h id hid column m hcolumn => h ⟨id, hid, m, hcolumn⟩,
      fun h column ⟨id, hid, m, hcolumn⟩ => h id hid column m hcolumn⟩
  have hexact (hsub : request.allDimensions ⊆ rollup.dimensions) :
      (sortedSet rollup.dimensions).length = needs.dimensions.length ↔
        rollup.dimensions ⊆ request.allDimensions := by
    rw [length_sortedSet_of_nodup hnodup, length_eq_add_spare hneeds hnodup hsub,
      ← spare_eq_zero_iff]
    omega
  rw [isSome_score?, hready, hroutable, hdimensions, hcolumns, ← needsDistinct_iff hneeds]
  constructor
  · rintro ⟨hroutable, hready, hdimensions, hcolumns, hdistinct⟩
    exact ⟨hready, hdimensions, hcolumns, fun h => (hexact hdimensions).1 (hdistinct h), hroutable⟩
  · rintro ⟨hready, hdimensions, hcolumns, hdistinct, hroutable⟩
    exact ⟨hroutable, hready, hdimensions, hcolumns, fun h => (hexact hdimensions).2 (hdistinct h)⟩

/-- Scores are computed in words of 64 bits, where they are the exact ones as long
as these fit. -/
theorem score?_eq (hneeds : needs.Are router.registry request)
    (hnodup : rollup.dimensions.Nodup) (h : router.CanAnswer request rollup) :
    router.score? needs rollup =
      some (.ofInt (router.config.exactScore (request.spare rollup))) := by
  obtain ⟨score, hscore⟩ := Option.isSome_iff_exists.1 ((isSome_score?_iff hneeds hnodup).2 h)
  have hlength := length_eq_add_spare hneeds hnodup h.dimensions
  rw [hscore]
  rw [score?] at hscore
  dsimp only at hscore
  split at hscore <;> [cases hscore; skip]
  rw [length_sortedSet_of_nodup hnodup, hlength, Nat.add_sub_cancel_left] at hscore
  rw [← hscore, RouterConfig.exactScore]
  by_cases hspare : request.spare rollup = 0
  · simp [hspare, Int64.ofInt_add, Int64.ofInt_toInt]
  · simp [hspare, Int64.ofInt_sub, Int64.ofInt_mul, Int64.ofInt_toInt, Int64.ofInt_eq_ofNat]

/-! ## Rankings and decisions -/

/-- The exact score of a rollup for a request. -/
def exactScore (router : Router) (request : RouteRequest) (rollup : RollupDefinition) : Int :=
  router.config.exactScore (request.spare rollup)

/-- A candidate tells of its rollup how it scores, and whether it has dimensions to
spare. -/
structure CandidateOf (router : Router) (request : RouteRequest) (rollup : RollupDefinition)
    (candidate : RollupCandidate) : Prop where
  id : candidate.rollupId = rollup.id
  score : candidate.score.toInt = router.exactScore request rollup
  finer : candidate.needsReaggregation = decide (0 < request.spare rollup)

/-- The rollups that can answer, the best first. -/
structure Ranks (router : Router) (request : RouteRequest) (ranking : List RollupDefinition) :
    Prop where
  mem_iff : ∀ rollup, rollup ∈ ranking ↔ rollup ∈ router.rollups ∧ router.CanAnswer request rollup
  ordered : ranking.Pairwise (Outranks (router.exactScore request) router.rollups)

/-- What is decided when these are the rollups that can answer. -/
inductive Decides (router : Router) (request : RouteRequest) :
    List RollupDefinition → Except Error RouteDecision → Prop where
  | rollup {best : RollupDefinition} {rest : List RollupDefinition} {decision : RouteDecision}
      {candidate : RollupCandidate} (chosen : decision.rollup = some candidate)
      (best_is : router.CandidateOf request best candidate) (target : decision.target = .rollup)
      (table : decision.table = best.targetTableName) :
      router.Decides request (best :: rest) (.ok decision)
  | refused (required : request.requireRollup = true) (distinct : router.NeedsDistinct request) :
      router.Decides request [] (.error (.routingInfeasible (sortedSet request.allDimensions)))
  | optimized {decision : RouteDecision} {o : OptimizedSource}
      (allowed : request.requireRollup = true → ¬ router.NeedsDistinct request)
      (built : router.optimized = some o) (ready : o.build.status = .ready)
      (chosen : decision.rollup = none) (target : decision.target = .optimized)
      (table : decision.table = o.optimizedTable) : router.Decides request [] (.ok decision)
  | raw {decision : RouteDecision}
      (allowed : request.requireRollup = true → ¬ router.NeedsDistinct request)
      (unready : ∀ o, router.optimized = some o → o.build.status ≠ .ready)
      (chosen : decision.rollup = none) (target : decision.target = .raw)
      (table : decision.table = router.registry.sourceTable) :
      router.Decides request [] (.ok decision)

/-- What candidates say of a rollup that can answer. -/
def candidateOf (router : Router) (request : RouteRequest) (rollup : RollupDefinition) :
    RollupCandidate where
  rollupId := rollup.id
  score := .ofInt (router.exactScore request rollup)
  needsReaggregation := decide (0 < request.spare rollup)

/-- The exact scores of the rollups that can answer fit into 64 bits. -/
def ScoresFit (router : Router) (request : RouteRequest) : Prop :=
  ∀ rollup ∈ router.rollups, router.CanAnswer request rollup →
    -2 ^ 63 ≤ router.exactScore request rollup ∧ router.exactScore request rollup < 2 ^ 63

theorem candidate?_eq (hneeds : needs.Are router.registry request)
    (hnodup : rollup.dimensions.Nodup) [Decidable (router.CanAnswer request rollup)] :
    router.candidate? needs rollup =
      if router.CanAnswer request rollup then some (router.candidateOf request rollup) else none := by
  rw [candidate?]
  split
  · rename_i h
    rw [score?_eq hneeds hnodup h, length_eq_add_spare hneeds hnodup h.dimensions]
    simp [candidateOf, exactScore]
  · rename_i h
    rw [← isSome_score?_iff hneeds hnodup, Option.not_isSome_iff_eq_none] at h
    rw [h, Option.map_none]

open Classical in
/-- Candidates are made of the rollups that can answer, ranked by their exact scores. -/
theorem candidates_eq (hneeds : needs.Are router.registry request)
    (hnodup : ∀ rollup ∈ router.rollups, rollup.dimensions.Nodup)
    (hfit : router.ScoresFit request) :
    router.candidates needs = (ranked (router.exactScore request)
      (router.rollups.filter (router.CanAnswer request ·))).map (router.candidateOf request) := by
  have hcandidates : router.rollups.filterMap (router.candidate? needs) =
      (router.rollups.filter (router.CanAnswer request ·)).map (router.candidateOf request) := by
    rw [← List.filterMap_eq_map, List.filterMap_filter]
    refine List.filterMap_congr fun rollup hrollup => ?_
    simp [candidate?_eq hneeds (hnodup rollup hrollup)]
  rw [candidates, hcandidates, ranked_map]
  congr 1
  refine ranked_congr fun x hx y hy => ?_
  have htoInt {rollup : RollupDefinition}
      (h : rollup ∈ router.rollups.filter (router.CanAnswer request ·)) :
      (router.candidateOf request rollup).score.toInt = router.exactScore request rollup := by
    obtain ⟨hmem, hcan⟩ := List.mem_filter.1 h
    obtain ⟨hlow, hhigh⟩ := hfit rollup hmem (of_decide_eq_true hcan)
    exact Int64.toInt_ofInt_of_le hlow hhigh
  rw [Function.comp_apply, Function.comp_apply, Int64.lt_iff_toInt_lt, htoInt hx, htoInt hy]

/-- The first of a ranking has the fewest dimensions to spare. -/
theorem Ranks.spare_le {ranking : List RollupDefinition} (h : router.Ranks request ranking)
    (hbonus : 0 ≤ router.config.exactMatchBonus.toInt)
    (hpenalty : 0 < router.config.extraDimensionPenalty.toInt) {best : RollupDefinition}
    (hbest : best ∈ ranking.head?) (hrollup : rollup ∈ ranking) :
    request.spare best ≤ request.spare rollup := by
  obtain ⟨rest, rfl⟩ : ∃ rest, ranking = best :: rest := List.head?_eq_some_iff.1 hbest
  rcases List.mem_cons.1 hrollup with rfl | hrollup
  · exact le_rfl
  · have hscore := ((List.pairwise_cons.1 h.ordered).1 rollup hrollup).le
    by_contra hmore
    have := RouterConfig.exactScore_lt hbonus hpenalty (not_le.1 hmore)
    rw [exactScore, exactScore] at hscore
    omega

theorem toRollup_decides (hids : (router.rollups.map (·.id)).Nodup) {best : RollupDefinition}
    (hbest : best ∈ router.rollups) (his : router.CandidateOf request best
      (router.candidateOf request best)) (rest : List RollupDefinition) :
    router.Decides request (best :: rest)
      (.ok (router.toRollup (router.candidateOf request best))) := by
  refine .rollup rfl his rfl ?_
  have hfind : router.rollups.find? (·.id == best.id) = some best :=
    (find?_eq_some_iff_of_nodup hids).2 ⟨hbest, rfl⟩
  simp only [toRollup, tableOf, candidateOf, hfind, Option.map_some, Option.getD_some]

theorem withoutRollup_decides
    (hallowed : request.requireRollup = true → ¬ router.NeedsDistinct request)
    (reason : RouteReason) : router.Decides request [] (.ok (router.withoutRollup reason)) := by
  rw [withoutRollup]
  split
  · rename_i o ho
    obtain ⟨hbuilt, hready⟩ := Option.filter_eq_some_iff.1 ho
    exact .optimized hallowed hbuilt (beq_iff_eq.1 hready) rfl rfl rfl
  · rename_i hnone
    refine .raw hallowed (fun o ho hready => ?_) rfl rfl rfl
    simp [ho, BuildState.isReady, hready] at hnone

theorem route_eq {router : Router} {request : RouteRequest} {needs : RouteNeeds}
    (h : RouteNeeds.ofRequest router.registry request = .ok needs) :
    router.route request = match router.candidates needs with
      | best :: _ => .ok (router.toRollup best)
      | [] => if request.requireRollup && needs.hasDistinct then
            .error (.routingInfeasible needs.dimensions)
          else .ok (router.withoutRollup (reasonAgainst needs)) := by
  rw [route, h]
  rfl

/-- **Routing follows its rules**: the candidates are the rollups that can answer, in
the order of their scores and then of the catalog; the first of them answers, with the
fewest dimensions to spare if each costs something; without any the request is
refused exactly if it insists on a rollup and counts distinct values. -/
theorem follows_rules (router : Router) (request : RouteRequest)
    (hids : (router.rollups.map (·.id)).Nodup)
    (hnodup : ∀ rollup ∈ router.rollups, rollup.dimensions.Nodup)
    (hdimensions : ∀ id ∈ request.allDimensions, (router.registry.dimension? id).isSome)
    (hmetrics : ∀ id ∈ request.metrics, router.registry.Knows id)
    (hfit : router.ScoresFit request) :
    ∃ ranking, router.Ranks request ranking ∧
      (∃ candidates, router.findSuitableRollups request = .ok candidates ∧
        List.Forall₂ (router.CandidateOf request) ranking candidates) ∧
      router.Decides request ranking (router.route request) ∧
      (0 ≤ router.config.exactMatchBonus.toInt → 0 < router.config.extraDimensionPenalty.toInt →
        ∀ best ∈ ranking.head?, ∀ rollup ∈ router.rollups, router.CanAnswer request rollup →
          request.spare best ≤ request.spare rollup) := by
  classical
  obtain ⟨needs, hof, hneeds⟩ := RouteNeeds.exists_are hdimensions hmetrics
  have hcandidates := candidates_eq hneeds hnodup hfit
  set ranking := ranked (router.exactScore request)
    (router.rollups.filter (router.CanAnswer request ·)) with hranking
  have hranks : router.Ranks request ranking := by
    refine ⟨fun rollup => by simp [hranking, mem_ranked], ?_⟩
    exact (pairwise_ranked (router.exactScore request) _).imp fun h => h.mono List.filter_sublist
  have his : ∀ rollup ∈ ranking,
      router.CandidateOf request rollup (router.candidateOf request rollup) := by
    intro rollup hrollup
    obtain ⟨hmem, hcan⟩ := (hranks.mem_iff rollup).1 hrollup
    obtain ⟨hlow, hhigh⟩ := hfit rollup hmem hcan
    exact ⟨rfl, Int64.toInt_ofInt_of_le hlow hhigh, rfl⟩
  refine ⟨ranking, hranks, ⟨ranking.map (router.candidateOf request), ?_, ?_⟩, ?_, ?_⟩
  · rw [findSuitableRollups, hof, ← hcandidates]
    rfl
  · rw [List.forall₂_map_right_iff, List.forall₂_same]
    exact his
  · rw [route_eq hof, hcandidates, hneeds.dimensions]
    clear_value ranking
    cases ranking with
    | cons best rest =>
      have hbest : best ∈ best :: rest := List.mem_cons_self
      exact toRollup_decides hids ((hranks.mem_iff best).1 hbest).1 (his best hbest) rest
    | nil =>
      simp only [List.map_nil]
      split
      · rename_i hrefused
        rw [Bool.and_eq_true, ← needsDistinct_iff hneeds] at hrefused
        exact .refused hrefused.1 hrefused.2
      · rename_i hallowed
        rw [Bool.and_eq_true, ← needsDistinct_iff hneeds, not_and] at hallowed
        exact withoutRollup_decides hallowed _
  · intro hbonus hpenalty best hbest rollup hmem hcan
    exact hranks.spare_le hbonus hpenalty hbest ((hranks.mem_iff rollup).2 ⟨hmem, hcan⟩)

/-- Of three rollups the last has no dimension to spare, and the others score alike. -/
theorem follows_rules_of_three_rollups :
    let spare : RollupDefinition := .daily ["clicks", "cost"]
    let router : Router :=
      { registry := .searches
        rollups := [spare, { spare with id := "again" },
          { spare with id := "by_date", dimensions := ["date"] }] }
    let request : RouteRequest :=
      { dimensions := ["date"], metrics := ["clicks", "cost_per_click"] }
    (router.findSuitableRollups request).toOption.map (·.map fun c => (c.rollupId, c.score)) =
      some [("by_date", 150), ("daily", 95), ("again", 95)] ∧
    ∃ ranking, router.Ranks request ranking ∧
      (∃ candidates, router.findSuitableRollups request = .ok candidates ∧
        List.Forall₂ (router.CandidateOf request) ranking candidates) ∧
      router.Decides request ranking (router.route request) ∧
      ∀ best ∈ ranking.head?, ∀ rollup ∈ router.rollups, router.CanAnswer request rollup →
        request.spare best ≤ request.spare rollup := by
  intro spare router request
  have hfit : router.ScoresFit request := by
    have : ∀ rollup ∈ router.rollups, -2 ^ 63 ≤ router.exactScore request rollup ∧
        router.exactScore request rollup < 2 ^ 63 := by
      decide +kernel
    exact fun rollup hmem _ => this rollup hmem
  have hmetrics : ∀ id ∈ request.metrics, (router.registry.metric? id).isSome := by
    decide +kernel
  obtain ⟨ranking, hranks, hcandidates, hroute, hspare⟩ := follows_rules router request
    (by decide +kernel) (by decide +kernel) (by decide +kernel)
    (fun id hid => .inl (hmetrics id hid)) hfit
  exact ⟨by decide +kernel, ranking, hranks, hcandidates, hroute,
    hspare (by decide +kernel) (by decide +kernel)⟩

end Router

end MetricLayer
