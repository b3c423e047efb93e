import MetricLayer.Proofs.Registry.Editing

/-!
# Dependents and base metrics by traversal

The metrics that rest on an id are found breadth first: a queue of those met, each of
which is met once (`dependentsFrom`). The base metrics that an id rests on are found
depth first: a stack that may hold a metric more than once, of which the second visit
does nothing (`basesFrom`). Both end on every graph, circles included, and come to the
sets that the graph has by repetition (`dependentsFrom_eq`, `basesFrom_eq`).

The two directions are one relation: a metric rests on a base metric exactly if chains of
references lead from the one to the other (`reachability_dual`).
-/

namespace MetricLayer

open Relation (ReflTransGen TransGen)

namespace DependencyGraph

variable {g : DependencyGraph} {id current x y : String}
  {nexts queue seen stack visited found : List String}

/-! ## Breadth first, over dependents -/

/-- A dependent of what the queue held: new ones other than `id` are queued. -/
def meet (id : String) (state : List String × List String) (dependent : String) :
    List String × List String :=
  if dependent = id ∨ dependent ∈ state.2 then state
  else (state.1 ++ [dependent], insertSorted dependent state.2)

theorem foldl_meet_seen :
    x ∈ (nexts.foldl (meet id) (queue, seen)).2 ↔ x ∈ seen ∨ x ∈ nexts ∧ x ≠ id := by
  induction nexts generalizing queue seen with
  | nil => simp
  | cons next rest ih =>
    rw [List.foldl_cons, meet]
    split
    · rename_i hold
      rw [ih, List.mem_cons]
      grind
    · rw [ih, List.mem_cons, mem_insertSorted]
      grind

theorem foldl_meet_queue :
    x ∈ (nexts.foldl (meet id) (queue, seen)).1 ↔
      x ∈ queue ∨ x ∈ nexts ∧ x ≠ id ∧ x ∉ seen := by
  induction nexts generalizing queue seen with
  | nil => simp
  | cons next rest ih =>
    rw [List.foldl_cons, meet]
    split
    · rename_i hold
      rw [ih, List.mem_cons]
      grind
    · rw [ih, List.mem_cons, mem_insertSorted, List.mem_append, List.mem_singleton]
      grind

theorem pairwise_foldl_meet (h : seen.Pairwise (· < ·)) :
    (nexts.foldl (meet id) (queue, seen)).2.Pairwise (· < ·) := by
  induction nexts generalizing queue seen with
  | nil => exact h
  | cons next rest ih =>
    rw [List.foldl_cons, meet]
    split
    · exact ih h
    · exact ih (pairwise_insertSorted h)

/-- Each id that is queued is one less that can be met. -/
theorem length_foldl_meet {pool : List String} (hpool : ∀ x ∈ nexts, x ∈ pool) :
    (nexts.foldl (meet id) (queue, seen)).1.length +
        (missing pool (nexts.foldl (meet id) (queue, seen)).2).length ≤
      queue.length + (missing pool seen).length := by
  induction nexts generalizing queue seen with
  | nil => exact Nat.le_refl _
  | cons next rest ih =>
    rw [List.forall_mem_cons] at hpool
    rw [List.foldl_cons, meet]
    split
    · exact ih hpool.2
    · rename_i hnew
      have hless : (missing pool (insertSorted next seen)).length < (missing pool seen).length :=
        length_missing_lt hpool.1 (fun h => hnew (.inr h)) (by simp) fun x hx => by simp [hx]
      have hrest := @ih (queue ++ [next]) (insertSorted next seen) hpool.2
      rw [List.length_append, List.length_singleton] at hrest
      dsimp only at hrest hless ⊢
      omega

theorem source_of_mem_dependents (h : x ∈ g.dependents current) :
    x ∈ g.edges.map (·.source) := by
  obtain ⟨kind, he⟩ := mem_dependents.1 h
  exact List.mem_map_of_mem (f := (·.source)) he

/-- The dependents that the queue leads to, with those already seen. -/
def dependentsFrom (g : DependencyGraph) (id : String) (queue seen : List String) :
    List String :=
  match queue with
  | [] => seen
  | current :: queue =>
    let next := (g.dependents current).foldl (meet id) (queue, seen)
    dependentsFrom g id next.1 next.2
termination_by queue.length + (missing (g.edges.map (·.source)) seen).length
decreasing_by
  have hpool : ∀ x ∈ g.dependents current, x ∈ g.edges.map (·.source) := fun _ =>
    source_of_mem_dependents
  have hless := @length_foldl_meet id _ queue seen _ hpool
  rw [List.length_cons]
  omega

/-- How far the search for the dependents of `id` has come. -/
structure Spreading (g : DependencyGraph) (id : String) (queue seen : List String) : Prop where
  sorted : seen.Pairwise (· < ·)
  leads : ∀ x ∈ seen, x ≠ id ∧ ReflTransGen g.Refers x id
  queued : ∀ x ∈ queue, x = id ∨ x ∈ seen
  /-- What is not queued has been worked off. -/
  closed : ∀ y, y = id ∨ y ∈ seen → y ∉ queue → ∀ x, g.Refers x y → x = id ∨ x ∈ seen

theorem Spreading.start (g : DependencyGraph) (id : String) : Spreading g id [id] [] where
  sorted := .nil
  leads := by simp
  queued := by simp
  closed := by simp

theorem Spreading.step (h : Spreading g id (current :: queue) seen) :
    Spreading g id ((g.dependents current).foldl (meet id) (queue, seen)).1
      ((g.dependents current).foldl (meet id) (queue, seen)).2 where
  sorted := pairwise_foldl_meet h.sorted
  leads x hx := by
    rcases foldl_meet_seen.1 hx with hx | ⟨hx, hne⟩
    · exact h.leads x hx
    · refine ⟨hne, .head (mem_dependents.1 hx) ?_⟩
      rcases h.queued current List.mem_cons_self with rfl | hcurrent
      · exact .refl
      · exact (h.leads current hcurrent).2
  queued x hx := by
    rw [foldl_meet_seen]
    rcases foldl_meet_queue.1 hx with hx | ⟨hx, hne, -⟩
    · exact (h.queued x (List.mem_cons_of_mem _ hx)).imp_right .inl
    · exact .inr (.inr ⟨hx, hne⟩)
  closed y hy hout x hxy := by
    rw [foldl_meet_seen] at hy ⊢
    rw [foldl_meet_queue, not_or] at hout
    by_cases hcurrent : y = current
    · obtain rfl := hcurrent
      by_cases hx : x = id
      · exact .inl hx
      · exact .inr (.inr ⟨mem_dependents.2 hxy, hx⟩)
    · -- a metric that has just been met is in the queue
      have hold : y = id ∨ y ∈ seen := by
        rcases hy with hy | hy | ⟨hy, hne⟩
        · exact .inl hy
        · exact .inr hy
        · by_contra hnew
          exact hout.2 ⟨hy, hne, fun hseen => hnew (.inr hseen)⟩
      exact (h.closed y hold (by simp [hcurrent, hout.1]) x hxy).imp_right .inl

theorem spreading_dependentsFrom (h : Spreading g id queue seen) :
    Spreading g id [] (g.dependentsFrom id queue seen) := by
  induction queue, seen using dependentsFrom.induct g id with
  | case1 seen => rwa [dependentsFrom]
  | case2 seen current queue next ih =>
    rw [dependentsFrom]
    exact ih h.step

theorem Spreading.mem_iff (h : Spreading g id [] seen) :
    x ∈ seen ↔ x ≠ id ∧ ReflTransGen g.Refers x id := by
  have hall (hchain : ReflTransGen g.Refers x id) : x = id ∨ x ∈ seen := by
    induction hchain using ReflTransGen.head_induction_on with
    | refl => exact .inl rfl
    | head hac _ ih => exact h.closed _ ih List.not_mem_nil _ hac
  exact ⟨h.leads x, fun ⟨hne, hchain⟩ => (hall hchain).resolve_left hne⟩

theorem dependentsFrom_eq (g : DependencyGraph) (id : String) :
    g.dependentsFrom id [id] [] = g.transitiveDependents id := by
  have h := spreading_dependentsFrom (Spreading.start g id)
  refine h.sorted.eq_of_mem_iff (pairwise_transitiveDependents g id) fun x => ?_
  rw [h.mem_iff, mem_transitiveDependents]

/-! ## Depth first, over dependencies -/

/-- The edges out of metrics not yet visited. -/
def unused (g : DependencyGraph) (visited : List String) : List Edge :=
  g.edges.filter fun e => !visited.contains e.source

/-- A metric is left by all its edges at once. -/
theorem length_unused (h : current ∉ visited) :
    (g.dependencies current).length + (g.unused (insertSorted current visited)).length ≤
      (g.unused visited).length := by
  have hleave : (g.dependencies current).length ≤
      ((g.edges.filter fun e => e.source == current).map (·.target)).length :=
    (List.subperm_of_subset (nodup_sortedSet _) fun x hx => by
      have hx := mem_dependencies.1 hx
      exact List.mem_map.2 ⟨_, List.mem_filter.2 ⟨hx, beq_self_eq_true current⟩, rfl⟩).length_le
  rw [List.length_map] at hleave
  refine (Nat.add_le_add_right hleave _).trans ?_
  rw [unused, unused]
  induction g.edges with
  | nil => exact Nat.le_refl _
  | cons e edges ih =>
    rw [List.filter_cons, List.filter_cons, List.filter_cons]
    by_cases hsource : e.source = current
    · simp [hsource, h] at ih ⊢
      omega
    · by_cases hvisited : e.source ∈ visited <;> simp [hsource, hvisited] at ih ⊢ <;> omega

/-- The base metrics that the stack leads to, with those already found. -/
def basesFrom (g : DependencyGraph) (stack visited found : List String) : List String :=
  match stack with
  | [] => found
  | current :: stack =>
    if current ∈ visited then basesFrom g stack visited found
    else
      basesFrom g ((g.dependencies current).reverse ++ stack) (insertSorted current visited)
        (sortedSet (found ++ g.targets .base current))
termination_by stack.length + (g.unused visited).length
decreasing_by
  · rw [List.length_cons]
    omega
  · have hless := length_unused (g := g) ‹current ∉ visited›
    rw [List.length_cons, List.length_append, List.length_reverse]
    omega

/-- How far the search for the base metrics of `id` has come. -/
structure Collecting (g : DependencyGraph) (id : String) (stack visited found : List String) :
    Prop where
  sorted : found.Pairwise (· < ·)
  leads : ∀ x, x ∈ stack ∨ x ∈ visited → ReflTransGen g.DependsOn id x
  start : id ∈ stack ∨ id ∈ visited
  closed : ∀ x ∈ visited, ∀ y, g.DependsOn x y → y ∈ stack ∨ y ∈ visited
  found : ∀ b, b ∈ found ↔ ∃ x ∈ visited, ⟨x, b, .base⟩ ∈ g.edges

theorem Collecting.begin (g : DependencyGraph) (id : String) : Collecting g id [id] [] [] where
  sorted := .nil
  leads x hx := by
    obtain rfl : x = id := by simpa using hx
    exact .refl
  start := .inl List.mem_cons_self
  closed := by simp
  found := by simp

/-- A metric that comes off the stack for a second time. -/
theorem Collecting.skip (h : Collecting g id (current :: stack) visited found)
    (hold : current ∈ visited) : Collecting g id stack visited found where
  sorted := h.sorted
  leads x hx := h.leads x (hx.imp_left (List.mem_cons_of_mem _))
  start := by grind [h.start]
  closed x hx y hxy := by grind [h.closed x hx y hxy]
  found := h.found

theorem Collecting.visit (h : Collecting g id (current :: stack) visited found) :
    Collecting g id ((g.dependencies current).reverse ++ stack) (insertSorted current visited)
      (sortedSet (found ++ g.targets .base current)) where
  sorted := pairwise_sortedSet _
  leads x hx := by
    rw [List.mem_append, List.mem_reverse, mem_dependencies, mem_insertSorted] at hx
    have hcurrent := h.leads current (.inl List.mem_cons_self)
    rcases hx with (hx | hx) | rfl | hx
    · exact hcurrent.tail hx
    · exact h.leads x (.inl (List.mem_cons_of_mem _ hx))
    · exact hcurrent
    · exact h.leads x (.inr hx)
  start := by
    rw [List.mem_append, mem_insertSorted]
    grind [h.start]
  closed x hx y hxy := by
    rw [mem_insertSorted] at hx
    rw [List.mem_append, List.mem_reverse, mem_dependencies, mem_insertSorted]
    rcases hx with rfl | hx
    · exact .inl (.inl hxy)
    · grind [h.closed x hx y hxy]
  found b := by
    rw [mem_sortedSet, List.mem_append, h.found, mem_targets]
    simp only [mem_insertSorted, exists_eq_or_imp]
    exact or_comm

theorem collecting_basesFrom (h : Collecting g id stack visited found) :
    ∃ after, Collecting g id [] after (g.basesFrom stack visited found) := by
  induction stack, visited, found using basesFrom.induct g with
  | case1 visited found => exact ⟨visited, by rwa [basesFrom]⟩
  | case2 visited found current stack hold ih =>
    rw [basesFrom, if_pos hold]
    exact ih (h.skip hold)
  | case3 visited found current stack hnew ih =>
    rw [basesFrom, if_neg hnew]
    exact ih h.visit

theorem Collecting.visited_iff (h : Collecting g id [] visited found) :
    x ∈ visited ↔ ReflTransGen g.DependsOn id x := by
  refine ⟨fun hx => h.leads x (.inr hx), fun hchain => ?_⟩
  induction hchain with
  | refl => exact h.start.resolve_left List.not_mem_nil
  | tail _ hbc ih => exact (h.closed _ ih _ hbc).resolve_left List.not_mem_nil

theorem basesFrom_eq (g : DependencyGraph) (id : String) :
    g.basesFrom [id] [] [] = g.transitiveBases id := by
  obtain ⟨visited, h⟩ := collecting_basesFrom (Collecting.begin g id)
  refine h.sorted.eq_of_mem_iff (pairwise_sortedSet _) fun b => ?_
  simp only [h.found, mem_transitiveBases, h.visited_iff]

end DependencyGraph

/-! ## The two directions -/

namespace Registry

open DependencyGraph (ofRegistry)

variable {r : Registry} {d : Sql.Dialect} {x y : String}

/-- The formula of the calculated metric `x` refers to `y`. Each link of a chain but the
last is thus a calculated metric. -/
def Names (r : Registry) (x y : String) : Prop :=
  ∃ m ∈ r.calculatedMetrics, m.id = x ∧
    ∃ references, extractReferences m.formula = .ok references ∧ ∃ ref ∈ references, ref.name = y

/-- Every formula can be scanned for references. -/
def Scannable (r : Registry) : Prop :=
  ∀ m ∈ r.calculatedMetrics, ∃ references, extractReferences m.formula = .ok references

theorem Scannable.refers_iff (h : r.Scannable) : (ofRegistry r).Refers x y ↔ r.Names x y := by
  rw [Registry.refers_iff]
  refine exists_congr fun m => and_congr_right fun hm => and_congr_right fun _ => ?_
  obtain ⟨references, hextract⟩ := h m hm
  simp [mem_referredIds hextract, hextract]

theorem Scannable.reaches_iff (h : r.Scannable) :
    TransGen (ofRegistry r).Refers x y ↔ TransGen r.Names x y := by
  have hsame : (ofRegistry r).Refers = r.Names :=
    funext fun a => funext fun b => propext h.refers_iff
  rw [hsame]

theorem mem_transitiveDependents_iff_transGen {id : String} :
    x ∈ (ofRegistry r).transitiveDependents id ↔
      x ≠ id ∧ TransGen (ofRegistry r).Refers x id := by
  rw [DependencyGraph.mem_transitiveDependents]
  refine and_congr_right fun hne => ?_
  rw [Relation.reflTransGen_iff_eq_or_transGen]
  exact or_iff_right fun heq => hne heq.symm

/-- A chain of references to a base metric is one of dependencies with a last reference. -/
theorem mem_transitiveBases_iff_transGen (hr : r.WellFormed) {b : String} :
    b ∈ (ofRegistry r).transitiveBases x ↔
      (r.baseMetric? b).isSome ∧ TransGen (ofRegistry r).Refers x b := by
  rw [DependencyGraph.mem_transitiveBases]
  constructor
  · rintro ⟨y, hchain, hedge⟩
    have hchain := ReflTransGen.mono (fun _ _ => DependencyGraph.DependsOn.refers) _ _ hchain
    exact ⟨isSome_baseMetric?_of_edge hedge, .tail' hchain ⟨_, hedge⟩⟩
  · rintro ⟨hbase, hchain⟩
    obtain ⟨y, hchain, hlast⟩ := TransGen.tail'_iff.1 hchain
    obtain ⟨m, hm, rfl, hmem⟩ := refers_iff.1 hlast
    refine ⟨m.id, dependsOn_of_refers hchain (isSome_calculatedMetric?_iff.2 ⟨m, hm, rfl⟩),
      mem_edges_ofRegistry.2 ⟨m, hm, rfl, hmem, ?_⟩⟩
    obtain ⟨base, hbase⟩ := Option.isSome_iff_exists.1 hbase
    simp [DependencyGraph.targetKind, hr.calculatedMetric?_eq_none hbase, hbase]

/-- What rests on an id, and the base metrics that an id rests on, are the ends of chains of
references, whichever way they are followed; and both traversals end and find them. -/
theorem reachability_dual {document : SchemaDocument} (accepted : ofDocument document = .ok r)
    (scannable : r.Scannable) :
    (∀ id, (ofRegistry r).dependentsFrom id [id] [] = (ofRegistry r).transitiveDependents id) ∧
    (∀ id, (ofRegistry r).basesFrom [id] [] [] = (ofRegistry r).transitiveBases id) ∧
    (∀ id x, x ∈ (ofRegistry r).transitiveDependents id ↔ x ≠ id ∧ TransGen r.Names x id) ∧
    (∀ x b, b ∈ (ofRegistry r).transitiveBases x ↔
      (r.baseMetric? b).isSome ∧ TransGen r.Names x b) ∧
    ∀ b, (r.baseMetric? b).isSome → ∀ x,
      x ∈ (ofRegistry r).transitiveDependents b ↔ b ∈ (ofRegistry r).transitiveBases x := by
  have hr := wellFormed_ofDocument accepted
  have hdependents (id x : String) :
      x ∈ (ofRegistry r).transitiveDependents id ↔ x ≠ id ∧ TransGen r.Names x id := by
    rw [mem_transitiveDependents_iff_transGen, scannable.reaches_iff]
  have hbases (x b : String) : b ∈ (ofRegistry r).transitiveBases x ↔
      (r.baseMetric? b).isSome ∧ TransGen r.Names x b := by
    rw [mem_transitiveBases_iff_transGen hr, scannable.reaches_iff]
  refine ⟨DependencyGraph.dependentsFrom_eq _, DependencyGraph.basesFrom_eq _, hdependents, hbases,
    fun b hbase x => ?_⟩
  rw [hdependents, hbases, and_iff_right hbase, and_iff_right_iff_imp]
  rintro hchain rfl
  -- a base metric refers to nothing
  obtain ⟨y, ⟨m, hm, rfl, -⟩, -⟩ := TransGen.head'_iff.1 hchain
  simp [hr.baseMetric?_eq_none hm] at hbase

/-- The metrics `rate` and `trend` refer to each other, and only `rate` to a base metric. -/
def trendDocument : SchemaDocument where
  table := "web"
  sourceTable := "raw.web"
  baseMetrics := [{ id := "clicks", sourceColumns := ["clicks"], aggregation := .sum },
    { id := "views", sourceColumns := ["views"], aggregation := .sum }]
  calculatedMetrics := [{ id := "rate", formula := "{clicks} / {trend}" },
    { id := "trend", formula := "ROUND({rate}, 2)" }, { id := "double", formula := "{trend} * 2" }]

/-- Around the circle, `double` rests on `clicks`. -/
theorem reachability_dual_trend :
    let r : Registry := ⟨trendDocument⟩
    ofDocument trendDocument = .ok r ∧ r.Scannable ∧ TransGen r.Names "double" "clicks" ∧
      ¬ TransGen r.Names "double" "views" := by
  intro r
  have accepted : ofDocument trendDocument = .ok r := by decide +kernel
  have scannable : r.Scannable := fun m hm => by
    have h : ∀ m ∈ trendDocument.calculatedMetrics, (extractReferences m.formula).toBool = true := by
      decide +kernel
    exact Except.exists_of_toBool (h m hm)
  obtain ⟨-, -, hdependents, hbases, -⟩ := reachability_dual accepted scannable
  refine ⟨accepted, scannable, ((hdependents "clicks" "double").1 (by decide +kernel)).2,
    fun hchain => ?_⟩
  exact absurd ((hbases "double" "views").2 ⟨by decide +kernel, hchain⟩) (by decide +kernel)

end Registry

end MetricLayer
