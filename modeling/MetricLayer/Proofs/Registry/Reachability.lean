import Mathlib.Logic.Relation
import MetricLayer.Proofs.SortedSet
import MetricLayer.Registry.Graph

/-!
# Reachability in a dependency graph

`g.Refers a b` says that the formula of `a` refers to `b`, and `g.DependsOn a b`
that `b` is then a calculated metric. What the graph computes by repetition is
what chains of these edges lead to:

* `mem_transitiveDependents`, `mem_reachable`, `mem_transitiveBases`: the
  closures hold exactly the ids at the end of a chain;
* `path?_eq_none_iff`: the search finds a path exactly if there is a chain;
* `cycleThrough?_eq_none_iff`: new dependencies close no cycle exactly if no
  chain leads back from them.
-/

namespace MetricLayer

open Relation (ReflTransGen TransGen)

namespace DependencyGraph

variable (g : DependencyGraph)

/-- The formula of `a` refers to `b`. -/
def Refers (a b : String) : Prop := ∃ kind, ⟨a, b, kind⟩ ∈ g.edges

/-- The formula of `a` refers to the calculated metric `b`. -/
def DependsOn (a b : String) : Prop := ⟨a, b, .calculated⟩ ∈ g.edges

/-- No chain of dependencies leads from a metric back to it. -/
def Acyclic : Prop := ∀ id, ¬ TransGen g.DependsOn id id

variable {g}

theorem DependsOn.refers {a b : String} (h : g.DependsOn a b) : g.Refers a b := ⟨_, h⟩

theorem mem_targets {kind : TargetKind} {a b : String} :
    b ∈ g.targets kind a ↔ ⟨a, b, kind⟩ ∈ g.edges := by
  simp only [targets, mem_sortedSet, List.mem_map, List.mem_filter, Bool.and_eq_true, beq_iff_eq]
  constructor
  · rintro ⟨e, ⟨he, rfl, rfl⟩, rfl⟩
    exact he
  · exact fun h => ⟨_, ⟨h, rfl, rfl⟩, rfl⟩

@[simp] theorem mem_dependencies {a b : String} : b ∈ g.dependencies a ↔ g.DependsOn a b :=
  mem_targets

@[simp] theorem mem_dependents {a b : String} : a ∈ g.dependents b ↔ g.Refers a b := by
  simp only [dependents, mem_sortedSet, List.mem_map, List.mem_filter, beq_iff_eq]
  constructor
  · rintro ⟨e, ⟨he, rfl⟩, rfl⟩
    exact ⟨e.kind, he⟩
  · rintro ⟨kind, h⟩
    exact ⟨_, ⟨h, rfl⟩, rfl⟩

/-- Chains to `id` have no use for the dependencies of `id`. -/
theorem reaches_of_changed {g' : DependencyGraph} {id : String}
    (hsame : ∀ a b, a ≠ id → g'.DependsOn a b → g.DependsOn a b) {a : String}
    (h : ReflTransGen g'.DependsOn a id) : ReflTransGen g.DependsOn a id := by
  induction h using ReflTransGen.head_induction_on with
  | refl => exact .refl
  | @head a b hab _ ih =>
    by_cases ha : a = id
    · exact ha ▸ .refl
    · exact ih.head (hsame a b ha hab)

/-- Changing the dependencies of `id` alone makes no cycle if none of the new ones
led to `id` before. -/
theorem acyclic_of_changed {g' : DependencyGraph} {id : String} (hg : g.Acyclic)
    (hsame : ∀ a b, a ≠ id → g'.DependsOn a b → g.DependsOn a b)
    (hnew : ∀ b, g'.DependsOn id b → ¬ ReflTransGen g.DependsOn b id) : g'.Acyclic := by
  have hthrough {a b : String} (h : TransGen g'.DependsOn a b) : TransGen g.DependsOn a b ∨
      ReflTransGen g'.DependsOn a id ∧ TransGen g'.DependsOn id b := by
    induction h with
    | @single b hab =>
      by_cases ha : a = id
      · exact .inr ⟨ha ▸ .refl, ha ▸ .single hab⟩
      · exact .inl (.single (hsame a b ha hab))
    | @tail b c hab hbc ih =>
      rcases ih with h | ⟨h, h'⟩
      · by_cases hb : b = id
        · exact .inr ⟨hb ▸ hab.to_reflTransGen, hb ▸ .single hbc⟩
        · exact .inl (h.tail (hsame b c hb hbc))
      · exact .inr ⟨h, h'.tail hbc⟩
  intro x hx
  rcases hthrough hx with h | ⟨hto, hfrom⟩
  · exact hg x h
  · obtain ⟨b, hb, hbx⟩ := TransGen.head'_iff.1 hfrom
    exact hnew b hb (reaches_of_changed hsame (hbx.trans hto))

/-! ## Closures -/

section Grow

variable {next : String → List String} {ids : List String}

theorem subset_grow (n : Nat) : ids ⊆ grow next n ids := by
  induction n generalizing ids with
  | zero => exact List.Subset.refl _
  | succ n ih =>
    rw [grow]
    split
    · exact List.Subset.refl _
    · exact fun x hx => ih (by simp [hx])

theorem pairwise_grow (n : Nat) (h : ids.Pairwise (· < ·)) :
    (grow next n ids).Pairwise (· < ·) := by
  induction n generalizing ids with
  | zero => exact h
  | succ n ih =>
    rw [grow]
    split
    · exact h
    · exact ih (pairwise_sortedSet _)

/-- What is grown comes from the ids at the start. -/
theorem exists_of_mem_grow {n : Nat} {x : String} (h : x ∈ grow next n ids) :
    ∃ a ∈ ids, ReflTransGen (fun a b => b ∈ next a) a x := by
  induction n generalizing ids with
  | zero => exact ⟨x, h, .refl⟩
  | succ n ih =>
    rw [grow] at h
    split at h
    · exact ⟨x, h, .refl⟩
    · obtain ⟨a, ha, hax⟩ := ih h
      rw [mem_sortedSet, List.mem_append, List.mem_flatMap] at ha
      rcases ha with ha | ⟨b, hb, hba⟩
      · exact ⟨a, ha, hax⟩
      · exact ⟨b, hb, hax.head hba⟩

/-- The members of `pool` that are not yet in `ids`. -/
def missing (pool ids : List String) : List String := pool.filter fun x => !ids.contains x

theorem length_missing_lt {pool ids more : List String} {x : String} (hx : x ∈ pool)
    (hids : x ∉ ids) (hmore : x ∈ more) (hsub : ids ⊆ more) :
    (missing pool more).length < (missing pool ids).length := by
  have hfilter : missing pool more = (missing pool ids).filter fun y => !more.contains y := by
    rw [missing, missing, List.filter_filter]
    refine List.filter_congr fun y _ => ?_
    by_cases hy : y ∈ ids
    · simp [hy, hsub hy]
    · simp [hy]
  rw [hfilter, List.length_filter_lt_length_iff_exists]
  exact ⟨x, by simp [missing, hx, hids], by simp [hmore]⟩

theorem length_missing_le {pool ids more : List String} (hsub : ids ⊆ more) :
    (missing pool more).length ≤ (missing pool ids).length :=
  (List.monotone_filter_right pool fun y hy => by
    simp only [Bool.not_eq_true', List.contains_eq_mem, decide_eq_false_iff_not] at hy ⊢
    exact fun h => hy (hsub h)).length_le

/-- Steps for all that may be missing suffice to reach a set that `next` does not
lead out of. -/
theorem grow_closed {pool : List String} (hpool : ∀ a, ∀ b ∈ next a, b ∈ pool) {n : Nat}
    (hn : (missing pool ids).length ≤ n) (h : ids.Pairwise (· < ·)) {a b : String}
    (ha : a ∈ grow next n ids) (hb : b ∈ next a) : b ∈ grow next n ids := by
  induction n generalizing ids with
  | zero =>
    rw [grow] at ha ⊢
    have hnil : missing pool ids = [] := List.eq_nil_of_length_eq_zero (Nat.le_zero.1 hn)
    by_contra hb'
    have : b ∈ missing pool ids := by simp [missing, hpool a b hb, hb']
    simp [hnil] at this
  | succ n ih =>
    rw [grow] at ha ⊢
    have hsub : ids ⊆ sortedSet (ids ++ ids.flatMap next) := fun x hx => by simp [hx]
    split at ha
    · rename_i hlen
      rw [if_pos hlen]
      have heq : ids = sortedSet (ids ++ ids.flatMap next) :=
        ((List.subperm_of_subset (nodup_of_pairwise_lt h) hsub).perm_of_length_le
          (Nat.le_of_eq hlen)).eq_of_pairwise'
          h (pairwise_sortedSet _)
      rw [heq]
      simp only [mem_sortedSet, List.mem_append, List.mem_flatMap]
      exact .inr ⟨a, ha, hb⟩
    · rename_i hlen
      rw [if_neg hlen]
      refine ih ?_ (pairwise_sortedSet _) ha
      -- a set that is longer has an element that was missing
      obtain ⟨x, hx, hnew⟩ : ∃ x ∈ sortedSet (ids ++ ids.flatMap next), x ∉ ids := by
        by_contra hall
        simp only [not_exists, not_and, not_not] at hall
        refine hlen (Nat.le_antisymm ?_ ?_)
        · exact (List.subperm_of_subset (nodup_sortedSet _) hall).length_le
        · exact (List.subperm_of_subset (nodup_of_pairwise_lt h) hsub).length_le
      have hxpool : x ∈ pool := by
        simp only [mem_sortedSet, List.mem_append, List.mem_flatMap] at hx
        obtain ⟨c, -, hc⟩ := hx.resolve_left hnew
        exact hpool c x hc
      have := length_missing_lt hxpool hnew hx hsub
      omega

end Grow

/-- A closure holds what chains of `next` lead to. -/
theorem mem_closure {next : String → List String} {ids pool : List String}
    (hpool : ∀ a, ∀ b ∈ next a, b ∈ pool) (hlen : pool.length ≤ 2 * g.edges.length) {x : String} :
    x ∈ g.closure next ids ↔ ∃ a ∈ ids, ReflTransGen (fun a b => b ∈ next a) a x := by
  constructor
  · intro h
    obtain ⟨a, ha, hax⟩ := exists_of_mem_grow h
    exact ⟨a, mem_sortedSet.1 ha, hax⟩
  · rintro ⟨a, ha, hax⟩
    induction hax with
    | refl => exact subset_grow _ (mem_sortedSet.2 ha)
    | tail _ hbc ih =>
      refine grow_closed hpool ?_ (pairwise_sortedSet ids) ih hbc
      exact (List.length_filter_le ..).trans hlen

theorem mem_transitiveDependents {id x : String} :
    x ∈ g.transitiveDependents id ↔ x ≠ id ∧ ReflTransGen g.Refers x id := by
  have hpool : ∀ a, ∀ b ∈ g.dependents a, b ∈ g.edges.map (·.source) := by
    intro a b hb
    obtain ⟨kind, he⟩ := mem_dependents.1 hb
    exact List.mem_map_of_mem (f := (·.source)) he
  rw [transitiveDependents, List.mem_filter,
    mem_closure hpool (by rw [List.length_map]; omega)]
  simp only [List.mem_singleton, exists_eq_left, mem_dependents, bne_iff_ne, ne_eq]
  rw [and_comm, ← Relation.reflTransGen_swap]

theorem pairwise_transitiveDependents (g : DependencyGraph) (id : String) :
    (g.transitiveDependents id).Pairwise (· < ·) :=
  (pairwise_grow _ (pairwise_sortedSet _)).filter _

theorem mem_reachable {id x : String} : x ∈ g.reachable id ↔ ReflTransGen g.DependsOn id x := by
  have hpool : ∀ a, ∀ b ∈ g.dependencies a, b ∈ g.edges.map (·.target) := by
    intro a b hb
    exact List.mem_map_of_mem (f := (·.target)) (mem_dependencies.1 hb)
  rw [reachable, mem_closure hpool (by rw [List.length_map]; omega)]
  simp only [List.mem_singleton, exists_eq_left, mem_dependencies]

theorem mem_transitiveBases {id b : String} :
    b ∈ g.transitiveBases id ↔
      ∃ x, ReflTransGen g.DependsOn id x ∧ ⟨x, b, .base⟩ ∈ g.edges := by
  simp only [transitiveBases, mem_sortedSet, List.mem_flatMap, mem_reachable, mem_targets]

/-! ## Paths -/

/-- The searches from `nexts`, one after the other until one finds a path. -/
def searchAll (g : DependencyGraph) (target : String) (depth : Nat) (visited : List String) :
    List String → Option (List String) × List String
  | [] => (none, visited)
  | next :: rest =>
    match g.search target depth visited next with
    | (some path, visited) => (some path, visited)
    | (none, visited) => searchAll g target depth visited rest

/-- What `search` folds over the dependencies. -/
theorem foldl_eq_searchAll {target : String} {depth : Nat}
    {step : Option (List String) × List String → String → Option (List String) × List String}
    (hfound : ∀ path visited next, step (some path, visited) next = (some path, visited))
    (hnext : ∀ visited next, step (none, visited) next = g.search target depth visited next)
    (visited nexts : List String) :
    nexts.foldl step (none, visited) = g.searchAll target depth visited nexts := by
  have hstay (path seen rest : List String) :
      rest.foldl step (some path, seen) = (some path, seen) := by
    induction rest with
    | nil => rfl
    | cons next rest ih => rw [List.foldl_cons, hfound, ih]
  induction nexts generalizing visited with
  | nil => rfl
  | cons next rest ih =>
    rw [List.foldl_cons, searchAll, hnext]
    rcases g.search target depth visited next with ⟨_ | path, seen⟩
    · exact ih seen
    · exact hstay path seen rest

theorem search_succ {target : String} {depth : Nat} {visited : List String} {current : String} :
    g.search target (depth + 1) visited current =
      if current = target then (some [current], visited)
      else if current ∈ visited then (none, visited)
      else ((g.searchAll target depth (current :: visited) (g.dependencies current)).1.map
          (current :: ·),
        (g.searchAll target depth (current :: visited) (g.dependencies current)).2) := by
  rw [search, foldl_eq_searchAll]
  · exact if_congr beq_iff_eq rfl (if_congr List.contains_iff_mem rfl rfl)
  · exact fun _ _ _ => rfl
  · exact fun _ _ => rfl

/-- A path that is found is a chain. -/
theorem chain_of_search {target : String} {depth : Nat} {visited : List String} {current : String}
    {path after : List String} (h : g.search target depth visited current = (some path, after)) :
    ReflTransGen g.DependsOn current target := by
  induction depth generalizing visited current path after with
  | zero => simp [search] at h
  | succ depth ih =>
    have hall (nexts : List String) (visited : List String) {path : List String}
        (h : (g.searchAll target depth visited nexts).1 = some path) :
        ∃ next ∈ nexts, ReflTransGen g.DependsOn next target := by
      induction nexts generalizing visited with
      | nil => simp [searchAll] at h
      | cons next rest ihn =>
        rw [searchAll] at h
        split at h
        · exact ⟨next, List.mem_cons_self, ih ‹_›⟩
        · obtain ⟨other, hmem, hchain⟩ := ihn _ h
          exact ⟨other, List.mem_cons_of_mem _ hmem, hchain⟩
    rw [search_succ] at h
    split at h
    · rename_i heq
      exact heq ▸ .refl
    · split at h
      · simp at h
      · simp only [Prod.mk.injEq, Option.map_eq_some_iff] at h
        obtain ⟨⟨rest, hrest, -⟩, -⟩ := h
        obtain ⟨next, hmem, hchain⟩ := hall _ _ hrest
        exact hchain.head (mem_dependencies.1 hmem)

/-- What a search leaves behind that finds no path: everything newly visited is
not the target and leads to visited metrics only. -/
structure Exhausted (g : DependencyGraph) (target : String) (before after : List String) :
    Prop where
  subset : ∀ x ∈ before, x ∈ after
  not_target : ∀ x ∈ after, x ∉ before → x ≠ target
  closed : ∀ x ∈ after, x ∉ before → ∀ y, g.DependsOn x y → y ∈ after

theorem Exhausted.refl (target : String) (visited : List String) :
    Exhausted g target visited visited :=
  ⟨fun _ h => h, fun _ h h' => absurd h h', fun _ h h' => absurd h h'⟩

theorem Exhausted.trans {target : String} {xs ys zs : List String}
    (h : Exhausted g target xs ys) (h' : Exhausted g target ys zs) : Exhausted g target xs zs where
  subset x hx := h'.subset x (h.subset x hx)
  not_target x hx hxs := by
    by_cases hy : x ∈ ys
    · exact h.not_target x hy hxs
    · exact h'.not_target x hx hy
  closed x hx hxs y hy := by
    by_cases hxy : x ∈ ys
    · exact h'.subset y (h.closed x hxy hxs y hy)
    · exact h'.closed x hx hxy y hy

/-- A metric whose neighbours have all been searched in vain is exhausted with
them. -/
theorem Exhausted.of_cons {target current : String} {before after : List String}
    (h : Exhausted g target (current :: before) after) (htarget : current ≠ target)
    (hnexts : ∀ y, g.DependsOn current y → y ∈ after) : Exhausted g target before after where
  subset x hx := h.subset x (List.mem_cons_of_mem _ hx)
  not_target x hx hnew := by
    by_cases heq : x = current
    · exact heq ▸ htarget
    · exact h.not_target x hx (by simp [heq, hnew])
  closed x hx hnew y hy := by
    by_cases heq : x = current
    · exact hnexts y (heq ▸ hy)
    · exact h.closed x hx (by simp [heq, hnew]) y hy

/-- A search that may go deeper than there are metrics left to visit, and finds
no path, has seen all that `current` leads to. -/
theorem exhausted_of_search {target : String} {pool : List String}
    (hpool : ∀ a b, g.DependsOn a b → b ∈ pool) {depth : Nat} {visited : List String}
    {current : String} {after : List String} (hcurrent : current ∈ pool)
    (hdepth : (missing pool visited).length < depth)
    (h : g.search target depth visited current = (none, after)) :
    Exhausted g target visited after ∧ current ∈ after := by
  induction depth generalizing visited current after with
  | zero => exact absurd hdepth (Nat.not_lt_zero _)
  | succ depth ih =>
    have hall (nexts seen : List String) {after : List String} (hnexts : ∀ b ∈ nexts, b ∈ pool)
        (hlt : (missing pool seen).length < depth)
        (h : g.searchAll target depth seen nexts = (none, after)) :
        Exhausted g target seen after ∧ ∀ b ∈ nexts, b ∈ after := by
      induction nexts generalizing seen with
      | nil =>
        obtain rfl : seen = after := by simpa [searchAll] using h
        exact ⟨.refl target seen, by simp⟩
      | cons next rest ihn =>
        rw [searchAll] at h
        split at h
        · simp at h
        · rename_i seen' hnext
          obtain ⟨hex, hmem⟩ := ih (hnexts next List.mem_cons_self) hlt hnext
          obtain ⟨hex', hmem'⟩ := ihn seen'
            (fun b hb => hnexts b (List.mem_cons_of_mem _ hb))
            ((length_missing_le hex.subset).trans_lt hlt) h
          refine ⟨hex.trans hex', fun b hb => ?_⟩
          rcases List.mem_cons.1 hb with rfl | hb
          · exact hex'.subset b hmem
          · exact hmem' b hb
    rw [search_succ] at h
    split at h
    · simp at h
    rename_i htarget
    split at h
    · rename_i hseen
      obtain rfl : visited = after := by simpa using h
      exact ⟨.refl target visited, hseen⟩
    rename_i hseen
    simp only [Prod.mk.injEq, Option.map_eq_none_iff] at h
    have hless := length_missing_lt hcurrent hseen
      (List.mem_cons_self (a := current) (l := visited)) (List.subset_cons_self _ _)
    obtain ⟨hex, hmem⟩ := hall (g.dependencies current) (current :: visited)
      (fun b hb => hpool current b (mem_dependencies.1 hb)) (by omega) (Prod.ext h.1 h.2)
    exact ⟨hex.of_cons htarget fun y hy => hmem y (mem_dependencies.2 hy),
      hex.subset current List.mem_cons_self⟩

theorem path?_eq_none_iff {source target : String} :
    g.path? source target = none ↔ ¬ ReflTransGen g.DependsOn source target := by
  obtain ⟨found, after, h⟩ : ∃ found after,
    g.search target (2 * g.edges.length + 2) [] source = (found, after) := ⟨_, _, rfl⟩
  rw [path?, h]
  constructor
  · rintro rfl hchain
    have hpool : ∀ a b, g.DependsOn a b → b ∈ source :: g.edges.map (·.target) := fun a b hab =>
      List.mem_cons_of_mem _ (List.mem_map_of_mem (f := (·.target)) hab)
    obtain ⟨hex, hmem⟩ := exhausted_of_search hpool List.mem_cons_self (by
      refine (List.length_filter_le ..).trans_lt ?_
      rw [List.length_cons, List.length_map]
      omega) h
    have hafter : ∀ x, ReflTransGen g.DependsOn source x → x ∈ after := fun x hx => by
      induction hx with
      | refl => exact hmem
      | tail _ hbc ih => exact hex.closed _ ih (by simp) _ hbc
    exact hex.not_target target (hafter target hchain) (by simp) rfl
  · intro hchain
    cases found with
    | none => rfl
    | some path => exact absurd (chain_of_search h) hchain

/-- New dependencies of `id` close no cycle if none of them leads back to it. -/
theorem cycleThrough?_eq_none_iff {id : String} {dependencies : List String} :
    g.cycleThrough? id dependencies = none ↔
      ∀ d ∈ dependencies, ¬ ReflTransGen g.DependsOn d id := by
  rw [cycleThrough?, List.findSome?_eq_none_iff]
  refine forall₂_congr fun d _ => ?_
  split
  · rename_i heq
    rw [beq_iff_eq] at heq
    simp [heq, ReflTransGen.refl]
  · rw [Option.map_eq_none_iff, path?_eq_none_iff]

end DependencyGraph

end MetricLayer
