import Mathlib.Data.List.Chain
import MetricLayer.Proofs.Registry.Reachability

/-!
# Cycles that new dependencies close

A path that the search finds follows dependencies and visits no metric twice
(`simplePath_of_search`). A search that may go deeper than there are metrics
never goes as deep as it may (`searchDown_eq`), and what it finds does not depend
on the dependencies of its target (`search_congr`).

So `cycleThrough?` finds a cycle just where one of the new dependencies leads
back, and what it finds is a simple cycle through one of them; what the metric
depends on so far has no part in it (`cycleThrough?_exact`).
-/

namespace MetricLayer.DependencyGraph

open Relation (ReflTransGen TransGen)

/-- A path along dependencies that visits no metric twice. -/
structure SimplePath (g : DependencyGraph) (source target : String) (path : List String) :
    Prop where
  first : path.head? = some source
  last : path.getLast? = some target
  edges : path.IsChain g.DependsOn
  nodup : path.Nodup

/-- `cycle` leads from `id` over one of the metrics `dependencies` back to `id`. -/
structure ClosedBy (g : DependencyGraph) (id : String) (dependencies cycle : List String) :
    Prop where
  first : cycle.head? = some id
  last : cycle.getLast? = some id
  second : ∃ d ∈ dependencies, cycle.tail.head? = some d
  /-- From the second metric on, each depends on the next. -/
  edges : cycle.tail.IsChain g.DependsOn
  nodup : cycle.dropLast.Nodup

variable {g g' : DependencyGraph} {target : String} {depth : Nat} {visited : List String}

theorem SimplePath.of_self (g : DependencyGraph) (id : String) : SimplePath g id id [id] :=
  ⟨rfl, rfl, .singleton id, List.nodup_singleton id⟩

theorem SimplePath.cons {current next : String} {path : List String}
    (h : SimplePath g next target path) (hnext : g.DependsOn current next)
    (hnew : current ∉ path) : SimplePath g current target (current :: path) where
  first := rfl
  last := by rw [List.getLast?_cons, h.last, Option.getD_some]
  edges := h.edges.cons fun y hy => by
    rw [h.first, Option.mem_some_iff] at hy
    exact hy ▸ hnext
  nodup := List.nodup_cons.2 ⟨hnew, h.nodup⟩

/-- A simple path from a new dependency closes a cycle. -/
theorem SimplePath.closedBy {id d : String} {dependencies path : List String}
    (h : SimplePath g d id path) (hd : d ∈ dependencies) :
    ClosedBy g id dependencies (id :: path) where
  first := rfl
  last := by rw [List.getLast?_cons, h.last, Option.getD_some]
  second := ⟨d, hd, h.first⟩
  edges := h.edges
  nodup := by
    -- the path ends with `id`, so that `id` is nowhere else on it
    have hend : path.dropLast ++ [id] = path := List.dropLast_append_getLast? id h.last
    have hne : path ≠ [] := fun hnil => by simp [hnil] at hend
    rw [List.dropLast_cons_of_ne_nil hne]
    refine List.nodup_cons.2 ⟨fun hmem => ?_, h.nodup.sublist (List.dropLast_sublist path)⟩
    have hnodup := h.nodup
    rw [← hend] at hnodup
    exact (List.nodup_append.1 hnodup).2.2 id hmem id (List.mem_singleton_self id) rfl

/-! ## What a search leaves and finds -/

theorem subset_searchAll
    (h : ∀ visited next, visited ⊆ (g.search target depth visited next).2)
    (visited nexts : List String) : visited ⊆ (g.searchAll target depth visited nexts).2 := by
  induction nexts generalizing visited with
  | nil => exact List.Subset.refl _
  | cons next rest ih =>
    have hnext := h visited next
    rw [searchAll]
    rcases hsearch : g.search target depth visited next with ⟨_ | path, seen⟩
    · rw [hsearch] at hnext
      exact List.Subset.trans hnext (ih seen)
    · rwa [hsearch] at hnext

/-- What was visited stays visited. -/
theorem subset_search (g : DependencyGraph) (target : String) (depth : Nat)
    (visited : List String) (current : String) :
    visited ⊆ (g.search target depth visited current).2 := by
  induction depth generalizing visited current with
  | zero => exact List.Subset.refl _
  | succ depth ih =>
    rw [search_succ]
    split
    · exact List.Subset.refl _
    split
    · exact List.Subset.refl _
    · exact List.Subset.trans (List.subset_cons_self _ _) (subset_searchAll ih _ _)

/-- A path that is found is simple, and only its end may have been visited before. -/
theorem simplePath_of_search {current : String} {path after : List String}
    (h : g.search target depth visited current = (some path, after)) :
    SimplePath g current target path ∧ ∀ x ∈ path, x ≠ target → x ∉ visited := by
  induction depth generalizing visited current path after with
  | zero => simp [search] at h
  | succ depth ih =>
    have hall (nexts seen : List String) {path : List String}
        (h : (g.searchAll target depth seen nexts).1 = some path) :
        ∃ next ∈ nexts, SimplePath g next target path ∧ ∀ x ∈ path, x ≠ target → x ∉ seen := by
      induction nexts generalizing seen with
      | nil => simp [searchAll] at h
      | cons next rest ihn =>
        have hseen := subset_search g target depth seen next
        rw [searchAll] at h
        split at h
        · rename_i found _ hnext
          obtain rfl : found = path := Option.some.inj h
          exact ⟨next, List.mem_cons_self, ih hnext⟩
        · rename_i seen' hnext
          rw [hnext] at hseen
          obtain ⟨other, hmem, hpath, hnew⟩ := ihn seen' h
          exact ⟨other, List.mem_cons_of_mem _ hmem, hpath,
            fun x hx hne hx' => hnew x hx hne (hseen hx')⟩
    rw [search_succ] at h
    split at h
    · rename_i heq
      obtain ⟨rfl, -⟩ : [current] = path ∧ _ := by simpa using h
      subst heq
      exact ⟨.of_self g current, fun x hx hne => absurd (List.mem_singleton.1 hx) hne⟩
    rename_i htarget
    split at h
    · simp at h
    rename_i hvisited
    simp only [Prod.mk.injEq, Option.map_eq_some_iff] at h
    obtain ⟨⟨rest, hrest, rfl⟩, -⟩ := h
    obtain ⟨next, hnext, hpath, hnew⟩ := hall _ _ hrest
    have hcurrent : current ∉ rest := fun hmem => hnew current hmem htarget List.mem_cons_self
    refine ⟨hpath.cons (mem_dependencies.1 hnext) hcurrent, fun x hx hne hx' => ?_⟩
    rcases List.mem_cons.1 hx with rfl | hx
    · exact hvisited hx'
    · exact hnew x hx hne (List.mem_cons_of_mem _ hx')

/-! ## What a search depends on -/

/-- The searches from `nexts`, one after the other until one finds a path. -/
def searchEach (search : List String → String → Option (List String) × List String)
    (visited : List String) : List String → Option (List String) × List String
  | [] => (none, visited)
  | next :: rest =>
    match search visited next with
    | (some path, visited) => (some path, visited)
    | (none, visited) => searchEach search visited rest

/-- The search, with `deeper` in place of giving up where it may go no deeper. -/
def searchDown (g : DependencyGraph) (target : String)
    (deeper : List String → String → Option (List String) × List String) :
    (depth : Nat) → (visited : List String) → (current : String) →
      Option (List String) × List String
  | 0, visited, current => deeper visited current
  | depth + 1, visited, current =>
    if current = target then (some [current], visited)
    else if current ∈ visited then (none, visited)
    else
      let (found, visited) := searchEach (g.searchDown target deeper depth)
        (current :: visited) (g.dependencies current)
      (found.map (current :: ·), visited)

theorem searchAll_eq (g : DependencyGraph) (target : String) (depth : Nat)
    (visited nexts : List String) :
    g.searchAll target depth visited nexts = searchEach (g.search target depth) visited nexts := by
  induction nexts generalizing visited with
  | nil => rfl
  | cons next rest ih =>
    rw [searchAll, searchEach]
    rcases g.search target depth visited next with ⟨_ | path, seen⟩
    · exact ih seen
    · rfl

theorem searchDown_search (g : DependencyGraph) (target : String) (more depth : Nat) :
    g.searchDown target (g.search target more) depth = g.search target (more + depth) := by
  induction depth with
  | zero => rfl
  | succ depth ih =>
    funext visited current
    rw [searchDown, ih, ← Nat.add_assoc, search_succ, searchAll_eq]

/-- A search that may go deeper than there are metrics left to visit never goes as deep as
it may. -/
theorem searchDown_eq {pool : List String} (hpool : ∀ a b, g.DependsOn a b → b ∈ pool)
    {deeper : List String → String → Option (List String) × List String} {current : String}
    (hcurrent : current ∈ pool) (hdepth : (missing pool visited).length < depth) :
    g.searchDown target deeper depth visited current = g.search target depth visited current := by
  induction depth generalizing visited current with
  | zero => exact absurd hdepth (Nat.not_lt_zero _)
  | succ depth ih =>
    have hall (nexts seen : List String) (hnexts : ∀ b ∈ nexts, b ∈ pool)
        (hlt : (missing pool seen).length < depth) :
        searchEach (g.searchDown target deeper depth) seen nexts =
          searchEach (g.search target depth) seen nexts := by
      induction nexts generalizing seen with
      | nil => rfl
      | cons next rest ihn =>
        rw [List.forall_mem_cons] at hnexts
        have hseen := subset_search g target depth seen next
        rw [searchEach, searchEach, ih hnexts.1 hlt]
        rcases hsearch : g.search target depth seen next with ⟨_ | path, seen'⟩
        · rw [hsearch] at hseen
          exact ihn seen' hnexts.2 ((length_missing_le hseen).trans_lt hlt)
        · rfl
    rw [searchDown, search_succ]
    by_cases htarget : current = target
    · rw [if_pos htarget, if_pos htarget]
    by_cases hvisited : current ∈ visited
    · rw [if_neg htarget, if_neg htarget, if_pos hvisited, if_pos hvisited]
    have hless := length_missing_lt hcurrent hvisited
      (List.mem_cons_self (a := current) (l := visited)) (List.subset_cons_self _ _)
    rw [hall _ _ (fun b hb => hpool current b (mem_dependencies.1 hb)) (by omega), searchAll_eq]

theorem dependencies_congr {a : String} (h : ∀ b, g'.DependsOn a b ↔ g.DependsOn a b) :
    g'.dependencies a = g.dependencies a :=
  (pairwise_sortedSet _).eq_of_mem_iff (pairwise_sortedSet _) fun b => by
    have hmem : b ∈ g'.dependencies a ↔ b ∈ g.dependencies a := by
      rw [mem_dependencies, mem_dependencies, h]
    exact hmem

/-- A search stops at its target, whatever this depends on. -/
theorem search_congr (h : ∀ a, a ≠ target → g'.dependencies a = g.dependencies a) (depth : Nat)
    (visited : List String) (current : String) :
    g'.search target depth visited current = g.search target depth visited current := by
  induction depth generalizing visited current with
  | zero => rfl
  | succ depth ih =>
    have hall (seen nexts : List String) :
        g'.searchAll target depth seen nexts = g.searchAll target depth seen nexts := by
      induction nexts generalizing seen with
      | nil => rfl
      | cons next rest ihn =>
        rw [searchAll, searchAll, ih]
        rcases g.search target depth seen next with ⟨_ | path, seen'⟩
        · exact ihn seen'
        · rfl
    rw [search_succ, search_succ]
    by_cases htarget : current = target
    · rw [if_pos htarget, if_pos htarget]
    · rw [h current htarget, hall]

/-- The path that is found is the one that a search of any greater depth finds, whatever
it does where it may go no deeper. -/
theorem searchDown_eq_path? (g : DependencyGraph) (source target : String)
    (deeper : List String → String → Option (List String) × List String) {depth : Nat}
    (hdepth : 2 * g.edges.length + 2 ≤ depth) :
    (g.searchDown target deeper depth [] source).1 = g.path? source target := by
  have hpool : ∀ a b, g.DependsOn a b → b ∈ source :: g.edges.map (·.target) := fun a b hab =>
    List.mem_cons_of_mem _ (List.mem_map_of_mem (f := (·.target)) hab)
  have hlength : (missing (source :: g.edges.map (·.target)) []).length <
      2 * g.edges.length + 2 := by
    refine (List.length_filter_le ..).trans_lt ?_
    rw [List.length_cons, List.length_map]
    omega
  obtain ⟨more, rfl⟩ := Nat.exists_eq_add_of_le' hdepth
  rw [searchDown_eq hpool List.mem_cons_self (hlength.trans_le hdepth), ← searchDown_search,
    searchDown_eq hpool List.mem_cons_self hlength, path?]

theorem path?_congr (h : ∀ a, a ≠ target → g'.dependencies a = g.dependencies a)
    (source : String) : g'.path? source target = g.path? source target := by
  let depth := 2 * g.edges.length + 2 + 2 * g'.edges.length
  have hpath (g : DependencyGraph) (hdepth : 2 * g.edges.length + 2 ≤ depth) :
      g.path? source target = (g.search target depth [] source).1 := by
    rw [← searchDown_eq_path? g source target (g.search target 0) hdepth, searchDown_search,
      Nat.zero_add]
  rw [hpath g' (by omega), hpath g (by omega), search_congr h]

/-! ## Cycles -/

theorem closedBy_of_cycleThrough? {id : String} {dependencies cycle : List String}
    (h : g.cycleThrough? id dependencies = some cycle) : ClosedBy g id dependencies cycle := by
  obtain ⟨d, hd, h⟩ := List.exists_of_findSome?_eq_some h
  split at h
  · rename_i heq
    obtain rfl : d = id := beq_iff_eq.1 heq
    obtain rfl : [d, d] = cycle := Option.some.inj h
    exact (SimplePath.of_self g d).closedBy hd
  · obtain ⟨path, hpath, rfl⟩ := Option.map_eq_some_iff.1 h
    have hsearch : g.search id (2 * g.edges.length + 2) [] d =
        (some path, (g.search id (2 * g.edges.length + 2) [] d).2) := Prod.ext hpath rfl
    exact (simplePath_of_search hsearch).1.closedBy hd

theorem cycleThrough?_congr {id : String}
    (h : ∀ a, a ≠ id → g'.dependencies a = g.dependencies a) (dependencies : List String) :
    g'.cycleThrough? id dependencies = g.cycleThrough? id dependencies := by
  simp only [cycleThrough?, path?_congr h]

/-- **Cycle detection is exact.** New dependencies of `id` close a cycle if and only if one of
them is `id` or leads to it; the cycle that is found runs through one of them and visits no
metric twice; and what `id` depends on so far plays no part in it. -/
theorem cycleThrough?_exact (g : DependencyGraph) (id : String) (dependencies : List String) :
    ((g.cycleThrough? id dependencies).isSome ↔
      id ∈ dependencies ∨ ∃ d ∈ dependencies, TransGen g.DependsOn d id) ∧
    (∀ cycle, g.cycleThrough? id dependencies = some cycle →
      ClosedBy g id dependencies cycle) ∧
    ∀ g' : DependencyGraph, (∀ a b, a ≠ id → (g'.DependsOn a b ↔ g.DependsOn a b)) →
      g'.cycleThrough? id dependencies = g.cycleThrough? id dependencies := by
  refine ⟨?_, fun cycle => closedBy_of_cycleThrough?, fun g' h => ?_⟩
  · rw [← Option.ne_none_iff_isSome, ne_eq, cycleThrough?_eq_none_iff]
    simp only [not_forall, not_not, exists_prop, Relation.reflTransGen_iff_eq_or_transGen,
      and_or_left, exists_or, exists_eq_right']
  · exact cycleThrough?_congr (fun a ha => dependencies_congr fun b => h a b ha) dependencies

example :
    let g : DependencyGraph :=
      ⟨[⟨"ctr_ratio", "ctr", .calculated⟩, ⟨"ctr_delta", "ctr_ratio", .calculated⟩]⟩
    g.cycleThrough? "ctr" ["ctr_delta"] = some ["ctr", "ctr_delta", "ctr_ratio", "ctr"] ∧
      g.cycleThrough? "ctr_delta" ["ctr"] = none := by
  decide +kernel

end MetricLayer.DependencyGraph
