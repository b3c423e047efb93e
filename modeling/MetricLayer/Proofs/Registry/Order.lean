import Mathlib.Data.Fintype.Order
import Mathlib.Order.WellFounded
import MetricLayer.Proofs.Registry.Reachability

/-!
# Topological orders

Placing metrics one by one keeps account of what each metric still waits for
(`Settled`, `settled_release`), and among calculated metrics no count at zero is
ever decreased (`placing_orderFrom?`). So an order of a set of calculated metrics
is a permutation of the set in which every metric comes after those of the set
that it depends on (`perm_of_topologicalOrder`, `ordered_of_topologicalOrder`),
and there is one just where no dependencies inside the set run in a circle
(`exists_topologicalOrder_iff`).
-/

namespace MetricLayer

open Relation (ReflTransGen TransGen transGen_swap)

namespace DependencyGraph

/-! ## One metric less to wait for -/

/-- The number of dependencies inside `subset` that are not placed. -/
def waiting (g : DependencyGraph) (subset placed : List String) (id : String) : Nat :=
  ((g.dependencies id).filter fun d => subset.contains d && !placed.contains d).length

/-- The degrees that `count` gives to the metrics of `subset`. -/
def degreesBy (subset : List String) (count : String → Nat) : Degrees :=
  subset.map fun id => (id, count id)

variable {g : DependencyGraph} {subset placed : List String} {count : String → Nat}

theorem waiting_eq_zero_iff {id : String} :
    g.waiting subset placed id = 0 ↔ ∀ d ∈ subset, g.DependsOn id d → d ∈ placed := by
  simp only [waiting, List.length_eq_zero_iff, List.filter_eq_nil_iff, mem_dependencies,
    Bool.and_eq_true, Bool.not_eq_true', List.contains_eq_mem, decide_eq_true_eq,
    decide_eq_false_iff_not, not_and, not_not]
  exact ⟨fun h d hd hdep => h d hdep hd, fun h d hdep hd => h d hd hdep⟩

/-- A metric that is placed is one less to wait for. -/
theorem waiting_cons {id x : String} (hid : id ∈ subset) (hnew : id ∉ placed) :
    g.waiting subset placed x =
      g.waiting subset (id :: placed) x + if id ∈ g.dependencies x then 1 else 0 := by
  let unplaced := (g.dependencies x).filter fun d => subset.contains d && !placed.contains d
  have hnodup : unplaced.Nodup := (nodup_sortedSet _).filter _
  have herase : ((g.dependencies x).filter fun d =>
      subset.contains d && !(id :: placed).contains d) = unplaced.erase id := by
    rw [hnodup.erase_eq_filter, List.filter_filter]
    refine List.filter_congr fun d _ => ?_
    by_cases hd : d = id <;> simp [hd]
  have hmem : id ∈ unplaced ↔ id ∈ g.dependencies x := by
    simp [unplaced, List.mem_filter, hid, hnew]
  rw [waiting, waiting, herase, List.length_erase]
  change unplaced.length = _
  by_cases h : id ∈ unplaced
  · have := List.length_pos_of_mem h
    rw [if_pos h, if_pos (hmem.1 h)]
    omega
  · rw [if_neg h, if_neg fun h' => h (hmem.2 h')]
    rfl

theorem lookup_degreesBy (subset : List String) (count : String → Nat) (id : String) :
    (degreesBy subset count).lookup id = if id ∈ subset then some (count id) else none := by
  induction subset with
  | nil => rfl
  | cons x rest ih =>
    rw [degreesBy, List.map_cons, List.lookup_cons]
    by_cases h : id = x
    · simp [h]
    · have hne : (id == x) = false := by simpa using h
      simpa [hne, h, degreesBy] using ih

theorem setDegree_degreesBy {id : String} {degree : Nat} :
    setDegree (degreesBy subset count) id degree =
      degreesBy subset (Function.update count id degree) := by
  simp only [setDegree, degreesBy, List.map_map]
  refine List.map_congr_left fun x _ => ?_
  by_cases h : x = id
  · simp [h]
  · simp [h]

section Tell

variable {next : String} {nexts ready : List String}

theorem tell?_eq_none (h : next ∈ subset) (hzero : count next = 0) :
    tell? (degreesBy subset count, ready) next = none := by
  rw [tell?, lookup_degreesBy, if_pos h, hzero]

theorem tell?_eq_some (hpos : next ∈ subset → count next ≠ 0) :
    tell? (degreesBy subset count, ready) next =
      some (degreesBy subset (Function.update count next (count next - 1)),
        if next ∈ subset ∧ count next = 1 then insertSorted next ready else ready) := by
  rw [tell?, lookup_degreesBy]
  by_cases h : next ∈ subset
  · obtain ⟨degree, hdegree⟩ := Nat.exists_eq_succ_of_ne_zero (hpos h)
    rw [if_pos h, hdegree]
    simp [setDegree_degreesBy, h]
  · have hsame : degreesBy subset (Function.update count next (count next - 1)) =
        degreesBy subset count := by
      refine List.map_congr_left fun x hx => ?_
      have hne : x ≠ next := fun heq => h (heq ▸ hx)
      rw [Function.update_of_ne hne]
    rw [if_neg h, if_neg fun hone => h hone.1, hsame]

/-- Metrics cannot be told, one after the other, if one of them is at zero. -/
theorem foldlM_tell?_eq_none {x : String} (hx : x ∈ nexts) (hsub : x ∈ subset)
    (hzero : count x = 0) : nexts.foldlM tell? (degreesBy subset count, ready) = none := by
  induction nexts generalizing count ready with
  | nil => cases hx
  | cons next rest ih =>
    rw [List.foldlM_cons]
    by_cases hstop : next ∈ subset ∧ count next = 0
    · rw [tell?_eq_none hstop.1 hstop.2]
      rfl
    · have hne : x ≠ next := fun heq => hstop (heq ▸ ⟨hsub, hzero⟩)
      rw [tell?_eq_some fun hmem heq => hstop ⟨hmem, heq⟩]
      exact ih ((List.mem_cons.1 hx).resolve_left hne) (by rw [Function.update_of_ne hne, hzero])

/-- Telling the metrics `nexts`, one after the other, that there is one less to
wait for. -/
theorem exists_foldlM_tell? (hnodup : nexts.Nodup) (hready : ready.Pairwise (· < ·))
    (hpos : ∀ x ∈ nexts, x ∈ subset → count x ≠ 0) :
    ∃ ready', nexts.foldlM tell? (degreesBy subset count, ready) =
        some (degreesBy subset fun x => if x ∈ nexts then count x - 1 else count x, ready') ∧
      ready'.Pairwise (· < ·) ∧
      ∀ x, x ∈ ready' ↔ x ∈ ready ∨ x ∈ nexts ∧ x ∈ subset ∧ count x = 1 := by
  induction nexts generalizing count ready with
  | nil => exact ⟨ready, by simp, hready, by simp⟩
  | cons next rest ih =>
    rw [List.nodup_cons] at hnodup
    rw [List.forall_mem_cons] at hpos
    have hsorted : (if next ∈ subset ∧ count next = 1 then insertSorted next ready
        else ready).Pairwise (· < ·) := by
      split
      · exact pairwise_insertSorted hready
      · exact hready
    -- the others are not `next`, so they are as far from zero as before
    have hrest : ∀ x ∈ rest, x ∈ subset →
        Function.update count next (count next - 1) x ≠ 0 := fun x hx hsub => by
      have hne : x ≠ next := fun heq => hnodup.1 (heq ▸ hx)
      rw [Function.update_of_ne hne]
      exact hpos.2 x hx hsub
    obtain ⟨ready', hfold, hready', hmem⟩ := ih hnodup.2 hsorted hrest
    refine ⟨ready', ?_, hready', fun x => ?_⟩
    · rw [List.foldlM_cons, tell?_eq_some hpos.1, Option.bind_eq_bind, Option.bind_some, hfold]
      congr 3
      funext x
      by_cases heq : x = next
      · simp [heq, hnodup.1]
      · simp [heq]
    · rw [hmem]
      by_cases heq : x = next
      · subst heq
        split <;> simp_all
      · split <;> simp [heq]

end Tell

/-! ## The state of an order under way -/

/-- The metrics of `subset` wait for so many others, those that wait for none are
ready, and `placed` are the metrics placed so far. -/
structure Counted (subset placed : List String) (count : String → Nat) (degrees : Degrees)
    (ready : List String) : Prop where
  degrees_eq : degrees = degreesBy subset count
  sorted : ready.Pairwise (· < ·)
  mem_ready : ∀ x, x ∈ ready ↔ x ∈ subset ∧ x ∉ placed ∧ count x = 0
  placed_zero : ∀ x ∈ placed, x ∈ subset → count x = 0

/-- A metric cannot be placed if one that refers to it is at zero. -/
theorem Counted.release?_eq_none {degrees : Degrees} {id x : String} {ready rest : List String}
    (h : Counted subset placed count degrees ready) (hx : x ∈ g.dependents id)
    (hsub : x ∈ subset) (hzero : count x = 0) : g.release? degrees rest id = none := by
  rw [release?, h.degrees_eq]
  exact foldlM_tell?_eq_none hx hsub hzero

/-- Placing the first of the ready metrics counts those down that refer to it, as
long as none of them is at zero. -/
theorem counted_release {degrees : Degrees} {id : String} {ready : List String}
    (h : Counted subset placed count degrees (id :: ready))
    (hpos : ∀ x ∈ g.dependents id, x ∈ subset → count x ≠ 0) :
    ∃ degrees' ready', g.release? degrees ready id = some (degrees', ready') ∧
      Counted subset (id :: placed)
        (fun x => if x ∈ g.dependents id then count x - 1 else count x) degrees' ready' := by
  obtain ⟨hid, -, hzero⟩ := (h.mem_ready id).1 List.mem_cons_self
  have hself : id ∉ g.dependents id := fun hdep => hpos id hdep hid hzero
  have hsorted := List.pairwise_cons.1 h.sorted
  have hnodup : (g.dependents id).Nodup := nodup_sortedSet _
  obtain ⟨ready', hfold, hready', hmem⟩ := exists_foldlM_tell? hnodup hsorted.2 hpos
  refine ⟨_, ready', by rw [release?, h.degrees_eq, hfold], rfl, hready', fun x => ?_,
    fun x hx hsub => ?_⟩
  · rw [hmem x]
    by_cases hsub : x ∈ subset
    · by_cases hx : x ∈ g.dependents id
      · have hone := hpos x hx hsub
        have hne : x ≠ id := fun heq => hself (heq ▸ hx)
        have hplaced : x ∉ placed := fun hp => hone (h.placed_zero x hp hsub)
        have hready : x ∉ ready := fun hr =>
          hone ((h.mem_ready x).1 (List.mem_cons_of_mem _ hr)).2.2
        have hless : count x = 1 ↔ count x - 1 = 0 := by omega
        simp [hx, hne, hplaced, hready, hsub, hless]
      · have hold := h.mem_ready x
        by_cases hne : x = id
        · subst hne
          have : x ∉ ready := fun hr => irrefl_of (· < ·) x (hsorted.1 x hr)
          simp [hx, this]
        · simpa [hx, hne] using hold
    · have hready : x ∉ ready := fun hr =>
        hsub ((h.mem_ready x).1 (List.mem_cons_of_mem _ hr)).1
      simp [hsub, hready]
  · rcases List.mem_cons.1 hx with rfl | hx
    · rw [if_neg hself, hzero]
    · rw [if_neg fun hdep => hpos x hdep hsub (h.placed_zero x hx hsub),
        h.placed_zero x hx hsub]

/-- The degrees and the ready metrics are what they should be when `placed` are
the metrics placed so far. -/
structure Settled (g : DependencyGraph) (subset placed : List String) (degrees : Degrees)
    (ready : List String) : Prop where
  degrees_eq : degrees = degreesBy subset (g.waiting subset placed)
  sorted : ready.Pairwise (· < ·)
  mem_ready : ∀ x, x ∈ ready ↔ x ∈ subset ∧ x ∉ placed ∧ g.waiting subset placed x = 0
  placed_zero : ∀ x ∈ placed, g.waiting subset placed x = 0

theorem settled_start (hsorted : subset.Pairwise (· < ·)) :
    Settled g subset [] (g.degreesIn subset)
      (((g.degreesIn subset).filter (·.2 == 0)).map (·.1)) := by
  have hdegrees : g.degreesIn subset = degreesBy subset (g.waiting subset []) := by
    refine List.map_congr_left fun x _ => ?_
    rw [waiting]
    congr 3
    funext d
    simp
  have hready : ((g.degreesIn subset).filter (·.2 == 0)).map (·.1) =
      subset.filter fun x => g.waiting subset [] x == 0 := by
    rw [hdegrees, degreesBy, List.filter_map, List.map_map]
    exact List.map_id' _
  refine ⟨hdegrees, ?_, fun x => ?_, by simp⟩
  · exact hready ▸ hsorted.filter _
  · rw [hready]
    simp

theorem Settled.counted {degrees : Degrees} {ready : List String}
    (h : Settled g subset placed degrees ready) :
    Counted subset placed (g.waiting subset placed) degrees ready :=
  ⟨h.degrees_eq, h.sorted, h.mem_ready, fun x hx _ => h.placed_zero x hx⟩

/-- Placing the first of the ready metrics leaves everything as it should be. -/
theorem settled_release {degrees : Degrees} {id : String} {ready : List String}
    (h : Settled g subset placed degrees (id :: ready))
    (hkind : ∀ x, g.Refers x id → g.DependsOn x id) :
    ∃ degrees' ready', g.release? degrees ready id = some (degrees', ready') ∧
      Settled g subset (id :: placed) degrees' ready' := by
  obtain ⟨hid, hnew, hzero⟩ := (h.mem_ready id).1 List.mem_cons_self
  have hdep (x : String) : x ∈ g.dependents id ↔ id ∈ g.dependencies x := by
    rw [mem_dependents, mem_dependencies]
    exact ⟨hkind x, DependsOn.refers⟩
  have hpos {x : String} (hx : x ∈ g.dependents id) : g.waiting subset placed x ≠ 0 := by
    rw [waiting_cons hid hnew, if_pos ((hdep x).1 hx)]
    omega
  -- what waits for the metric has one less to wait for, and nothing else has
  have hless (x : String) : (if x ∈ g.dependents id then g.waiting subset placed x - 1
      else g.waiting subset placed x) = g.waiting subset (id :: placed) x := by
    have hcount := waiting_cons (g := g) (x := x) hid hnew
    by_cases hx : x ∈ g.dependents id
    · rw [if_pos ((hdep x).1 hx)] at hcount
      rw [if_pos hx]
      omega
    · rw [if_neg fun h => hx ((hdep x).2 h)] at hcount
      rw [if_neg hx]
      exact hcount
  obtain ⟨degrees', ready', hrelease, hdegrees, hsorted, hready, -⟩ :=
    counted_release (g := g) h.counted fun x hx _ => hpos hx
  refine ⟨degrees', ready', hrelease, hdegrees.trans (congrArg (degreesBy subset) (funext hless)),
    hsorted, fun x => ?_, fun x hx => ?_⟩
  · rw [hready x, hless x]
  · rw [waiting_eq_zero_iff]
    intro d hd hdd
    rcases List.mem_cons.1 hx with rfl | hx
    · exact List.mem_cons_of_mem _ (waiting_eq_zero_iff.1 hzero d hd hdd)
    · exact List.mem_cons_of_mem _ (waiting_eq_zero_iff.1 (h.placed_zero x hx) d hd hdd)

/-- Each of the listed metrics comes after those of `subset` that it depends on,
`placed` being there from the start. -/
def Ordered (g : DependencyGraph) (subset : List String) : List String → List String → Prop
  | _, [] => True
  | placed, id :: rest =>
    (∀ d ∈ subset, g.DependsOn id d → d ∈ placed) ∧ Ordered g subset (id :: placed) rest

/-- What is listed depends only on what stands before it or was placed from the start. -/
theorem Ordered.mem_before {before after : List String} {x d : String}
    (h : Ordered g subset placed (before ++ x :: after)) (hd : d ∈ subset) (hx : g.DependsOn x d) :
    d ∈ before ∨ d ∈ placed := by
  induction before generalizing placed with
  | nil => exact .inr (h.1 d hd hx)
  | cons id before ih =>
    rcases ih h.2 with hmem | hmem
    · exact .inl (List.mem_cons_of_mem _ hmem)
    · rcases List.mem_cons.1 hmem with rfl | hmem
      · exact .inl List.mem_cons_self
      · exact .inr hmem

/-- What an order under way comes to. -/
structure Placing (g : DependencyGraph) (subset placed order : List String) (degrees : Degrees)
    (steps : Nat) : Prop where
  nodup : order.Nodup
  new : ∀ x ∈ order, x ∈ subset ∧ x ∉ placed
  ordered : Ordered g subset placed order
  length_le : order.length ≤ steps
  /-- At the end each metric waits for what has not been placed. -/
  degrees_eq : degrees = degreesBy subset (g.waiting subset (order.reverse ++ placed))
  /-- It stops early only when every metric that is left waits for another. -/
  stuck : order.length < steps → ∀ x ∈ subset, x ∉ placed → x ∉ order →
    ∃ d ∈ subset, g.DependsOn x d ∧ d ∉ placed ∧ d ∉ order

theorem orderFrom?_of_release? {degrees degrees' : Degrees} {id : String}
    {ready ready' : List String} (h : g.release? degrees ready id = some (degrees', ready'))
    (steps : Nat) : g.orderFrom? (steps + 1) degrees (id :: ready) =
      (g.orderFrom? steps degrees' ready').map fun (order, left) => (id :: order, left) := by
  rw [orderFrom?, h, Option.map_eq_bind]
  rfl

theorem placing_orderFrom? (hkind : ∀ id ∈ subset, ∀ x, g.Refers x id → g.DependsOn x id)
    (steps : Nat) {degrees : Degrees} {ready : List String}
    (h : Settled g subset placed degrees ready) :
    ∃ order left, g.orderFrom? steps degrees ready = some (order, left) ∧
      Placing g subset placed order left steps := by
  induction steps generalizing placed degrees ready with
  | zero =>
    exact ⟨[], degrees, rfl, .nil, by simp, trivial, Nat.le_refl _, h.degrees_eq, by simp⟩
  | succ steps ih =>
    cases ready with
    | nil =>
      refine ⟨[], degrees, rfl, .nil, by simp, trivial, Nat.zero_le _, h.degrees_eq,
        fun _ x hx hplaced _ => ?_⟩
      have hzero : g.waiting subset placed x ≠ 0 := fun hz => by
        simpa using (h.mem_ready x).2 ⟨hx, hplaced, hz⟩
      rw [ne_eq, waiting_eq_zero_iff] at hzero
      simp only [not_forall] at hzero
      obtain ⟨d, hd, hdep, hd'⟩ := hzero
      exact ⟨d, hd, hdep, hd', List.not_mem_nil⟩
    | cons id ready =>
      obtain ⟨hid, hnew, hzero⟩ := (h.mem_ready id).1 List.mem_cons_self
      obtain ⟨degrees', ready', hrelease, hsettled⟩ := settled_release h (hkind id hid)
      obtain ⟨order, left, hrun, hp⟩ := ih hsettled
      refine ⟨id :: order, left, by rw [orderFrom?_of_release? hrelease, hrun]; rfl, ?_,
        fun x hx => ?_, ⟨waiting_eq_zero_iff.1 hzero, hp.ordered⟩, ?_, ?_, ?_⟩
      · exact List.nodup_cons.2 ⟨fun hmem => (hp.new id hmem).2 List.mem_cons_self, hp.nodup⟩
      · rcases List.mem_cons.1 hx with rfl | hx
        · exact ⟨hid, hnew⟩
        · exact ⟨(hp.new x hx).1, fun hplaced => (hp.new x hx).2 (List.mem_cons_of_mem _ hplaced)⟩
      · exact Nat.succ_le_succ hp.length_le
      · rw [List.reverse_cons, List.append_assoc]
        exact hp.degrees_eq
      · intro hlt x hx hplaced hxo
        rw [List.mem_cons, not_or] at hxo
        obtain ⟨d, hd, hdep, hdp, hdo⟩ := hp.stuck (Nat.lt_of_succ_lt_succ hlt) x hx
          (by simp [hxo.1, hplaced]) hxo.2
        rw [List.mem_cons, not_or] at hdp
        exact ⟨d, hd, hdep, hdp.2, by simp [hdp.1, hdo]⟩

/-- A dependency between metrics of `subset`. -/
def DependsOnIn (g : DependencyGraph) (subset : List String) (a b : String) : Prop :=
  a ∈ subset ∧ b ∈ subset ∧ g.DependsOn a b

/-- What is ordered leads back along dependencies for so many steps only. -/
theorem acc_of_ordered {order : List String} (h : Ordered g subset placed order)
    (hplaced : ∀ x ∈ placed, Acc (fun b a => g.DependsOnIn subset a b) x) :
    ∀ x ∈ order, Acc (fun b a => g.DependsOnIn subset a b) x := by
  induction order generalizing placed with
  | nil => simp
  | cons id rest ih =>
    have hid : Acc (fun b a => g.DependsOnIn subset a b) id :=
      .intro id fun d hd => hplaced d (h.1 d hd.2.1 hd.2.2)
    intro x hx
    rcases List.mem_cons.1 hx with rfl | hx
    · exact hid
    · refine ih h.2 (fun y hy => ?_) x hx
      rcases List.mem_cons.1 hy with rfl | hy
      · exact hid
      · exact hplaced y hy

/-! ## Whole orders -/

theorem topologicalOrder_eq_ok_iff {order : List String} :
    g.topologicalOrder subset = .ok order ↔
      (∃ left, g.orderAll? subset = some (order, left)) ∧ order.length = subset.length := by
  rw [topologicalOrder]
  constructor
  · intro h
    split at h <;> [cases h; skip]
    split at h <;> [skip; cases h]
    obtain rfl := Except.ok.inj h
    exact ⟨⟨_, ‹_›⟩, ‹_›⟩
  · rintro ⟨⟨left, hrun⟩, hlen⟩
    rw [hrun]
    exact if_pos hlen

/-! ## Orders of sets of calculated metrics -/

section Topological

variable (hsorted : subset.Pairwise (· < ·))
  (hkind : ∀ id ∈ subset, ∀ x, g.Refers x id → g.DependsOn x id)
include hsorted hkind

/-- The run over a set of calculated metrics gets through. It answers what it has placed if
that is the whole set, and else reports what it has left waiting. -/
theorem exists_placing : ∃ order left, Placing g subset [] order left subset.length ∧
    g.topologicalOrder subset = if order.length = subset.length then .ok order
      else .error (.circularDependency ((left.filter (·.2 != 0)).map (·.1))) := by
  obtain ⟨order, left, hrun, hp⟩ :=
    placing_orderFrom? hkind subset.length (settled_start hsorted)
  have hall : g.orderAll? subset = some (order, left) := hrun
  exact ⟨order, left, hp, by rw [topologicalOrder, hall]⟩

theorem placing_of_topologicalOrder {order : List String}
    (h : g.topologicalOrder subset = .ok order) :
    ∃ left, Placing g subset [] order left subset.length ∧ order.length = subset.length := by
  obtain ⟨order', left, hp, heq⟩ := exists_placing hsorted hkind
  rw [heq] at h
  split at h <;> [skip; cases h]
  obtain rfl := Except.ok.inj h
  exact ⟨left, hp, ‹_›⟩

theorem perm_of_topologicalOrder {order : List String}
    (h : g.topologicalOrder subset = .ok order) : order.Perm subset := by
  obtain ⟨_, hp, hlen⟩ := placing_of_topologicalOrder hsorted hkind h
  exact (List.subperm_of_subset hp.nodup fun x hx => (hp.new x hx).1).perm_of_length_le hlen.ge

theorem ordered_of_topologicalOrder {order : List String}
    (h : g.topologicalOrder subset = .ok order) : Ordered g subset [] order := by
  obtain ⟨_, hp, -⟩ := placing_of_topologicalOrder hsorted hkind h
  exact hp.ordered

/-- There is an order just where no dependencies inside the set run in a circle. -/
theorem exists_topologicalOrder_iff : (∃ order, g.topologicalOrder subset = .ok order) ↔
    ∀ x, ¬ TransGen (g.DependsOnIn subset) x x := by
  constructor
  · rintro ⟨order, horder⟩ x hcycle
    obtain ⟨y, hxy, -⟩ := TransGen.head'_iff.1 hcycle
    have hx : x ∈ order := (perm_of_topologicalOrder hsorted hkind horder).mem_iff.2 hxy.1
    have hacc := acc_of_ordered (ordered_of_topologicalOrder hsorted hkind horder) (by simp) x hx
    exact not_acc_iff_exists_descending_chain.2
      ⟨fun _ => x, rfl, fun _ => transGen_swap.2 hcycle⟩ hacc.transGen
  · intro hacyclic
    obtain ⟨order, left, hp, heq⟩ := exists_placing hsorted hkind
    by_cases hlen : order.length = subset.length
    · exact ⟨order, by rw [heq, if_pos hlen]⟩
    · exfalso
      -- a metric left over that waits only for metrics not left over
      obtain ⟨x, hx, hxo⟩ : ∃ x ∈ subset, x ∉ order := by
        by_contra hall
        simp only [not_exists, not_and, not_not] at hall
        exact hlen (Nat.le_antisymm hp.length_le
          (List.subperm_of_subset (nodup_of_pairwise_lt hsorted) hall).length_le)
      let Left := {x : String // x ∈ subset ∧ x ∉ order}
      have : Finite Left := (subset.finite_toSet.subset fun x hx => hx.1 : Set.Finite {x : String |
        x ∈ subset ∧ x ∉ order}).to_subtype
      let below (a b : Left) : Prop := TransGen (g.DependsOnIn subset) b.1 a.1
      have : IsTrans Left below := ⟨fun _ _ _ hab hbc => hbc.trans hab⟩
      have : Std.Irrefl below := ⟨fun a h => hacyclic a.1 h⟩
      obtain ⟨⟨m, hm, hmo⟩, -, hmin⟩ := (Finite.wellFounded_of_trans_of_irrefl below).has_min
        Set.univ ⟨⟨x, hx, hxo⟩, trivial⟩
      obtain ⟨d, hd, hdep, -, hdo⟩ :=
        hp.stuck (lt_of_le_of_ne hp.length_le hlen) m hm (by simp) hmo
      exact hmin ⟨d, hd, hdo⟩ trivial (.single ⟨hm, hd, hdep⟩)

/-- A graph without cycles has an order for every set. -/
theorem topologicalOrder_of_acyclic (hacyclic : g.Acyclic) :
    ∃ order, g.topologicalOrder subset = .ok order :=
  (exists_topologicalOrder_iff hsorted hkind).2 fun x hcycle =>
    hacyclic x (TransGen.mono (fun _ _ h => h.2.2) _ _ hcycle)

end Topological

end DependencyGraph

end MetricLayer
