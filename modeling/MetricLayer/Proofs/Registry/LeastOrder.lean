import Mathlib.Data.Fintype.Pigeonhole
import MetricLayer.Proofs.Registry.Agreement
import MetricLayer.Proofs.Registry.Order

/-!
# The least order of a set of metrics

Of the metrics that wait for nothing the least is placed first. So among the
orders of a set in which every metric comes after those of the set that it
depends on (`OrderOf`), the one that is answered comes first in the dictionary
(`least_orderFrom?`).

Where there is no order, what is left waiting at the end is what dependencies
lead back from without end (`exists_of_topologicalOrder_error`), which in a
finite set is what lies on a circle or leads to one (`not_acc_iff`).
-/

namespace MetricLayer.DependencyGraph

open Relation (ReflTransGen TransGen transGen_swap)

/-- `order` lists each metric of `subset` once, after all of `subset` that it depends on. -/
structure OrderOf (g : DependencyGraph) (subset order : List String) : Prop where
  perm : order.Perm subset
  after : ∀ before id rest, order = before ++ id :: rest →
    ∀ d ∈ subset, g.DependsOn id d → d ∈ before

variable {g : DependencyGraph} {subset placed : List String}

/-- What comes after its dependencies can be placed one by one. -/
theorem ordered_of_after {order : List String}
    (h : ∀ before id rest, order = before ++ id :: rest →
      ∀ d ∈ subset, g.DependsOn id d → d ∈ before ∨ d ∈ placed) :
    Ordered g subset placed order := by
  induction order generalizing placed with
  | nil => trivial
  | cons x rest ih =>
    refine ⟨fun d hd hdep => ?_, ih fun before id after heq d hd hdep => ?_⟩
    · exact (h [] x rest rfl d hd hdep).resolve_left List.not_mem_nil
    · rcases h (x :: before) id after (congrArg (x :: ·) heq) d hd hdep with hmem | hmem
      · rcases List.mem_cons.1 hmem with rfl | hmem
        · exact .inr List.mem_cons_self
        · exact .inl hmem
      · exact .inr (List.mem_cons_of_mem _ hmem)

theorem OrderOf.ordered {order : List String} (h : OrderOf g subset order) :
    Ordered g subset [] order :=
  ordered_of_after fun before id rest heq d hd hdep => .inl (h.after before id rest heq d hd hdep)

/-! ## The least order -/

/-- No order of the same metrics comes before the one that places the least metric
that is ready. -/
theorem least_orderFrom? (hkind : ∀ id ∈ subset, ∀ x, g.Refers x id → g.DependsOn x id)
    (steps : Nat) {degrees left : Degrees} {ready order other : List String}
    (h : Settled g subset placed degrees ready) (hother : Ordered g subset placed other)
    (hrun : g.orderFrom? steps degrees ready = some (order, left)) (hperm : other.Perm order) :
    other = order ∨ List.Lex (· < ·) order other := by
  induction steps generalizing placed degrees ready order other with
  | zero =>
    cases hrun
    exact .inl (List.perm_nil.1 hperm)
  | succ steps ih =>
    cases ready with
    | nil =>
      cases hrun
      exact .inl (List.perm_nil.1 hperm)
    | cons id ready =>
      obtain ⟨order', left', hrun', hplacing⟩ := placing_orderFrom? hkind (steps + 1) h
      obtain ⟨rfl, rfl⟩ := Prod.mk.inj (Option.some.inj (hrun'.symm.trans hrun))
      obtain ⟨hid, -, -⟩ := (h.mem_ready id).1 List.mem_cons_self
      obtain ⟨degrees', ready', hrelease, hsettled⟩ := settled_release h (hkind id hid)
      rw [orderFrom?_of_release? hrelease] at hrun
      obtain ⟨⟨rest', left'⟩, hrest, heq⟩ := Option.map_eq_some_iff.1 hrun
      obtain ⟨rfl, rfl⟩ := Prod.mk.inj heq
      obtain ⟨x, rest, rfl⟩ : ∃ x rest, other = x :: rest :=
        List.exists_cons_of_ne_nil fun hnil => by simp [hnil] at hperm
      -- the first of the other order waits for nothing either
      have hx : x ∈ id :: ready := by
        obtain ⟨hmem, hnew⟩ := hplacing.new x (hperm.mem_iff.1 List.mem_cons_self)
        exact (h.mem_ready x).2 ⟨hmem, hnew, waiting_eq_zero_iff.2 hother.1⟩
      rcases List.mem_cons.1 hx with rfl | hx
      · exact (ih hsettled hother.2 hrest (List.Perm.cons_inv hperm)).imp
          (congrArg (x :: ·)) .cons
      · exact .inr (.rel ((List.pairwise_cons.1 h.sorted).1 x hx))

/-! ## What is left waiting -/

/-- In a finite set dependencies go on without end just where they come to a circle. -/
theorem not_acc_iff {x : String} :
    ¬ Acc (fun b a => g.DependsOnIn subset a b) x ↔
      ∃ y, ReflTransGen (g.DependsOnIn subset) x y ∧ TransGen (g.DependsOnIn subset) y y := by
  constructor
  · intro h
    obtain ⟨chain, rfl, hchain⟩ := not_acc_iff_exists_descending_chain.1 h
    have hreach (n k : Nat) : ReflTransGen (g.DependsOnIn subset) (chain n) (chain (n + k)) := by
      induction k with
      | zero => exact .refl
      | succ k ih => exact ih.tail (hchain (n + k))
    -- two places of the chain are the same metric
    let member (n : Nat) : {y : String // y ∈ subset} := ⟨chain n, (hchain n).1⟩
    have : Finite {y : String // y ∈ subset} := subset.finite_toSet.to_subtype
    obtain ⟨n, m, hne, heq⟩ := Finite.exists_ne_map_eq_of_infinite member
    have heq : chain n = chain m := congrArg Subtype.val heq
    have hcycle {n m : Nat} (hlt : n < m) (heq : chain n = chain m) :
        TransGen (g.DependsOnIn subset) (chain n) (chain n) := by
      obtain ⟨k, rfl⟩ := Nat.exists_eq_add_of_lt hlt
      have hlast := TransGen.tail' (hreach n k) (hchain (n + k))
      rwa [← heq] at hlast
    rcases Nat.lt_or_gt_of_ne hne with hlt | hlt
    · exact ⟨chain n, Nat.zero_add n ▸ hreach 0 n, hcycle hlt heq⟩
    · exact ⟨chain m, Nat.zero_add m ▸ hreach 0 m, hcycle hlt heq.symm⟩
  · rintro ⟨y, hxy, hcycle⟩ hacc
    have hall {z : String} (hxz : ReflTransGen (g.DependsOnIn subset) x z) :
        Acc (fun b a => g.DependsOnIn subset a b) z := by
      induction hxz with
      | refl => exact hacc
      | tail _ hbc ih => exact ih.inv hbc
    exact not_acc_iff_exists_descending_chain.2
      ⟨fun _ => y, rfl, fun _ => transGen_swap.2 hcycle⟩ (hall hxy).transGen

/-- An order that stops early has placed what dependencies lead back from for so many
steps only. -/
theorem Placing.mem_of_acc {order : List String} {degrees : Degrees} {steps : Nat} {x : String}
    (h : Placing g subset [] order degrees steps) (hshort : order.length < steps)
    (hx : Acc (fun b a => g.DependsOnIn subset a b) x) (hmem : x ∈ subset) : x ∈ order := by
  induction hx with
  | intro x _ ih =>
    by_contra hleft
    obtain ⟨d, hd, hdep, -, hd'⟩ := h.stuck hshort x hmem List.not_mem_nil hleft
    exact hd' (ih d ⟨hmem, hd, hdep⟩ hd)

section Topological

variable (hsorted : subset.Pairwise (· < ·))
  (hkind : ∀ id ∈ subset, ∀ x, g.Refers x id → g.DependsOn x id)
include hsorted hkind

theorem orderOf_topologicalOrder {order : List String}
    (h : g.topologicalOrder subset = .ok order) : OrderOf g subset order where
  perm := perm_of_topologicalOrder hsorted hkind h
  after before id rest heq d hd hdep := by
    have hordered := ordered_of_topologicalOrder hsorted hkind h
    rw [heq] at hordered
    exact (hordered.mem_before hd hdep).resolve_right List.not_mem_nil

theorem least_topologicalOrder {order other : List String}
    (h : g.topologicalOrder subset = .ok order) (hother : OrderOf g subset other) :
    other = order ∨ List.Lex (· < ·) order other := by
  have hperm := hother.perm.trans (perm_of_topologicalOrder hsorted hkind h).symm
  obtain ⟨⟨_, hrun⟩, -⟩ := topologicalOrder_eq_ok_iff.1 h
  exact least_orderFrom? hkind _ (settled_start hsorted) hother.ordered hrun hperm

/-- Where there is no order, the error names what is left waiting: all from which
dependencies inside the set go on without end. -/
theorem exists_of_topologicalOrder_error {e : Error} (h : g.topologicalOrder subset = .error e) :
    ∃ ids, e = .circularDependency ids ∧ ids.Pairwise (· < ·) ∧
      ∀ x, x ∈ ids ↔ ¬ Acc (fun b a => g.DependsOnIn subset a b) x := by
  obtain ⟨order, left, hp, heq⟩ := exists_placing hsorted hkind
  rw [heq] at h
  split at h <;> [cases h; skip]
  rename_i hlen
  obtain rfl := Except.error.inj h
  have hshort : order.length < subset.length := lt_of_le_of_ne hp.length_le hlen
  have hids : (left.filter (·.2 != 0)).map (·.1) =
      subset.filter fun x => g.waiting subset (order.reverse ++ []) x != 0 := by
    rw [hp.degrees_eq, degreesBy, List.filter_map, List.map_map]
    exact List.map_id' _
  refine ⟨_, rfl, hids ▸ hsorted.filter _, fun x => ?_⟩
  rw [hids, List.append_nil, List.mem_filter, bne_iff_ne, ne_eq, waiting_eq_zero_iff]
  constructor
  · rintro ⟨hx, hwaits⟩ hacc
    simp only [not_forall] at hwaits
    obtain ⟨d, hd, hdep, hnew⟩ := hwaits
    exact hnew (List.mem_reverse.2 (hp.mem_of_acc hshort (hacc.inv ⟨hx, hd, hdep⟩) hd))
  · intro hx
    have hmem : x ∈ subset := by
      by_contra hnot
      exact hx (.intro x fun d hd => absurd hd.1 hnot)
    refine ⟨hmem, fun hall => hx (.intro x fun d hd => ?_)⟩
    exact acc_of_ordered hp.ordered (by simp) d (List.mem_reverse.1 (hall d hd.2.1 hd.2.2))

end Topological

/-- **Topological orders are exact and canonical.** A set of calculated metrics has an order if
and only if no dependencies inside it run in a circle; the order that is answered is the first
one in the dictionary; and where there is none, the error names just the metrics that lie on a
circle inside the set or lead to one through it. -/
theorem topologicalOrder_canonical (r : Registry) {subset : List String}
    (sorted : subset.Pairwise (· < ·))
    (calculated : ∀ id ∈ subset, (r.calculatedMetric? id).isSome) :
    ((∃ order, (ofRegistry r).topologicalOrder subset = .ok order) ↔
      ∀ x, ¬ TransGen ((ofRegistry r).DependsOnIn subset) x x) ∧
    (∀ order, (ofRegistry r).topologicalOrder subset = .ok order →
      OrderOf (ofRegistry r) subset order ∧
        ∀ other, OrderOf (ofRegistry r) subset other →
          other = order ∨ List.Lex (· < ·) order other) ∧
    ∀ e, (ofRegistry r).topologicalOrder subset = .error e →
      ∃ ids, e = .circularDependency ids ∧ ids.Nodup ∧
        ∀ x, x ∈ ids ↔ ∃ y, ReflTransGen ((ofRegistry r).DependsOnIn subset) x y ∧
          TransGen ((ofRegistry r).DependsOnIn subset) y y := by
  have hkind : ∀ id ∈ subset, ∀ x,
      (ofRegistry r).Refers x id → (ofRegistry r).DependsOn x id :=
    fun id hid x hx => Registry.dependsOn_iff.2 ⟨hx, calculated id hid⟩
  refine ⟨exists_topologicalOrder_iff sorted hkind, fun order h => ⟨?_, fun other hother => ?_⟩,
    fun e h => ?_⟩
  · exact orderOf_topologicalOrder sorted hkind h
  · exact least_topologicalOrder sorted hkind h hother
  · obtain ⟨ids, he, hids, hmem⟩ := exists_of_topologicalOrder_error sorted hkind h
    exact ⟨ids, he, nodup_of_pairwise_lt hids, fun x => (hmem x).trans not_acc_iff⟩

/-- A funnel of metrics that rest on `c`, and two that run in a circle beside it. -/
def funnelDocument : SchemaDocument where
  table := "sales"
  sourceTable := "raw.sales"
  baseMetrics := ["clicks", "sales"].map fun id =>
    { id, sourceColumns := [id], aggregation := .sum }
  calculatedMetrics := [{ id := "a", formula := "{c} / {sales}" },
    { id := "b", formula := "{c} * 100" }, { id := "c", formula := "{clicks} / {sales}" },
    { id := "d", formula := "{d} + {c}" }, { id := "e", formula := "{d} / {c}" }]

theorem topologicalOrder_canonical_funnel :
    let g := ofRegistry ⟨funnelDocument⟩
    g.topologicalOrder ["a", "b", "c"] = .ok ["c", "a", "b"] ∧
      (∀ other, OrderOf g ["a", "b", "c"] other →
        other = ["c", "a", "b"] ∨ List.Lex (· < ·) ["c", "a", "b"] other) ∧
      g.topologicalOrder ["c", "d", "e"] = .error (.circularDependency ["d", "e"]) ∧
      ∀ x ∈ ["d", "e"], ∃ y, ReflTransGen (g.DependsOnIn ["c", "d", "e"]) x y ∧
        TransGen (g.DependsOnIn ["c", "d", "e"]) y y := by
  intro g
  have horder : g.topologicalOrder ["a", "b", "c"] = .ok ["c", "a", "b"] := by decide +kernel
  have herror : g.topologicalOrder ["c", "d", "e"] =
    .error (.circularDependency ["d", "e"]) := by decide +kernel
  obtain ⟨-, hleast, -⟩ :=
    @topologicalOrder_canonical ⟨funnelDocument⟩ ["a", "b", "c"]
      (by decide +kernel) (by decide +kernel)
  obtain ⟨-, -, hstuck⟩ :=
    @topologicalOrder_canonical ⟨funnelDocument⟩ ["c", "d", "e"]
      (by decide +kernel) (by decide +kernel)
  obtain ⟨ids, he, -, hids⟩ := hstuck _ herror
  obtain rfl := Error.circularDependency.inj he
  exact ⟨horder, (hleast _ horder).2, herror, fun x hx => (hids x).1 hx⟩

end MetricLayer.DependencyGraph
