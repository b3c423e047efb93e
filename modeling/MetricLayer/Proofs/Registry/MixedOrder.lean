import MetricLayer.Proofs.Registry.Agreement
import MetricLayer.Proofs.Registry.Order

/-!
# Orders of sets of any metrics

A metric waits for the calculated metrics of the set that it refers to, but is
counted down for every metric of the set that it refers to. A base metric that
stands in the set with a metric that refers to it is counted down for, and was
never waited for, so the run may stop at a count that is zero already.

Until it stops the count of a metric is what it waits for less what it was told
of (`Tallied`, `tallied_release`), and only metrics that are `Placeable` are
placed. So the run gets through just where no metric refers to more placeable
ones than it waits for (`isSome_orderAll?_iff`), and what it places comes after
all of the set that it refers to.
-/

namespace MetricLayer.DependencyGraph

variable (g : DependencyGraph) (subset : List String)

/-- The metrics of `subset` are ordered without decreasing a count at zero, and in the
order that is answered each metric comes after all of the set that it refers to. -/
structure OrdersSafely : Prop where
  counts : (g.orderAll? subset).isSome
  after : ∀ order, g.topologicalOrder subset = .ok order →
    ∀ before id rest, order = before ++ id :: rest →
      ∀ d ∈ subset, g.Refers id d → d ∈ before

/-- The metrics of `subset` that counting down lets through: as many of those that they
refer to come before as they wait for. -/
inductive Placeable : String → Prop
  | intro {id : String} (mem : id ∈ subset) (before : List String) (nodup : before.Nodup)
    (refers : ∀ d ∈ before, g.Refers id d) (placeable : ∀ d ∈ before, Placeable d)
    (enough : before.length = g.waiting subset [] id) : Placeable id

/-- How often `id` is told that a metric was placed. -/
def told (placed : List String) (id : String) : Nat :=
  placed.countP fun d => (g.dependents d).contains id

variable {g subset} {placed : List String} {count : String → Nat}

/-! ## One step of a run -/

theorem told_cons (g : DependencyGraph) (placed : List String) (d id : String) :
    g.told (d :: placed) id = g.told placed id + if id ∈ g.dependents d then 1 else 0 := by
  simp only [told, List.countP_cons, List.contains_eq_mem, decide_eq_true_eq]

/-- What `id` is told of are the metrics placed that it refers to. -/
theorem told_eq_length (g : DependencyGraph) (placed : List String) (id : String) :
    g.told placed id = (placed.filter fun d => (g.dependents d).contains id).length :=
  List.countP_eq_length_filter

theorem length_le_told {ds : List String} {id : String} (hnodup : ds.Nodup)
    (hplaced : ∀ d ∈ ds, d ∈ placed) (hrefers : ∀ d ∈ ds, g.Refers id d) :
    ds.length ≤ g.told placed id := by
  rw [told_eq_length]
  refine (List.subperm_of_subset hnodup fun d hd => ?_).length_le
  simp [hplaced d hd, hrefers d hd]

/-- In a run under way the metrics wait for what they waited for at the start, less
what they were told of. -/
structure Tallied (g : DependencyGraph) (subset placed : List String) (degrees : Degrees)
    (ready : List String) : Prop where
  counted : Counted subset placed (fun x => g.waiting subset [] x - g.told placed x) degrees ready
  told_le : ∀ x ∈ subset, g.told placed x ≤ g.waiting subset [] x
  nodup : placed.Nodup
  placeable : ∀ x ∈ placed, g.Placeable subset x

theorem tallied_start (hsorted : subset.Pairwise (· < ·)) :
    Tallied g subset [] (g.degreesIn subset)
      (((g.degreesIn subset).filter (·.2 == 0)).map (·.1)) :=
  ⟨(settled_start hsorted).counted, fun _ _ => Nat.zero_le _, .nil, by simp⟩

/-- A metric that waits for nothing more can be placed. -/
theorem Tallied.placeable_of_ready {degrees : Degrees} {ready : List String} {id : String}
    (h : Tallied g subset placed degrees ready) (hid : id ∈ ready) :
    g.Placeable subset id ∧ g.told placed id = g.waiting subset [] id := by
  obtain ⟨hmem, -, hzero⟩ := (h.counted.mem_ready id).1 hid
  have htold : g.told placed id = g.waiting subset [] id :=
    Nat.le_antisymm (h.told_le id hmem) (Nat.sub_eq_zero_iff_le.1 hzero)
  refine ⟨.intro hmem (placed.filter fun d => (g.dependents d).contains id)
    (h.nodup.filter _) (fun d hd => ?_) (fun d hd => ?_) ?_, htold⟩
  · simpa using (List.mem_filter.1 hd).2
  · exact h.placeable d (List.mem_filter.1 hd).1
  · rw [← told_eq_length, htold]

/-- A metric that refers to more placeable metrics than it waits for. -/
def Overtold (g : DependencyGraph) (subset : List String) : Prop :=
  ∃ x ∈ subset, ∃ ds : List String, ds.Nodup ∧
    (∀ d ∈ ds, g.Refers x d ∧ g.Placeable subset d) ∧ g.waiting subset [] x < ds.length

/-- Placing a metric that is ready keeps the tally, unless a metric is told of too many. -/
theorem tallied_release {degrees : Degrees} {id : String} {ready : List String}
    (h : Tallied g subset placed degrees (id :: ready)) :
    g.release? degrees ready id = none ∧ Overtold g subset ∨
      ∃ degrees' ready', g.release? degrees ready id = some (degrees', ready') ∧
        Tallied g subset (id :: placed) degrees' ready' := by
  have hplaceable : ∀ d ∈ id :: placed, g.Placeable subset d :=
    List.forall_mem_cons.2 ⟨(h.placeable_of_ready List.mem_cons_self).1, h.placeable⟩
  have hnew : (id :: placed).Nodup :=
    List.nodup_cons.2 ⟨((h.counted.mem_ready id).1 List.mem_cons_self).2.1, h.nodup⟩
  by_cases hpos : ∀ x ∈ g.dependents id, x ∈ subset →
      g.waiting subset [] x - g.told placed x ≠ 0
  · obtain ⟨degrees', ready', hrelease, hcounted⟩ := counted_release h.counted hpos
    have hcount : (fun x => if x ∈ g.dependents id then
          g.waiting subset [] x - g.told placed x - 1
        else g.waiting subset [] x - g.told placed x) =
        fun x => g.waiting subset [] x - g.told (id :: placed) x := by
      funext x
      rw [told_cons]
      split <;> omega
    refine .inr ⟨degrees', ready', hrelease, hcount ▸ hcounted, fun x hx => ?_, hnew, hplaceable⟩
    have hle := h.told_le x hx
    rw [told_cons]
    split
    · have := hpos x ‹_› hx
      omega
    · exact hle
  · simp only [not_forall, not_not] at hpos
    obtain ⟨x, hdep, hx, hzero⟩ := hpos
    refine .inl ⟨h.counted.release?_eq_none hdep hx hzero, x, hx,
      (id :: placed).filter fun d => (g.dependents d).contains x, hnew.filter _, fun d hd => ?_, ?_⟩
    · rw [List.mem_filter] at hd
      exact ⟨by simpa using hd.2, hplaceable d hd.1⟩
    · rw [← told_eq_length, told_cons, if_pos hdep]
      omega

/-! ## Whole runs -/

/-- A run that gets through ends with a tally, and each metric was placed just when it
had been told of what it waits for. -/
structure Tally (g : DependencyGraph) (subset placed order : List String) (degrees : Degrees)
    (steps : Nat) : Prop where
  tallied : ∃ ready, Tallied g subset (order.reverse ++ placed) degrees ready ∧
    (order.length < steps → ready = [])
  length_le : order.length ≤ steps
  timely : ∀ before id rest, order = before ++ id :: rest →
    g.told (before.reverse ++ placed) id = g.waiting subset [] id

theorem tally_orderFrom? (steps : Nat) {degrees : Degrees} {ready : List String}
    (h : Tallied g subset placed degrees ready) :
    g.orderFrom? steps degrees ready = none ∧ Overtold g subset ∨
      ∃ order left, g.orderFrom? steps degrees ready = some (order, left) ∧
        Tally g subset placed order left steps := by
  induction steps generalizing placed degrees ready with
  | zero => exact .inr ⟨[], degrees, rfl, ⟨ready, h, by simp⟩, Nat.le_refl _, by simp⟩
  | succ steps ih =>
    cases ready with
    | nil => exact .inr ⟨[], degrees, rfl, ⟨[], h, fun _ => rfl⟩, Nat.zero_le _, by simp⟩
    | cons id ready =>
      have htold := (h.placeable_of_ready List.mem_cons_self).2
      rcases tallied_release h with ⟨hnone, hover⟩ | ⟨degrees', ready', hrelease, hnext⟩
      · exact .inl ⟨by rw [orderFrom?, hnone]; rfl, hover⟩
      rw [orderFrom?_of_release? hrelease]
      rcases ih hnext with ⟨hnone, hover⟩ | ⟨order, left, hrun, hrest⟩
      · exact .inl ⟨by rw [hnone]; rfl, hover⟩
      refine .inr ⟨id :: order, left, by rw [hrun]; rfl, ?_, ?_, ?_⟩
      · obtain ⟨ready', htallied, hstuck⟩ := hrest.tallied
        refine ⟨ready', ?_, fun hlt => hstuck (Nat.lt_of_succ_lt_succ hlt)⟩
        rwa [List.reverse_cons, List.append_assoc]
      · exact Nat.succ_le_succ hrest.length_le
      · intro before x rest heq
        cases before with
        | nil =>
          obtain ⟨rfl, -⟩ := List.cons.inj heq
          exact htold
        | cons y before =>
          obtain ⟨rfl, htail⟩ := List.cons.inj heq
          simpa using hrest.timely before x rest htail

/-! ## When runs get through -/

/-- When nothing is ready any more, all that is placeable has been placed. -/
theorem Tallied.mem_of_placeable {degrees : Degrees} {x : String}
    (h : Tallied g subset placed degrees []) (hx : g.Placeable subset x) : x ∈ placed := by
  induction hx with
  | @intro x mem before nodup refers _ enough ih =>
    by_contra hnew
    have hle := length_le_told nodup ih refers
    have hready := (h.counted.mem_ready x).2 ⟨mem, hnew, by omega⟩
    exact List.not_mem_nil hready

theorem Tallied.not_overtold {degrees : Degrees} (h : Tallied g subset placed degrees []) :
    ¬ Overtold g subset := by
  rintro ⟨x, hx, ds, hnodup, hds, hlt⟩
  have hle := length_le_told hnodup (fun d hd => h.mem_of_placeable (hds d hd).2)
    fun d hd => (hds d hd).1
  exact absurd (h.told_le x hx) (by omega)

theorem Placeable.mem {x : String} (h : g.Placeable subset x) : x ∈ subset := by
  cases h
  assumption

/-- A whole run ends when nothing is ready any more. -/
theorem Tally.tallied_nil {order : List String} {degrees : Degrees}
    (h : Tally g subset [] order degrees subset.length) :
    Tallied g subset order.reverse degrees [] := by
  obtain ⟨ready, htallied, hstuck⟩ := h.tallied
  rw [List.append_nil] at htallied
  suffices hready : ready = [] from hready ▸ htallied
  refine List.eq_nil_iff_forall_not_mem.2 fun x hx => ?_
  obtain ⟨hmem, hnew, -⟩ := (htallied.counted.mem_ready x).1 hx
  have hmore : (x :: order.reverse).length ≤ subset.length :=
    (List.subperm_of_subset (List.nodup_cons.2 ⟨hnew, htallied.nodup⟩)
      (List.forall_mem_cons.2 ⟨hmem, fun y hy => (htallied.placeable y hy).mem⟩)).length_le
  rw [List.length_cons, List.length_reverse] at hmore
  simp [hstuck hmore] at hx

theorem tally_orderAll? (hsorted : subset.Pairwise (· < ·)) :
    g.orderAll? subset = none ∧ Overtold g subset ∨
      ∃ order left, g.orderAll? subset = some (order, left) ∧
        Tally g subset [] order left subset.length :=
  tally_orderFrom? subset.length (tallied_start hsorted)

/-- The run gets through just where no metric is told of too many. -/
theorem isSome_orderAll?_iff (hsorted : subset.Pairwise (· < ·)) :
    (g.orderAll? subset).isSome ↔ ¬ Overtold g subset := by
  rcases tally_orderAll? (g := g) hsorted with ⟨hnone, hover⟩ | ⟨order, left, hsome, htally⟩
  · simpa [hnone] using hover
  · simpa [hsome] using htally.tallied_nil.not_overtold

theorem tally_of_topologicalOrder (hsorted : subset.Pairwise (· < ·)) {order : List String}
    (h : g.topologicalOrder subset = .ok order) :
    (g.orderAll? subset).isSome ∧ order.length = subset.length ∧
      ∃ left, Tally g subset [] order left subset.length := by
  obtain ⟨⟨left, hrun⟩, hlength⟩ := topologicalOrder_eq_ok_iff.1 h
  refine ⟨Option.isSome_of_eq_some hrun, hlength, left, ?_⟩
  rcases tally_orderAll? (g := g) hsorted with ⟨hnone, -⟩ | ⟨order', left', hsome, htally⟩
  · cases hnone.symm.trans hrun
  · obtain ⟨rfl, rfl⟩ := Prod.mk.inj (Option.some.inj (hsome.symm.trans hrun))
    exact htally

/-- What a run that gets through places comes after all that it refers to. -/
theorem Tally.mem_before {order before rest : List String} {degrees : Degrees} {id d : String}
    (h : Tally g subset [] order degrees subset.length) (heq : order = before ++ id :: rest)
    (hd : d ∈ order) (hrefers : g.Refers id d) : d ∈ before := by
  by_contra hafter
  have hid : id ∈ subset := (h.tallied_nil.placeable id (by simp [heq])).mem
  have htimely := h.timely before id rest heq
  have hle := h.tallied_nil.told_le id hid
  have hlate : 0 < (id :: rest).countP fun d => (g.dependents d).contains id := by
    refine List.countP_pos_iff.2 ⟨d, ?_, by simpa using hrefers⟩
    rw [heq, List.mem_append] at hd
    exact hd.resolve_left hafter
  rw [told, List.countP_reverse, heq, List.countP_append] at hle
  rw [told, List.append_nil, List.countP_reverse] at htimely
  omega

theorem perm_of_tally {order : List String} {degrees : Degrees}
    (h : Tally g subset [] order degrees subset.length) (hlength : order.length = subset.length) :
    order.Perm subset :=
  (List.subperm_of_subset (List.nodup_reverse.1 h.tallied_nil.nodup) fun x hx =>
    (h.tallied_nil.placeable x (List.mem_reverse.2 hx)).mem).perm_of_length_le hlength.ge

/-- Where all is placed, a metric refers to no more of the set than it waits for. -/
theorem dependsOn_of_tally (hsorted : subset.Pairwise (· < ·)) {order : List String}
    {degrees : Degrees} (h : Tally g subset [] order degrees subset.length)
    (hlength : order.length = subset.length) {x d : String} (hx : x ∈ subset) (hd : d ∈ subset)
    (hrefers : g.Refers x d) : g.DependsOn x d := by
  let waited := (g.dependencies x).filter fun d => subset.contains d && !([] : List String).contains d
  let referred := subset.filter fun d => (g.dependents d).contains x
  have hsub : waited ⊆ referred := fun y hy => by
    simp only [waited, List.mem_filter, mem_dependencies, Bool.and_eq_true, List.contains_eq_mem,
      decide_eq_true_eq] at hy
    simpa [referred] using ⟨hy.2.1, hy.1.refers⟩
  have hle : referred.length ≤ waited.length := by
    refine le_trans (length_le_told ((nodup_of_pairwise_lt hsorted).filter _) (fun y hy => ?_)
      fun y hy => by simpa using (List.mem_filter.1 hy).2) (h.tallied_nil.told_le x hx)
    exact List.mem_reverse.2 ((perm_of_tally h hlength).mem_iff.2 (List.mem_filter.1 hy).1)
  have hperm := (List.subperm_of_subset ((nodup_sortedSet _).filter _) hsub).perm_of_length_le hle
  have hmem : d ∈ waited := hperm.mem_iff.2 (by simpa [referred] using ⟨hd, hrefers⟩)
  exact mem_dependencies.1 (List.mem_filter.1 hmem).1

/-- A metric that refers to calculated metrics of the set only is told of no more than
it waits for. -/
theorem not_overtold (h : ∀ x ∈ subset, ∀ d ∈ subset, g.Refers x d → g.DependsOn x d) :
    ¬ Overtold g subset := by
  rintro ⟨x, hx, ds, hnodup, hds, hlt⟩
  refine absurd (List.subperm_of_subset hnodup fun d hd => ?_).length_le (Nat.not_le.2 hlt)
  have hd' := (hds d hd).2.mem
  simpa using ⟨h x hx d hd' (hds d hd).1, hd'⟩

/-- An order that is answered has each metric after all of the set that it refers to. -/
theorem mem_before_of_topologicalOrder (hsorted : subset.Pairwise (· < ·)) {order : List String}
    (h : g.topologicalOrder subset = .ok order) {before rest : List String} {id d : String}
    (heq : order = before ++ id :: rest) (hd : d ∈ subset) (hrefers : g.Refers id d) :
    d ∈ before := by
  obtain ⟨-, hlength, left, htally⟩ := tally_of_topologicalOrder hsorted h
  exact htally.mem_before heq ((perm_of_tally htally hlength).mem_iff.2 hd) hrefers

/-- A set is ordered safely if and only if no metric of it refers to more placeable metrics
than it waits for. So it is where its metrics refer to no metric of the set but calculated ones;
and a set for which an order is answered is ordered safely, and is such a set. -/
theorem ordersSafely_iff (r : Registry) {subset : List String}
    (sorted : subset.Pairwise (· < ·)) :
    (OrdersSafely (ofRegistry r) subset ↔ ¬ Overtold (ofRegistry r) subset) ∧
    ((∀ x ∈ subset, ∀ d ∈ subset, (ofRegistry r).Refers x d → (r.calculatedMetric? d).isSome) →
      OrdersSafely (ofRegistry r) subset) ∧
    ∀ order, (ofRegistry r).topologicalOrder subset = .ok order →
      OrdersSafely (ofRegistry r) subset ∧
      ∀ x ∈ subset, ∀ d ∈ subset, (ofRegistry r).Refers x d → (r.calculatedMetric? d).isSome := by
  have hafter : ∀ order, (ofRegistry r).topologicalOrder subset = .ok order →
      ∀ before id rest, order = before ++ id :: rest →
        ∀ d ∈ subset, (ofRegistry r).Refers id d → d ∈ before :=
    fun order horder before id rest heq d hd hrefers =>
      mem_before_of_topologicalOrder sorted horder heq hd hrefers
  have hiff : OrdersSafely (ofRegistry r) subset ↔ ¬ Overtold (ofRegistry r) subset := by
    rw [← isSome_orderAll?_iff sorted]
    exact ⟨fun h => h.counts, fun h => ⟨h, hafter⟩⟩
  refine ⟨hiff, fun h => ?_, fun order horder => ?_⟩
  · exact hiff.2 (not_overtold fun x hx d hd hxd => Registry.dependsOn_iff.2 ⟨hxd, h x hx d hd hxd⟩)
  · obtain ⟨hcounts, hlength, left, htally⟩ := tally_of_topologicalOrder sorted horder
    refine ⟨⟨hcounts, hafter⟩, fun x hx d hd hxd => ?_⟩
    exact (Registry.dependsOn_iff.1 (dependsOn_of_tally sorted htally hlength hx hd hxd)).2

/-- A rate that rests on a base metric, and a share of it. -/
def rateDocument : SchemaDocument where
  table := "sales"
  sourceTable := "raw.sales"
  baseMetrics := ["clicks", "sales"].map fun id =>
    { id, sourceColumns := [id], aggregation := .sum }
  calculatedMetrics := [{ id := "a_rate", formula := "{sales} / {clicks}" },
    { id := "b_share", formula := "{a_rate} * 100" }]

/-- The two calculated metrics are ordered safely, the rate and the base metric are not. -/
theorem ordersSafely_rates :
    OrdersSafely (ofRegistry ⟨rateDocument⟩) ["a_rate", "b_share"] ∧
      Overtold (ofRegistry ⟨rateDocument⟩) ["a_rate", "sales"] := by
  have hcalculated : ∀ d ∈ ["a_rate", "b_share"],
      ((⟨rateDocument⟩ : Registry).calculatedMetric? d).isSome := by decide +kernel
  refine ⟨(ordersSafely_iff ⟨rateDocument⟩ (by decide +kernel)).2.1
    fun _ _ d hd _ => hcalculated d hd, ?_⟩
  by_contra hnot
  have hcounts := ((ordersSafely_iff ⟨rateDocument⟩ (by decide +kernel)).1.2 hnot).counts
  exact absurd hcounts (by decide +kernel)

/-- A set in which a count at zero would have to be decreased, for which the program stops. -/
theorem exists_not_ordersSafely :
    ∃ document r, Registry.ofDocument document = .ok r ∧
      ["a_rate", "sales"].Pairwise (· < ·) ∧
      (ofRegistry r).orderAll? ["a_rate", "sales"] = none ∧
      (ofRegistry r).topologicalOrder ["a_rate", "sales"] = .error .overflow ∧
      (ofRegistry r).Refers "a_rate" "sales" := by
  have accepted : Registry.ofDocument rateDocument = .ok ⟨rateDocument⟩ := by decide +kernel
  exact ⟨_, _, accepted, by decide +kernel, by decide +kernel, by decide +kernel,
    .base, by decide +kernel⟩

end MetricLayer.DependencyGraph
