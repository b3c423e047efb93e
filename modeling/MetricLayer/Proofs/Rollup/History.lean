import Mathlib.Data.List.Induction
import MetricLayer.Proofs.Rollup.Catalog

/-!
# What ready rollups were built as

A catalog that was edited and whose rollups were built, beside the definition that
each of them had when it was last built (`RollupCatalog.History`). Whatever is done,
a rollup that is ready has the dimensions and metrics of its last build
(`History.Sound`). It has the table of that build as well as long as no definition
comes in that claims to be ready, and no table of a ready rollup is exchanged:
just these operations part a ready rollup from what was built for it
(`History.faithful_throughout_iff`).
-/

namespace MetricLayer.RollupCatalog

/-- What is done to a catalog, be it with success or not. -/
inductive Operation where
  | create (registry : Registry) (now : Timestamp) (definition : RollupDefinition)
  | update (registry : Registry) (now : Timestamp) (id : String) (change : RollupUpdate)
  | delete (id : String)
  | markStale (metrics : List String)
  /-- The table of a rollup has been built as the rollup is defined. -/
  | complete (now : Timestamp) (id : String) (stats : TableStats)

/-- A rollup after a build. -/
def completed (stats : TableStats) (now : Timestamp) (r : RollupDefinition) : RollupDefinition :=
  { r with build := r.build.markReady stats now }

/-- A catalog, and the definitions by which its rollups were last built. -/
structure History where
  catalog : RollupCatalog := {}
  built : String → Option RollupDefinition := fun _ => none

namespace History

/-- A new rollup has not been built, whatever its definition says. -/
def step (h : History) : Operation → History
  | .create registry now definition =>
    match h.catalog.create registry now definition with
    | .ok (created, catalog) => { catalog, built := Function.update h.built created.id none }
    | .error _ => h
  | .update registry now id change =>
    match h.catalog.update registry now id change with
    | .ok (_, catalog) => { h with catalog }
    | .error _ => h
  | .delete id =>
    match h.catalog.delete id with
    | .ok (_, catalog) => { h with catalog }
    | .error _ => h
  | .markStale metrics => { h with catalog := (h.catalog.markStaleForMetrics metrics).2 }
  | .complete now id stats =>
    { catalog := h.catalog.modify id (completed stats now)
      built := Function.update h.built id (h.catalog.find? id) }

def run (operations : List Operation) : History := operations.foldl step {}

/-- Each rollup that is ready was built as it is now defined. -/
def Faithful (h : History) : Prop :=
  ∀ r ∈ h.catalog.rollups, r.build.isReady = true →
    ∃ b, h.built r.id = some b ∧ r.sameLayout b = true

instance (h : History) : Decidable h.Faithful :=
  decidable_of_iff (∀ r ∈ h.catalog.rollups, r.build.isReady = true →
    (h.built r.id).any r.sameLayout = true) (by simp [Faithful, Option.any_eq_true])

/-- A definition comes in that claims to be ready, or a rollup stays ready though it
gets another table. -/
def Strays (h : History) : Operation → Prop
  | .create registry now definition =>
    definition.build.isReady = true ∧
      ∃ result, h.catalog.create registry now definition = .ok result
  | .update registry now id change =>
    ∃ current changed catalog, h.catalog.find? id = some current ∧
      h.catalog.update registry now id change = .ok (changed, catalog) ∧
      changed.build.isReady = true ∧ changed.targetTableName ≠ current.targetTableName
  | .delete _ | .markStale _ | .complete .. => False

/-- Ids are used once, and ready rollups have the dimensions and metrics of their
last builds. -/
structure Sound (h : History) : Prop where
  nodup : (h.catalog.rollups.map (·.id)).Nodup
  layout : ∀ r ∈ h.catalog.rollups, r.build.isReady = true → ∀ b, h.built r.id = some b →
    r.dimensions = b.dimensions ∧ r.metrics = b.metrics

variable {h : History} {r : RollupDefinition}

theorem sameLayout_iff {b : RollupDefinition} : r.sameLayout b = true ↔
    (r.dimensions = b.dimensions ∧ r.metrics = b.metrics) ∧
      r.targetTableName = b.targetTableName := by
  simp [RollupDefinition.sameLayout]

theorem updated_isReady_iff {change : RollupUpdate} {now : Timestamp} :
    (updated r change now).build.isReady = true ↔ r.build.isReady = true ∧
      (updated r change now).dimensions = r.dimensions ∧
      (updated r change now).metrics = r.metrics := by
  simp only [updated]
  split
  · rename_i hchanged
    simp only [BuildState.markStale_isReady, Bool.false_eq_true, false_iff, not_and]
    rintro - hdimensions hmetrics
    simp [hdimensions, hmetrics] at hchanged
  · simp_all

/-! ## One operation -/

/-- A property of ready rollups and their last builds is kept by an operation that
keeps it for the rollup that it concerns. -/
theorem forall_ready_step {P : RollupDefinition → Option RollupDefinition → Prop}
    (hnodup : (h.catalog.rollups.map (·.id)).Nodup)
    (hP : ∀ r ∈ h.catalog.rollups, r.build.isReady = true → P r (h.built r.id)) (op : Operation)
    (hcreate : ∀ registry now definition, op = .create registry now definition →
      ∀ created catalog, h.catalog.create registry now definition = .ok (created, catalog) →
        created.build.isReady = true → P created none)
    (hupdate : ∀ registry now id change, op = .update registry now id change →
      ∀ current catalog, h.catalog.find? id = some current →
        h.catalog.update registry now id change = .ok (updated current change now, catalog) →
        P current (h.built id) → (updated current change now).build.isReady = true →
          P (updated current change now) (h.built id))
    (hcomplete : ∀ r stats now, P (completed stats now r) (some r)) :
    ∀ r ∈ (h.step op).catalog.rollups, r.build.isReady = true → P r ((h.step op).built r.id) := by
  intro r hr hready
  cases op with
  | create registry now definition =>
    simp only [step] at hr ⊢
    split at hr
    · rename_i created catalog hresult
      obtain ⟨hnew, -, ⟨_, hcreated⟩, hrollups⟩ := of_create hresult
      simp only [hrollups, List.mem_append, List.mem_singleton] at hr
      dsimp only
      rcases hr with hr | rfl
      · have hid : created.id = definition.id := by rw [hcreated]
        have hne : r.id ≠ created.id := by
          simp only [RollupCatalog.find?, List.find?_eq_none, beq_iff_eq] at hnew
          exact hid ▸ hnew r hr
        rw [Function.update_of_ne hne]
        exact hP r hr hready
      · rw [Function.update_self]
        exact hcreate _ _ _ rfl r catalog hresult hready
    · exact hP r hr hready
  | update registry now id change =>
    simp only [step] at hr ⊢
    split at hr
    · rename_i hresult
      obtain ⟨current, hcurrent, rfl, -, rfl⟩ := of_update hresult
      have hkeeps (r : RollupDefinition) : (updated r change now).id = r.id := rfl
      rcases cases_of_mem_modify hkeeps hnodup hr with ⟨found, hmem, hid, hfound, rfl⟩ | ⟨-, hr⟩
      · obtain rfl := Option.some.inj (hcurrent.symm.trans hfound)
        dsimp only
        rw [hkeeps, hid]
        exact hupdate registry now id change rfl current _ hcurrent hresult
          (hid ▸ hP current hmem (updated_isReady_iff.1 hready).1) hready
      · exact hP r hr hready
    · exact hP r hr hready
  | delete id =>
    simp only [step] at hr ⊢
    split at hr
    · rename_i hresult
      rw [(of_delete hresult).2] at hr
      exact hP r ((removeFirst_sublist id _).subset hr) hready
    · exact hP r hr hready
  | markStale metrics =>
    simp only [step, markStaleForMetrics, List.mem_map] at hr ⊢
    obtain ⟨old, hold, rfl⟩ := hr
    split at hready
    · simp [BuildState.markStale_isReady] at hready
    · rename_i hholds
      rw [if_neg hholds]
      exact hP old hold hready
  | complete now id stats =>
    simp only [step] at hr ⊢
    have hkeeps (r : RollupDefinition) : (completed stats now r).id = r.id := rfl
    rcases cases_of_mem_modify hkeeps hnodup hr with ⟨current, -, hid, hfound, rfl⟩ | ⟨hne, hr⟩
    · rw [hkeeps, hid, Function.update_self, hfound]
      exact hcomplete current stats now
    · rw [Function.update_of_ne hne]
      exact hP r hr hready

theorem nodup_step (hnodup : (h.catalog.rollups.map (·.id)).Nodup) (op : Operation) :
    ((h.step op).catalog.rollups.map (·.id)).Nodup := by
  have hsame (id : String) (change : RollupDefinition → RollupDefinition)
      (hid : ∀ r, (change r).id = r.id) :
      ((h.catalog.modify id change).rollups.map (·.id)).Nodup := by
    rw [ids_modify hid]
    exact hnodup
  cases op with
  | create registry now definition =>
    simp only [History.step]
    split
    · rename_i created catalog hresult
      obtain ⟨hnew, -, ⟨_, hcreated⟩, hrollups⟩ := of_create hresult
      rw [hrollups]
      exact nodup_ids_append hnodup (by rw [hcreated]; exact hnew)
    · exact hnodup
  | update registry now id change =>
    simp only [History.step]
    split
    · rename_i hresult
      obtain ⟨_, -, -, -, rfl⟩ := of_update hresult
      exact hsame id _ fun _ => rfl
    · exact hnodup
  | delete id =>
    simp only [History.step]
    split
    · rename_i hresult
      rw [(of_delete hresult).2]
      exact hnodup.sublist ((removeFirst_sublist id _).map _)
    · exact hnodup
  | markStale metrics =>
    simp only [History.step]
    rw [ids_markStaleForMetrics]
    exact hnodup
  | complete now id stats => exact hsame id _ fun _ => rfl

theorem Sound.step (hs : h.Sound) (op : Operation) : (h.step op).Sound := by
  refine ⟨nodup_step hs.nodup op, forall_ready_step
    (P := fun r b => ∀ b', b = some b' → r.dimensions = b'.dimensions ∧ r.metrics = b'.metrics)
    hs.nodup hs.layout op (by simp) ?_ ?_⟩
  · intro registry now id change _ current _ _ _ hcurrent hready b hb
    obtain ⟨-, hdimensions, hmetrics⟩ := updated_isReady_iff.1 hready
    rw [hdimensions, hmetrics]
    exact hcurrent b hb
  · rintro r stats now b hb
    obtain rfl := Option.some.inj hb
    exact ⟨rfl, rfl⟩

/-- A ready rollup parts from its build when an operation strays, and only then. -/
theorem faithful_step_iff (hs : h.Sound) (hf : h.Faithful) (op : Operation) :
    (h.step op).Faithful ↔ ¬ h.Strays op := by
  constructor
  · intro hstep hstrays
    cases op with
    | create registry now definition =>
      obtain ⟨hready, ⟨created, catalog⟩, hresult⟩ := hstrays
      obtain ⟨-, -, ⟨_, hcreated⟩, hrollups⟩ := of_create hresult
      simp only [History.step, hresult] at hstep
      obtain ⟨b, hb, -⟩ := hstep created (by simp [hrollups]) (by rw [hcreated]; exact hready)
      simp at hb
    | update registry now id change =>
      obtain ⟨current, _, _, hcurrent, hresult, hready, hmoved⟩ := hstrays
      obtain ⟨current', hcurrent', rfl, -, rfl⟩ := of_update hresult
      obtain rfl := Option.some.inj (hcurrent.symm.trans hcurrent')
      obtain ⟨hmem, hid⟩ := (find?_eq_some_iff_of_nodup hs.nodup).1 hcurrent
      have hkeeps (r : RollupDefinition) : (updated r change now).id = r.id := rfl
      have hchanged : updated current change now ∈
          (h.catalog.modify id fun current => updated current change now).rollups := by
        rw [mem_modify_iff hkeeps hs.nodup, if_pos ((hkeeps current).trans hid), hcurrent]
        rfl
      simp only [History.step, hresult] at hstep
      obtain ⟨b, hb, hlayout⟩ := hstep _ hchanged hready
      obtain ⟨b', hb', hlayout'⟩ := hf current hmem (updated_isReady_iff.1 hready).1
      obtain rfl := Option.some.inj (hb.symm.trans hb')
      exact hmoved ((sameLayout_iff.1 hlayout).2.trans (sameLayout_iff.1 hlayout').2.symm)
    | delete _ | markStale _ | complete _ _ _ => exact hstrays
  · intro hkeeps
    refine forall_ready_step (P := fun r b => ∃ b', b = some b' ∧ r.sameLayout b' = true)
      hs.nodup hf op ?_ ?_ ?_
    · rintro registry now definition rfl created catalog hresult hready
      obtain ⟨-, -, ⟨_, hcreated⟩, -⟩ := of_create hresult
      exact absurd ⟨by rw [hcreated] at hready; exact hready, _, hresult⟩ hkeeps
    · rintro registry now id change rfl current catalog hcurrent hresult ⟨b, hb, hlayout⟩ hready
      obtain ⟨hshape, htable⟩ := sameLayout_iff.1 hlayout
      obtain ⟨-, hdimensions, hmetrics⟩ := updated_isReady_iff.1 hready
      refine ⟨b, hb, sameLayout_iff.2 ⟨by rw [hdimensions, hmetrics]; exact hshape, ?_⟩⟩
      by_contra hmoved
      exact hkeeps ⟨current, _, catalog, hcurrent, hresult, hready, htable ▸ hmoved⟩
    · exact fun r stats now => ⟨r, rfl, sameLayout_iff.2 ⟨⟨rfl, rfl⟩, rfl⟩⟩

/-! ## Runs -/

theorem run_concat (before : List Operation) (op : Operation) :
    run (before ++ [op]) = (run before).step op := by
  rw [run, List.foldl_concat, run]

theorem sound_run (operations : List Operation) : (run operations).Sound := by
  induction operations using List.reverseRecOn with
  | nil => exact ⟨List.nodup_nil, fun r hr => by cases hr⟩
  | append_singleton before op ih => exact run_concat before op ▸ ih.step op

/-- **Ready rollups and their builds**: the dimensions and metrics of a ready rollup
are always those of its last build. All that is ready was built as it is defined, at
every moment of a run, exactly if no operation of the run strays. -/
theorem faithful_throughout_iff (operations : List Operation) :
    (∀ r ∈ (run operations).catalog.rollups, r.build.isReady = true →
      ∀ b, (run operations).built r.id = some b →
        r.dimensions = b.dimensions ∧ r.metrics = b.metrics) ∧
    ((∀ before, before <+: operations → (run before).Faithful) ↔
      ∀ before op, before ++ [op] <+: operations → ¬ (run before).Strays op) := by
  refine ⟨(sound_run operations).layout, fun hfaithful before op hprefix => ?_,
    fun hstrays before hprefix => ?_⟩
  · have hbefore := hfaithful before ((List.prefix_append before [op]).trans hprefix)
    rw [← faithful_step_iff (sound_run before) hbefore, ← run_concat]
    exact hfaithful _ hprefix
  · induction before using List.reverseRecOn with
    | nil => exact fun r hr => by cases hr
    | append_singleton before op ih =>
      have hbefore := ih ((List.prefix_append before [op]).trans hprefix)
      rw [run_concat, faithful_step_iff (sound_run before) hbefore]
      exact hstrays before op hprefix

def datedClicks : Registry := ⟨{
  table := "search"
  sourceTable := "raw.search"
  baseMetrics := [{ id := "clicks", sourceColumns := ["clicks"], aggregation := .sum }]
  dimensions := [{ id := "date", columnName := "date", dataType := .date }] }⟩

def dailyClicks : RollupDefinition :=
  { id := "daily", dimensions := ["date"], metrics := [{ metricId := "clicks" }] }

/-- A rollup that was built stays ready when it gets another table, which was never
built, and so does one that was never built but says so. -/
theorem not_faithful_of_other_table :
    ¬ (run [.create datedClicks ⟨0, 0⟩ dailyClicks,
      .complete ⟨1, 0⟩ "daily" { rowCount := 3 },
      .update datedClicks ⟨2, 0⟩ "daily" { targetTableName := some "raw.other" }]).Faithful ∧
    ¬ (run [.create datedClicks ⟨0, 0⟩
      { dailyClicks with build := { status := .ready } }]).Faithful := by
  constructor <;> decide +kernel

end History

end MetricLayer.RollupCatalog
