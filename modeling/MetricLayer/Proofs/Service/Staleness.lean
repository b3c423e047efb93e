import MetricLayer.Proofs.Registry.Agreement
import MetricLayer.Proofs.Service.Sessions

/-!
# Metrics redefined while a rollup is built

When a base metric is redefined the rollups that hold it are marked, but how a
refresh ends is recorded over the mark. So a rollup built from the old definition
is reported ready exactly when its refresh succeeds and its layout has stayed as
it was (`isReady_iff_of_redefined`); otherwise it is not until a later refresh
ends.
-/

namespace MetricLayer.Service

open RollupCatalog (find?_markStaleForMetrics find?_modify removeFirst_sublist)
open Work (Pause Answers)

variable {service : Service} {table id : String} {s : State} {c : Session}

theorem isReady_ite_markStale (p : Bool) (b : BuildState) :
    (if p then b else b.markStale).isReady = (p && b.isReady) := by
  cases p <;> simp [BuildState.markStale_isReady]

theorem recordStep_run_fst {built r : RollupDefinition} (h : rollup? table s id = some r) :
    ((recordStep table built).run s).1 = .ok () := by
  rw [recordStep, editCatalog_run]
  cases hload : s.store.loadRollups table with
  | error e => rw [rollup?, hload] at h; cases h
  | ok rollups => rfl

/-- If the rollup is created anew, then as one that was never built. -/
def Event.CreatesPending (id : String) (e : Event) : Prop :=
  ∀ definition, e = .createRollup definition → definition.id = id →
    definition.build.status = .pending

namespace Session

/-- Whether the rollup is stored as one whose table may be read. -/
def isReady (table : String) (c : Session) (id : String) : Bool :=
  (rollup? table c.state id).any (·.build.isReady)

/-- The rollup is not ready, and would not be if its refresh were dropped. -/
structure Outdated (table id : String) (c : Session) : Prop where
  notReady : ∀ r, rollup? table c.state id = some r → r.build.status ≠ .ready
  restored : ∀ p, c.inFlight id = some p → ∃ definition : RollupDefinition,
    definition.id = id ∧ Refreshing table id definition p ∧
    (definition.build.status = .ready → ∀ r, rollup? table c.state id = some r →
      r.build.status ≠ .building)

theorem Outdated.isReady_eq_false (h : Outdated table id c) : c.isReady table id = false := by
  rw [isReady]
  cases hr : rollup? table c.state id with
  | none => rfl
  | some r => simpa [BuildState.isReady] using h.notReady r hr

variable {change : List RollupDefinition → List RollupDefinition → Prop}

/-- What has become of the status of a rollup: it is the same, or that of one that
is stale or was never built. -/
def Calm (old : Option RollupDefinition) (r : RollupDefinition) : Prop :=
  r.build.status = .pending ∨ r.build.status = .stale ∨
    ∃ r₀, old = some r₀ ∧ r.build.status = r₀.build.status

theorem Outdated.of_calm {c' : Session} (h : Outdated table id c)
    (hflight : c'.inFlight id = c.inFlight id)
    (hcalm : ∀ r, rollup? table c'.state id = some r → Calm (rollup? table c.state id) r) :
    Outdated table id c' where
  notReady r hr := by
    rcases hcalm r hr with h' | h' | ⟨r₀, hr₀, h'⟩
    · simp [h']
    · simp [h']
    · exact h' ▸ h.notReady r₀ hr₀
  restored p hp := by
    obtain ⟨definition, hid, hrefreshing, hrestored⟩ := h.restored p (hflight ▸ hp)
    refine ⟨definition, hid, hrefreshing, fun hready r hr => ?_⟩
    rcases hcalm r hr with h' | h' | ⟨r₀, hr₀, h'⟩
    · simp [h']
    · simp [h']
    · exact h' ▸ hrestored hready r₀ hr₀

theorem calm_of_changes (hs : Changes table change c.state s)
    (hchange : ∀ old new, change old new → (old.map (·.id)).Nodup → ∀ r,
      RollupCatalog.find? ⟨new⟩ id = some r → Calm (RollupCatalog.find? ⟨old⟩ id) r)
    (hc : c.Valid table) (r : RollupDefinition) (hr : rollup? table s id = some r) :
    Calm (rollup? table c.state id) r := by
  rcases hs.rollups with heq | ⟨old, new, hold, hnew, h⟩
  · rw [rollup?, heq] at hr
    exact .inr (.inr ⟨r, hr, rfl⟩)
  · rw [rollup?_of_loadRollups hnew] at hr
    rw [rollup?_of_loadRollups hold]
    exact hchange old new h (hc.distinct old hold) r hr

/-- A definition that is stored anew keeps its build state, or it becomes stale. -/
theorem calm_markStale (r₀ r : RollupDefinition)
    (h : r.build = r₀.build ∨ r.build = r₀.build.markStale) : Calm (some r₀) r := by
  rcases h with h | h
  · exact .inr (.inr ⟨r₀, rfl, by rw [h]⟩)
  · rw [Calm, h]
    exact (status_markStale r₀.build).imp_right .inl

/-- An outdated rollup stays so while calls are made that wait for nothing. -/
theorem Outdated.step_of_call (hc : c.Valid table) (h : Outdated table id c) {e : Event}
    (hcreate : e.CreatesPending id) (hstart : ∀ other, e ≠ .start other)
    (hreply : ∀ other answers, e ≠ .reply other answers) (hcancel : ∀ other, e ≠ .cancel other) :
    Outdated table id (c.step service table e) := by
  cases e with
  | createRollup definition =>
    refine h.of_calm rfl (calm_of_changes (changes_createRollup definition c.state) ?_ hc)
    rintro old new ⟨created, hid, hbuild, -, rfl⟩ - r hr
    rw [RollupCatalog.find?, List.find?_append] at hr
    cases hold : old.find? (·.id == id) with
    | some r₀ =>
      obtain rfl : r₀ = r := by simpa [hold] using hr
      exact .inr (.inr ⟨r₀, hold, rfl⟩)
    | none =>
      have hcreated : created.id = id ∧ created = r := by
        simpa [hold, List.find?_singleton] using hr
      obtain ⟨hid', rfl⟩ := hcreated
      exact .inl (hbuild ▸ hcreate definition rfl (hid ▸ hid'))
  | updateRollup other change =>
    refine h.of_calm rfl (calm_of_changes (changes_updateRollup other change c.state) ?_ hc)
    rintro old new ⟨now, rfl⟩ - r hr
    have hid (r₀ : RollupDefinition) : (RollupCatalog.updated r₀ change now).id = r₀.id := rfl
    rw [find?_modify hid] at hr
    split at hr
    · rename_i heq
      obtain ⟨r₀, hr₀, rfl⟩ := Option.map_eq_some_iff.1 hr
      rw [heq, hr₀]
      refine calm_markStale r₀ _ ?_
      simp only [RollupCatalog.updated]
      split
      · exact .inr rfl
      · exact .inl rfl
    · exact .inr (.inr ⟨r, hr, rfl⟩)
  | deleteRollup other =>
    refine h.of_calm rfl (calm_of_changes (changes_deleteRollup other c.state) ?_ hc)
    rintro old new rfl hnodup r hr
    have hmem := (removeFirst_sublist other old).subset (List.mem_of_find?_eq_some hr)
    have hid : r.id = id := by simpa using List.find?_some hr
    exact .inr (.inr ⟨r, (find?_eq_some_iff_of_nodup hnodup).2 ⟨hmem, hid⟩, rfl⟩)
  | updateBaseMetric m =>
    refine h.of_calm rfl (calm_of_changes (changes_updateBaseMetric service m c.state) ?_ hc)
    rintro old new rfl - r hr
    obtain ⟨r₀, hr₀, rfl⟩ := Option.map_eq_some_iff.1 ((find?_markStaleForMetrics ..).symm.trans hr)
    rw [hr₀]
    refine calm_markStale r₀ _ ?_
    split
    · exact .inr rfl
    · exact .inl rfl
  | tick now => exact h.of_calm rfl fun r hr => .inr (.inr ⟨r, hr, rfl⟩)
  | start other => exact absurd rfl (hstart other)
  | reply other answers => exact absurd rfl (hreply other answers)
  | cancel other => exact absurd rfl (hcancel other)

theorem Outdated.step_start (h : Outdated table id c) (other : String) :
    Outdated table id (c.step service table (.start other)) := by
  rcases step_start_cases service table other c with
    ⟨s, heq, hrollups, -⟩ | ⟨definition, p, rollups, hload, hfind, hp, -, heq⟩
  · rw [heq]
    refine h.of_calm rfl fun r hr => .inr (.inr ⟨r, ?_, rfl⟩)
    rwa [rollup?, hrollups] at hr
  · rw [heq]
    have hload' : (takeClaim table other c.state).store.loadRollups table = .ok rollups := hload
    have hstored := rollup?_withRollups_modify (fun _ => rfl : ∀ r, (markBuilding r).id = r.id)
      hload' other id
    by_cases hother : id = other
    · subst hother
      rw [if_pos rfl] at hstored
      refine ⟨fun r hr => ?_, fun p' hp' => ?_⟩
      · obtain ⟨r₀, -, rfl⟩ := Option.map_eq_some_iff.1 (hstored.symm.trans hr)
        simp [markBuilding, BuildState.markBuilding]
      · obtain rfl : p = p' := by simpa using hp'
        refine ⟨definition, by simpa using List.find?_some hfind, hp, fun hready => ?_⟩
        exact absurd hready (h.notReady definition (rollup?_of_loadRollups hload ▸ hfind))
    · rw [if_neg hother] at hstored
      exact h.of_calm (Function.update_of_ne hother ..) fun r hr =>
        .inr (.inr ⟨r, hstored.symm.trans hr, rfl⟩)

theorem Outdated.step_reply (hc : c.Valid table) (h : Outdated table id c) (other : String)
    (answers : Answers) (hreply : other = id → (c.inFlight id).isSome →
      ((c.step service table (.reply other answers)).inFlight id).isSome) :
    Outdated table id (c.step service table (.reply other answers)) := by
  cases hflight : c.inFlight other with
  | none => exact (step_reply_of_none hflight answers).symm ▸ h
  | some p =>
    by_cases hother : id = other
    · subst hother
      obtain ⟨definition, hid, hp, hrestored⟩ := h.restored p hflight
      rcases step_reply_cases service hflight hp answers with ⟨p', heq, -, hp'⟩ | ⟨result, -, heq⟩
      · rw [heq]
        refine ⟨h.notReady, fun p'' hp'' => ?_⟩
        obtain rfl : p' = p'' := by simpa using hp''
        exact ⟨definition, hid, hp', hrestored⟩
      · have hsome := hreply rfl (by simp [hflight])
        rw [heq] at hsome
        simp at hsome
    · obtain ⟨definition, hid, hp⟩ := hc.refreshing other p hflight
      rcases step_reply_cases service hflight hp answers with ⟨p', heq, -, hp'⟩ | ⟨result, -, heq⟩
      · rw [heq]
        exact h.of_calm (Function.update_of_ne hother ..) fun r hr => .inr (.inr ⟨r, hr, rfl⟩)
      · rw [heq]
        refine h.of_calm (Function.update_of_ne hother ..) fun r hr => .inr (.inr ⟨r, ?_, rfl⟩)
        have hne : id ≠ (definition.recordRefresh c.state.now result).2.id := by
          rwa [recordRefresh_id, hid]
        exact (rollup?_recordStep_of_ne hne).symm.trans hr

theorem Outdated.step_cancel (hc : c.Valid table) (h : Outdated table id c) (other : String) :
    Outdated table id (c.step service table (.cancel other)) := by
  cases hflight : c.inFlight other with
  | none => exact (step_cancel_of_none hflight).symm ▸ h
  | some p =>
    by_cases hother : id = other
    · subst hother
      obtain ⟨definition, hid, hp, hrestored⟩ := h.restored p hflight
      rw [step_cancel_eq hflight hp]
      refine ⟨fun r hr => ?_, fun p' hp' => by simp at hp'⟩
      have hr' : rollup? table (after (restoreStep table id definition.build) c.state) id = some r :=
        hr
      rw [rollup?_restoreStep, if_pos rfl] at hr'
      obtain ⟨r₀, hr₀, rfl⟩ := Option.map_eq_some_iff.1 hr'
      split
      · rename_i hbuilding
        exact fun hready => hrestored hready r₀ hr₀ hbuilding
      · exact h.notReady r₀ hr₀
    · obtain ⟨definition, hid, hp⟩ := hc.refreshing other p hflight
      rw [step_cancel_eq hflight hp]
      refine h.of_calm (Function.update_of_ne hother ..) fun r hr => .inr (.inr ⟨r, ?_, rfl⟩)
      have hr' : rollup? table (after (restoreStep table other definition.build) c.state) id =
        some r := hr
      rwa [rollup?_restoreStep, if_neg hother] at hr'

/-- An outdated rollup stays so until a refresh of it gets its last answer. -/
theorem outdated_step (hc : c.Valid table) (h : Outdated table id c) (e : Event)
    (hcreate : e.CreatesPending id)
    (hreply : ∀ answers, e = .reply id answers → (c.inFlight id).isSome →
      ((c.step service table e).inFlight id).isSome) :
    Outdated table id (c.step service table e) := by
  cases e with
  | start other => exact h.step_start other
  | reply other answers =>
    exact h.step_reply hc other answers fun heq => hreply answers (heq ▸ rfl)
  | cancel other => exact h.step_cancel hc other
  | createRollup _ | updateRollup _ _ | deleteRollup _ | updateBaseMetric _ | tick _ =>
    exact h.step_of_call hc hcreate nofun nofun nofun

/-! ## How a refresh ends -/

/-- The event ends the refresh of `id` with success, and the table has been built
by the definition `built`. -/
def Succeeds (c : Session) (id : String) (e : Event) (built : RollupDefinition) : Prop :=
  ∃ p answers, c.inFlight id = some p ∧ e = .reply id answers ∧
    (p.resume answers c.state).1 = .ended (.ok built)

/-- When a refresh ends by an answer, its rollup is ready if and only if the refresh
has succeeded and the stored rollup has the layout of the table. -/
theorem isReady_iff_of_reply (hc : c.Valid table) {answers : Answers}
    (hflight : (c.inFlight id).isSome)
    (hend : (c.step service table (.reply id answers)).inFlight id = none) :
    (c.step service table (.reply id answers)).isReady table id ↔
      ∃ built r, c.Succeeds id (.reply id answers) built ∧ rollup? table c.state id = some r ∧
        r.sameLayout built := by
  obtain ⟨p, hp⟩ := Option.isSome_iff_exists.1 hflight
  obtain ⟨definition, hid, hrefreshing⟩ := hc.refreshing id p hp
  have hsucceeds (built : RollupDefinition) : c.Succeeds id (.reply id answers) built ↔
      (p.resume answers c.state).1 = .ended (.ok built) := by
    constructor
    · rintro ⟨p', answers', hp', he, hresume⟩
      obtain rfl : p = p' := Option.some.inj (hp.symm.trans hp')
      obtain rfl : answers = answers' := (Event.reply.inj he).2
      exact hresume
    · exact fun hresume => ⟨p, answers, hp, rfl, hresume⟩
  rcases step_reply_cases service hp hrefreshing answers with
    ⟨p', heq, -, -⟩ | ⟨result, hresult, heq⟩
  · rw [heq] at hend
    simp at hend
  · simp only [hsucceeds, hresult]
    have hbuilt := recordRefresh_id definition c.state.now result
    have hready : (c.step service table (.reply id answers)).isReady table id =
        (rollup? table (after (recordStep table (definition.recordRefresh c.state.now result).2)
          c.state) id).any (·.build.isReady) := by
      rw [heq]
      rfl
    rw [hready, rollup?_recordStep, if_pos (hbuilt.trans hid).symm]
    cases hr : rollup? table c.state id with
    | none => simp
    | some r =>
      rw [recordStep_run_fst hr]
      simp only [Option.map_some, Option.any_some, Option.some.injEq, isReady_ite_markStale]
      cases result with
      | error e =>
        have hfailed : (definition.build.markFailed e.asWarehouse.message).isReady = false := rfl
        simp [RollupDefinition.recordRefresh, Except.bind, Except.map, hfailed]
      | ok stats =>
        have hbuild : (definition.build.markReady stats c.state.now).isReady = true := rfl
        simp [RollupDefinition.recordRefresh, Except.bind, Except.map, hbuild]

/-! ## Redefinitions -/

/-- The refresh of `id` that is under way stays so while these events happen. -/
def StaysInFlight (service : Service) (table id : String) : Session → List Event → Prop
  | _, [] => True
  | c, e :: events => ((c.step service table e).inFlight id).isSome ∧
    StaysInFlight service table id (c.step service table e) events

/-- No refresh of `id` gets its last answer while these events happen. -/
def NoneFinishes (service : Service) (table id : String) : Session → List Event → Prop
  | _, [] => True
  | c, e :: events => (∀ answers, e = .reply id answers → (c.inFlight id).isSome →
      ((c.step service table e).inFlight id).isSome) ∧
    NoneFinishes service table id (c.step service table e) events

theorem NoneFinishes.of_staysInFlight {events : List Event}
    (h : StaysInFlight service table id c events) : NoneFinishes service table id c events := by
  induction events generalizing c with
  | nil => trivial
  | cons e rest ih => exact ⟨fun _ _ _ => h.1, ih h.2⟩

theorem inFlight_run_of_staysInFlight {events : List Event} (hflight : (c.inFlight id).isSome)
    (h : StaysInFlight service table id c events) :
    ((c.run service table events).inFlight id).isSome := by
  induction events generalizing c with
  | nil => exact hflight
  | cons e rest ih => exact ih h.1 h.2

theorem outdated_run (hc : c.Valid table) (h : Outdated table id c) {events : List Event}
    (hcreate : ∀ e ∈ events, e.CreatesPending id)
    (hevents : NoneFinishes service table id c events) :
    Outdated table id (c.run service table events) := by
  induction events generalizing c with
  | nil => exact h
  | cons e rest ih =>
    refine ih (valid_step hc e) (outdated_step hc h e (hcreate e List.mem_cons_self) hevents.1)
      (fun e' he' => hcreate e' (List.mem_cons_of_mem _ he')) hevents.2

/-- When a metric is redefined that a stored rollup holds, the rollup is outdated. -/
theorem outdated_of_redefined (hc : c.Valid table) {m : BaseMetric} {outcome : CascadeOutcome}
    (hupdate : ((service.updateBaseMetric table m).run c.state).1 = .ok outcome)
    {stored : RollupDefinition} (hstored : rollup? table c.state id = some stored)
    (hholds : RollupCatalog.holdsAny [m.id] stored = true) :
    Outdated table id (c.step service table (.updateBaseMetric m)) := by
  obtain ⟨old, hold, hnew⟩ := rollups_of_updateBaseMetric hupdate
  have hmarked : rollup? table (c.step service table (.updateBaseMetric m)).state id =
      some { stored with build := stored.build.markStale } := by
    rw [rollup?_of_loadRollups hold] at hstored
    refine (rollup?_of_loadRollups hnew).trans ?_
    refine (find?_markStaleForMetrics ..).trans ?_
    simp [hstored, hholds]
  have hstatus := status_markStale stored.build
  refine ⟨fun r hr => ?_, fun p hp => ?_⟩
  · obtain rfl := Option.some.inj (hmarked.symm.trans hr)
    rcases hstatus with h | h <;> simp [h]
  · obtain ⟨definition, hid, hrefreshing⟩ := hc.refreshing id p hp
    refine ⟨definition, hid, hrefreshing, fun _ r hr => ?_⟩
    obtain rfl := Option.some.inj (hmarked.symm.trans hr)
    rcases hstatus with h | h <;> simp [h]

theorem outdated_of_not_isReady (hflight : c.inFlight id = none)
    (hready : c.isReady table id = false) : Outdated table id c where
  notReady r hr h := by
    rw [isReady, hr] at hready
    simp [BuildState.isReady, h] at hready
  restored p hp := by
    rw [hflight] at hp
    cases hp

/-- A refresh ends by an answer to it or by its cancellation. -/
theorem ends_by_reply_or_cancel {e : Event} (hflight : (c.inFlight id).isSome)
    (hend : (c.step service table e).inFlight id = none) :
    (∃ answers, e = .reply id answers) ∨ e = .cancel id := by
  have hne : (c.step service table e).inFlight id ≠ c.inFlight id := by
    rw [hend]
    exact fun h => by simp [← h] at hflight
  cases e with
  | createRollup _ | updateRollup _ _ | deleteRollup _ | updateBaseMetric _ | tick _ =>
    exact absurd rfl hne
  | start other =>
    rcases step_start_cases service table other c with
      ⟨s, heq, -, -⟩ | ⟨definition, p, rollups, -, -, -, -, heq⟩
    · exact absurd (by rw [heq]) hne
    · rw [heq] at hend hne
      by_cases hother : id = other
      · subst hother
        simp at hend
      · exact absurd (Function.update_of_ne hother ..) hne
  | reply other answers =>
    by_cases hother : id = other
    · exact .inl ⟨answers, hother ▸ rfl⟩
    · rw [step] at hne
      split at hne
      · exact absurd rfl hne
      · exact absurd (Function.update_of_ne hother ..) hne
  | cancel other =>
    by_cases hother : id = other
    · exact .inr (hother ▸ rfl)
    · rw [step] at hne
      split at hne
      · exact absurd rfl hne
      · exact absurd (Function.update_of_ne hother ..) hne

/-- While a refresh of the rollup `id` is under way in `c`, the metric `m` that the
rollup holds is redefined; then the events `between` happen, and `last` ends the
refresh. -/
structure Redefinition (service : Service) (table id : String) (c : Session) (m : BaseMetric)
    (between : List Event) (last : Event) : Prop where
  reached : ∃ s before, DistinctIds table s ∧
    c = run service table { state := s } before
  inFlight : (c.inFlight id).isSome
  succeeds : ∃ outcome, ((service.updateBaseMetric table m).run c.state).1 = .ok outcome
  holds : ∃ stored, rollup? table c.state id = some stored ∧
    RollupCatalog.holdsAny [m.id] stored = true
  stays : StaysInFlight service table id (c.step service table (.updateBaseMetric m)) between
  pending : ∀ e ∈ between, e.CreatesPending id
  ends : (((c.step service table (.updateBaseMetric m)).run service table between).step service
    table last).inFlight id = none

/-- After the refresh the rollup is ready if and only if the refresh has succeeded and
the layout of the stored rollup is that of the table, redefined or not. If it is not
ready then, it is not until a later refresh of it has finished. -/
theorem isReady_iff_of_redefined {m : BaseMetric} {between : List Event} {last : Event}
    (h : Redefinition service table id c m between last) :
    let building := (c.step service table (.updateBaseMetric m)).run service table between
    let ended := building.step service table last
    (ended.isReady table id = true ↔ ∃ built r, building.Succeeds id last built ∧
      rollup? table building.state id = some r ∧ r.sameLayout built = true) ∧
    (ended.isReady table id = false → ∀ later, (∀ e ∈ later, e.CreatesPending id) →
      NoneFinishes service table id ended later →
        (ended.run service table later).isReady table id = false) := by
  intro building ended
  obtain ⟨s, before, hs, rfl⟩ := h.reached
  obtain ⟨outcome, hupdate⟩ := h.succeeds
  obtain ⟨stored, hstored, hholds⟩ := h.holds
  have hvalid : (run service table { state := s } before).Valid table :=
    valid_run (valid_start hs) before
  have hmarked := outdated_of_redefined hvalid hupdate hstored hholds
  have hvalid' : (step service table _ (.updateBaseMetric m)).Valid table := valid_step hvalid _
  have hbuilding : building.Valid table := valid_run hvalid' between
  have hflight : (building.inFlight id).isSome :=
    inFlight_run_of_staysInFlight (by exact h.inFlight) h.stays
  refine ⟨?_, fun hready later hcreate hlater => ?_⟩
  · rcases ends_by_reply_or_cancel hflight h.ends with ⟨answers, rfl⟩ | rfl
    · exact isReady_iff_of_reply hbuilding hflight h.ends
    · have hdropped : Outdated table id (building.step service table (.cancel id)) :=
        (outdated_run hvalid' hmarked h.pending (.of_staysInFlight h.stays)).step_cancel hbuilding id
      simp only [ended, hdropped.isReady_eq_false, Succeeds]
      simp
  · exact (outdated_run (valid_step hbuilding last) (outdated_of_not_isReady h.ends hready) hcreate
      hlater).isReady_eq_false

/-! ## A redefinition that is lost -/

/-- A metric that sums a column. -/
def clicks (column : String) : BaseMetric :=
  { id := "clicks", sourceColumns := [column], aggregation := .sum }

/-- A refresh of the clicks by day has asked for its table. -/
def buildingDaily : Session :=
  run {} "search"
    { state :=
        { store := ⟨[("search", { schema := some (.saved
            { table := "search"
              sourceTable := "raw.search"
              baseMetrics := [clicks "clicks"]
              dimensions := [{ id := "date", columnName := "date" }] }) })]⟩
          now := ⟨0, 0⟩ } }
    [.createRollup
        { id := "daily", dimensions := ["date"], metrics := [{ metricId := "clicks" }] },
      .start "daily"]

/-- The warehouse does what it is asked and has nothing to tell. -/
def quietWarehouse : Answers where
  reply
    | .execute _ => .ok {}
    | .dryRun _ => .ok ()
    | .columns _ => .ok {}
  counts queries := .ok (queries.map fun _ => 0)

theorem redefinition_buildingDaily (last : Event)
    (hlast : last = .reply "daily" quietWarehouse ∨ last = .cancel "daily") :
    Redefinition {} "search" "daily" buildingDaily (clicks "net_clicks")
      [.reply "daily" quietWarehouse] last where
  reached := by
    refine ⟨_, _, ?_, rfl⟩
    intro rollups h
    obtain rfl : [] = rollups := Except.ok.inj h
    exact List.nodup_nil
  inFlight := by decide +kernel
  succeeds := by
    have hok : ((({} : Service).updateBaseMetric "search" (clicks "net_clicks")).run
        buildingDaily.state).1.toOption.isSome = true := by decide +kernel
    revert hok
    cases (({} : Service).updateBaseMetric "search" (clicks "net_clicks")).run
      buildingDaily.state |>.1 with
    | ok outcome => exact fun _ => ⟨outcome, rfl⟩
    | error e => exact fun h => by cases h
  holds := Option.any_eq_true _ _ |>.1 (by decide +kernel)
  stays := ⟨by decide +kernel, trivial⟩
  pending := by
    intro e he definition heq
    rw [List.mem_singleton.1 he] at heq
    cases heq
  ends := by
    rcases hlast with rfl | rfl
    · exact Option.isNone_iff_eq_none.1 (by decide +kernel)
    · exact Option.isNone_iff_eq_none.1 (by decide +kernel)

/-- The mark of a metric that has been redefined is lost when the refresh succeeds. -/
theorem isReady_though_redefined :
    ((loadRegistry "search").run buildingDaily.state).1.toOption.bind (·.baseMetric? "clicks") =
        some (clicks "clicks") ∧
      clicks "net_clicks" ≠ clicks "clicks" ∧
      ∃ between last,
        Redefinition {} "search" "daily" buildingDaily (clicks "net_clicks") between last ∧
        (((buildingDaily.step {} "search" (.updateBaseMetric (clicks "net_clicks"))).run {} "search"
          between).step {} "search" last).isReady "search" "daily" = true :=
  ⟨by decide +kernel, by decide, [.reply "daily" quietWarehouse], .reply "daily" quietWarehouse,
    redefinition_buildingDaily _ (.inl rfl), by decide +kernel⟩

/-- The mark stays when the refresh is cancelled. -/
theorem not_isReady_of_cancelled :
    ((((buildingDaily.step {} "search" (.updateBaseMetric (clicks "net_clicks"))).run {} "search"
      [.reply "daily" quietWarehouse]).step {} "search" (.cancel "daily")).run {} "search"
        [.tick ⟨1, 0⟩]).isReady "search" "daily" = false := by
  refine (isReady_iff_of_redefined (redefinition_buildingDaily _ (.inr rfl))).2
    (by decide +kernel) [.tick ⟨1, 0⟩] (fun e he definition heq => ?_) ⟨nofun, trivial⟩
  rw [List.mem_singleton.1 he] at heq
  cases heq

end Session

end MetricLayer.Service
