import Mathlib.Logic.Function.Basic
import Mathlib.Tactic.Common
import MetricLayer.Proofs.Service.Refreshes

/-!
# Sessions on the rollups of a table

A session is a state with the refreshes that wait for the warehouse, at most one
for each rollup. It goes on by events: a call that does not wait is one event, and
a refresh is its start, the answers that it gets, and maybe its cancellation.

- `Changes`: what an event does to the rollups of the table, one lemma a call.
- `valid_run`: ids of rollups stay distinct, and a refresh under way holds its
  claim, so that no other refresh of the rollup can start.
-/

namespace MetricLayer.Service

open RollupCatalog (find?_modify ids_markStaleForMetrics ids_modify removeFirst_sublist)
open Work (Pause Answers)

/-- What may happen to the rollups of a table. -/
inductive Event where
  | createRollup (definition : RollupDefinition)
  | updateRollup (id : String) (change : RollupUpdate)
  | deleteRollup (id : String)
  | updateBaseMetric (m : BaseMetric)
  /-- The clock shows another time. -/
  | tick (now : Timestamp)
  | start (id : String)
  /-- The refresh of a rollup gets the answer that it waits for. -/
  | reply (id : String) (answers : Answers)
  | cancel (id : String)

structure Session where
  state : State
  /-- The refreshes under way, by the ids of their rollups. -/
  inFlight : String → Option (Pause State RollupDefinition) := fun _ => none

variable (service : Service) (table : String)

namespace Session

/-- A refresh has gone on as far as it gets without an answer. -/
def settle (c : Session) (id : String) (p : Pause State RollupDefinition) (s : State) : Session :=
  ⟨s, Function.update c.inFlight id (if p.hasEnded then none else some p)⟩

def step (c : Session) : Event → Session
  | .createRollup definition => { c with state := after (createRollup table definition) c.state }
  | .updateRollup id change => { c with state := after (updateRollup table id change) c.state }
  | .deleteRollup id => { c with state := after (deleteRollup table id) c.state }
  | .updateBaseMetric m => { c with state := after (service.updateBaseMetric table m) c.state }
  | .tick now => { c with state := { c.state with now } }
  | .start id =>
    let (p, s) := (service.refreshRollup table id).advance [] c.state
    if p.hasEnded then { c with state := s } else c.settle id p s
  | .reply id answers =>
    match c.inFlight id with
    | none => c
    | some p => c.settle id (p.resume answers c.state).1 (p.resume answers c.state).2
  | .cancel id =>
    match c.inFlight id with
    | none => c
    | some p => ⟨p.drop c.state, Function.update c.inFlight id none⟩

def run (c : Session) (events : List Event) : Session := events.foldl (step service table) c

end Session

/-- The stored rollup of that id. -/
def rollup? (s : State) (id : String) : Option RollupDefinition :=
  match s.store.loadRollups table with
  | .ok rollups => RollupCatalog.find? ⟨rollups⟩ id
  | .error _ => none

variable {service table} {s s' : State} {id : String} {α : Type}

theorem rollup?_of_loadRollups {rollups : List RollupDefinition}
    (h : s.store.loadRollups table = .ok rollups) :
    rollup? table s id = RollupCatalog.find? ⟨rollups⟩ id := by
  rw [rollup?, h]

/-! ## What calls do to stored rollups -/

/-- No claim has changed, and the rollups are the same or have changed so. -/
structure Changes (table : String) (change : List RollupDefinition → List RollupDefinition → Prop)
    (s s' : State) : Prop where
  claims : s'.claims = s.claims
  rollups : s'.store.loadRollups table = s.store.loadRollups table ∨
    ∃ old new, s.store.loadRollups table = .ok old ∧ s'.store.loadRollups table = .ok new ∧
      change old new

theorem Changes.refl (change : List RollupDefinition → List RollupDefinition → Prop) (s : State) :
    Changes table change s s := ⟨rfl, .inl rfl⟩

theorem changes_editCatalog {change : List RollupDefinition → List RollupDefinition → Prop}
    {edit : RollupCatalog → Except Error (α × RollupCatalog)}
    (h : ∀ old a c, edit ⟨old⟩ = .ok (a, c) → change old c.rollups) (s : State) :
    Changes table change s (after (editCatalog table edit) s) := by
  rw [after, editCatalog_run]
  cases hload : s.store.loadRollups table with
  | error e => exact .refl _ s
  | ok old =>
    dsimp only
    cases hedit : edit ⟨old⟩ with
    | error e => exact .refl _ s
    | ok result =>
      obtain ⟨a, c⟩ := result
      exact ⟨rfl, .inr ⟨old, c.rollups, hload, loadRollups_withRollups hload, h old a c hedit⟩⟩

/-- A call that works by the registry changes nothing if that cannot be loaded. -/
theorem changes_loadRegistry_bind {f : Registry → Act α}
    {change : List RollupDefinition → List RollupDefinition → Prop}
    (h : ∀ r, Changes table change s (after (f r) s)) :
    Changes table change s (after (loadRegistry table >>= f) s) := by
  rw [after, loadRegistry_bind_run]
  split
  · exact h _
  · exact .refl _ s

theorem changes_createRollup (definition : RollupDefinition) (s : State) :
    Changes table (fun old new => ∃ created, created.id = definition.id ∧
        created.build = definition.build ∧ RollupCatalog.find? ⟨old⟩ definition.id = none ∧
        new = old ++ [created]) s (after (createRollup table definition) s) := by
  refine changes_loadRegistry_bind fun r => changes_editCatalog (fun old a c h => ?_) s
  obtain ⟨hnew, -, ⟨_, hcreated⟩, hrollups⟩ := RollupCatalog.of_create h
  exact ⟨_, by rw [hcreated], by rw [hcreated], hnew, hrollups⟩

theorem changes_updateRollup (id : String) (change : RollupUpdate) (s : State) :
    Changes table (fun old new => ∃ now, new = (RollupCatalog.modify ⟨old⟩ id fun current =>
      RollupCatalog.updated current change now).rollups) s
        (after (updateRollup table id change) s) := by
  refine changes_loadRegistry_bind fun r => changes_editCatalog (fun old a c h => ?_) s
  obtain ⟨_, -, -, -, rfl⟩ := RollupCatalog.of_update h
  exact ⟨_, rfl⟩

theorem changes_deleteRollup (id : String) (s : State) :
    Changes table (fun old new => new = RollupCatalog.removeFirst id old) s
      (after (deleteRollup table id) s) := by
  refine changes_editCatalog (fun old a c h => ?_) s
  exact (RollupCatalog.of_delete h).2

/-- The update of a base metric fails and has changed no rollup, or it succeeds and
has marked every rollup that holds the metric. -/
theorem updateBaseMetric_cases (service : Service) (table : String) (m : BaseMetric) (s : State) :
    (∃ e s', (service.updateBaseMetric table m).run s = (.error e, s') ∧ SameRollups table s s') ∨
    ∃ outcome s' old, SameRollups table s s' ∧ s'.store.loadRollups table = .ok old ∧
      (service.updateBaseMetric table m).run s = (.ok outcome,
        withRollups table (RollupCatalog.markStaleForMetrics ⟨old⟩ [m.id]).2.rollups s') := by
  have hsame := sameRollups_editRegistry table table (·.updateBaseMetric service.dialect m) s
  rw [after] at hsame
  rw [Service.updateBaseMetric, Action.run_bind]
  rcases hrun : (editRegistry table (·.updateBaseMetric service.dialect m)).run s with ⟨result, s'⟩
  rw [hrun] at hsame
  cases result with
  | error e => exact .inl ⟨e, s', rfl, hsame⟩
  | ok outcome =>
    dsimp only
    rw [Action.run_bind, editCatalog_run]
    cases hload : s'.store.loadRollups table with
    | error e => exact .inl ⟨e, s', rfl, hsame⟩
    | ok old => exact .inr ⟨outcome, s', old, hsame, hload, rfl⟩

theorem changes_updateBaseMetric (service : Service) (m : BaseMetric) (s : State) :
    Changes table (fun old new => new = (RollupCatalog.markStaleForMetrics ⟨old⟩ [m.id]).2.rollups)
      s (after (service.updateBaseMetric table m) s) := by
  rw [after]
  rcases updateBaseMetric_cases service table m s with
    ⟨e, s', heq, hsame⟩ | ⟨outcome, s', old, hsame, hload, heq⟩
  · rw [heq]
    exact ⟨hsame.claims, .inl hsame.rollups⟩
  · rw [heq]
    exact ⟨hsame.claims, .inr ⟨old, _, hsame.rollups ▸ hload, loadRollups_withRollups hload, rfl⟩⟩

/-- If the update of a metric succeeds, every rollup that holds it has been marked. -/
theorem rollups_of_updateBaseMetric {m : BaseMetric} {outcome : CascadeOutcome}
    (h : ((service.updateBaseMetric table m).run s).1 = .ok outcome) :
    ∃ old, s.store.loadRollups table = .ok old ∧
      (after (service.updateBaseMetric table m) s).store.loadRollups table =
        .ok (RollupCatalog.markStaleForMetrics ⟨old⟩ [m.id]).2.rollups := by
  rw [after]
  rcases updateBaseMetric_cases service table m s with
    ⟨e, s', heq, -⟩ | ⟨outcome, s', old, hsame, hload, heq⟩
  · rw [heq] at h
    cases h
  · rw [heq]
    exact ⟨old, hsame.rollups ▸ hload, loadRollups_withRollups hload⟩

theorem changes_recordStep (built : RollupDefinition) (s : State) :
    Changes table (fun old new => new = (recordBuild built ⟨old⟩).rollups) s
      (after (recordStep table built) s) := by
  refine changes_editCatalog (fun old a c h => ?_) s
  obtain ⟨-, rfl⟩ := Prod.mk.inj (Except.ok.inj h)
  rfl

theorem changes_restoreStep (id : String) (previous : BuildState) (s : State) :
    Changes table (fun old new => new = (restoreRollup id previous ⟨old⟩).rollups) s
      (after (restoreStep table id previous) s) := by
  refine changes_editCatalog (fun old a c h => ?_) s
  obtain ⟨-, rfl⟩ := Prod.mk.inj (Except.ok.inj h)
  rfl

theorem rollup?_withRollups_modify {rollups : List RollupDefinition}
    {change : RollupDefinition → RollupDefinition} (hid : ∀ r, (change r).id = r.id)
    (hload : s.store.loadRollups table = .ok rollups) (other id : String) :
    rollup? table (withRollups table (RollupCatalog.modify ⟨rollups⟩ other change).rollups s) id =
      if id = other then (rollup? table s id).map change else rollup? table s id := by
  rw [rollup?_of_loadRollups hload, rollup?_of_loadRollups (loadRollups_withRollups hload),
    find?_modify hid]
  split
  · rename_i heq
    rw [heq]
  · rfl

theorem rollup?_after_modify {other : String} {change : RollupDefinition → RollupDefinition}
    (hid : ∀ r, (change r).id = r.id) (s : State) (id : String) :
    rollup? table (after (editCatalog table fun c => .ok ((), c.modify other change)) s) id =
      if id = other then (rollup? table s id).map change else rollup? table s id := by
  rw [after, editCatalog_run]
  cases hload : s.store.loadRollups table with
  | error e => simp [rollup?, hload]
  | ok rollups => exact rollup?_withRollups_modify hid hload other id

theorem rollup?_recordStep (built : RollupDefinition) (s : State) (id : String) :
    rollup? table (after (recordStep table built) s) id =
      if id = built.id then
        (rollup? table s id).map (fun stored =>
          let build := if stored.sameLayout built then built.build else built.build.markStale
          { stored with build })
      else rollup? table s id := by
  refine rollup?_after_modify ?_ s id
  exact fun _ => rfl

theorem rollup?_recordStep_of_ne {built : RollupDefinition} (h : id ≠ built.id) :
    rollup? table (after (recordStep table built) s) id = rollup? table s id := by
  rw [rollup?_recordStep, if_neg h]

theorem rollup?_restoreStep (other : String) (previous : BuildState) (s : State) (id : String) :
    rollup? table (after (restoreStep table other previous) s) id =
      if id = other then
        (rollup? table s id).map (fun r =>
          if r.build.status = .building then { r with build := previous } else r)
      else rollup? table s id := by
  refine rollup?_after_modify (fun r => ?_) s id
  split <;> rfl

/-! ## Ids of rollups -/

/-- The ids of the rollups of a table are distinct. -/
def DistinctIds (table : String) (s : State) : Prop :=
  ∀ rollups, s.store.loadRollups table = .ok rollups → (rollups.map (·.id)).Nodup

theorem Changes.distinctIds {change : List RollupDefinition → List RollupDefinition → Prop}
    (h : Changes table change s s') (hs : DistinctIds table s)
    (hchange : ∀ old new, change old new → (old.map (·.id)).Nodup → (new.map (·.id)).Nodup) :
    DistinctIds table s' := by
  intro rollups hload
  rcases h.rollups with heq | ⟨old, new, hold, hnew, hc⟩
  · exact hs rollups (heq ▸ hload)
  · obtain rfl := Except.ok.inj (hnew.symm.trans hload)
    exact hchange old _ hc (hs old hold)

/-! ## What holds in every session -/

theorem rollupKey_injective (table : String) : Function.Injective (rollupKey table) := by
  intro a b h
  have hlist := congrArg String.toList h
  simp only [rollupKey, String.toList_append, List.append_cancel_left_eq] at hlist
  exact String.toList_injective hlist

theorem isRunning_releaseClaim {other : String} (h : other ≠ id) (s : State) :
    (releaseClaim table id s).claims.isRunning (rollupKey table other) =
      s.claims.isRunning (rollupKey table other) := by
  simp [releaseClaim, Claims.isRunning_release, (rollupKey_injective table).ne h]

namespace Session

/-- Ids of rollups are distinct, and a refresh under way holds its claim. -/
structure Valid (table : String) (c : Session) : Prop where
  distinct : DistinctIds table c.state
  claimed : ∀ id, (c.inFlight id).isSome → c.state.claims.isRunning (rollupKey table id) = true
  refreshing : ∀ id p, c.inFlight id = some p → ∃ definition : RollupDefinition,
    definition.id = id ∧ Refreshing table id definition p

variable {c : Session} {change : List RollupDefinition → List RollupDefinition → Prop}

/-- A call that waits for nothing. -/
theorem Valid.of_changes (h : c.Valid table) (hs : Changes table change c.state s)
    (hchange : ∀ old new, change old new → (old.map (·.id)).Nodup → (new.map (·.id)).Nodup) :
    Valid table { c with state := s } where
  distinct := hs.distinctIds h.distinct hchange
  claimed id hid := by
    change s.claims.isRunning _ = true
    rw [hs.claims]
    exact h.claimed id hid
  refreshing := h.refreshing

/-- The refresh of `id` ends. -/
theorem Valid.of_ended (h : c.Valid table) (hs : Changes table change c.state s)
    (hchange : ∀ old new, change old new → (old.map (·.id)).Nodup → (new.map (·.id)).Nodup) :
    Valid table ⟨releaseClaim table id s, Function.update c.inFlight id none⟩ where
  distinct := hs.distinctIds h.distinct hchange
  claimed other hother := by
    by_cases heq : other = id
    · subst heq
      simp at hother
    · simp only [Function.update_of_ne heq] at hother
      change (releaseClaim table id s).claims.isRunning _ = true
      rw [isRunning_releaseClaim heq, hs.claims]
      exact h.claimed other hother
  refreshing other p hp := by
    by_cases heq : other = id
    · subst heq
      simp at hp
    · simp only [Function.update_of_ne heq] at hp
      exact h.refreshing other p hp

theorem nodup_of_ids_eq {old new : List RollupDefinition}
    (h : new.map (·.id) = old.map (·.id)) (hold : (old.map (·.id)).Nodup) :
    (new.map (·.id)).Nodup := by
  rwa [h]

/-- The refresh of `id` waits for the warehouse. -/
theorem Valid.of_waiting (h : c.Valid table) {p : Pause State RollupDefinition}
    {definition : RollupDefinition} (hid : definition.id = id)
    (hp : Refreshing table id definition p) (hs : DistinctIds table s)
    (hclaimed : s.claims.isRunning (rollupKey table id) = true)
    (hclaims : ∀ key, c.state.claims.isRunning key = true → s.claims.isRunning key = true) :
    Valid table ⟨s, Function.update c.inFlight id (some p)⟩ := by
  refine ⟨hs, fun other hother => ?_, fun other p' hp' => ?_⟩
  · by_cases heq : other = id
    · exact heq ▸ hclaimed
    · simp only [Function.update_of_ne heq] at hother
      exact hclaims _ (h.claimed other hother)
  · by_cases heq : other = id
    · subst heq
      obtain rfl : p = p' := by simpa using hp'
      exact ⟨definition, hid, hp⟩
    · simp only [Function.update_of_ne heq] at hp'
      exact h.refreshing other p' hp'

/-! ## The steps of a refresh in a session -/

theorem step_start_cases (service : Service) (table id : String) (c : Session) :
    (∃ s, c.step service table (.start id) = { c with state := s } ∧
      s.store.loadRollups table = c.state.store.loadRollups table ∧
      ∀ key, s.claims.isRunning key = c.state.claims.isRunning key) ∨
    ∃ definition p rollups, c.state.store.loadRollups table = .ok rollups ∧
      RollupCatalog.find? ⟨rollups⟩ id = some definition ∧ Refreshing table id definition p ∧
      c.state.claims.isRunning (rollupKey table id) = false ∧
      c.step service table (.start id) =
        ⟨withRollups table (RollupCatalog.modify ⟨rollups⟩ id markBuilding).rollups
          (takeClaim table id c.state), Function.update c.inFlight id (some p)⟩ := by
  simp only [step]
  rcases refreshRollup_cases service table id c.state with
    ⟨result, s, heq, hrollups, hclaims, -⟩ |
      ⟨definition, p, rollups, hload, hfind, hp, hfree, heq⟩
  · rw [heq]
    exact .inl ⟨s, rfl, hrollups, hclaims⟩
  · rw [heq]
    refine .inr ⟨definition, p, rollups, hload, hfind, hp, hfree, ?_⟩
    simp only [hp.hasEnded_eq_false, settle]
    rfl

theorem step_reply_of_none (h : c.inFlight id = none) (answers : Answers) :
    c.step service table (.reply id answers) = c := by
  rw [step, h]

theorem step_reply_cases (service : Service) {p : Pause State RollupDefinition}
    {definition : RollupDefinition} (hflight : c.inFlight id = some p)
    (hp : Refreshing table id definition p) (answers : Answers) :
    (∃ p', c.step service table (.reply id answers) =
        ⟨c.state, Function.update c.inFlight id (some p')⟩ ∧
      (p.resume answers c.state).1 = p' ∧ Refreshing table id definition p') ∨
    ∃ result : Except Error TableStats,
      (p.resume answers c.state).1 =
        .ended (((recordStep table (definition.recordRefresh c.state.now result).2).run
            c.state).1.bind fun _ => (definition.recordRefresh c.state.now result).1.map fun _ =>
              (definition.recordRefresh c.state.now result).2) ∧
      c.step service table (.reply id answers) =
        ⟨releaseClaim table id
            (after (recordStep table (definition.recordRefresh c.state.now result).2) c.state),
          Function.update c.inFlight id none⟩ := by
  simp only [step, hflight]
  rcases hp.resume_cases answers c.state with ⟨p', heq, hp'⟩ | ⟨result, heq⟩
  · refine .inl ⟨p', ?_, by rw [heq], hp'⟩
    rw [heq, settle, hp'.hasEnded_eq_false]
    rfl
  · refine .inr ⟨result, by rw [heq], ?_⟩
    rw [heq]
    rfl

theorem step_cancel_of_none (h : c.inFlight id = none) :
    c.step service table (.cancel id) = c := by
  rw [step, h]

theorem step_cancel_eq {p : Pause State RollupDefinition} {definition : RollupDefinition}
    (hflight : c.inFlight id = some p) (hp : Refreshing table id definition p) :
    c.step service table (.cancel id) =
      ⟨releaseClaim table id (after (restoreStep table id definition.build) c.state),
        Function.update c.inFlight id none⟩ := by
  simp only [step, hflight, hp.drop_eq]

theorem Valid.start (h : c.Valid table) (service : Service) (id : String) :
    (c.step service table (.start id)).Valid table := by
  rcases step_start_cases service table id c with
    ⟨s, heq, hrollups, hclaims⟩ | ⟨definition, p, rollups, hload, hfind, hp, -, heq⟩
  · rw [heq]
    refine ⟨fun rollups hload => h.distinct rollups (hrollups ▸ hload), fun other hother => ?_,
      h.refreshing⟩
    exact (hclaims _).trans (h.claimed other hother)
  · rw [heq]
    refine h.of_waiting (by simpa using List.find?_some hfind) hp ?_ ?_ ?_
    · intro new hnew
      obtain rfl := Except.ok.inj ((loadRollups_withRollups hload).symm.trans hnew)
      exact nodup_of_ids_eq (ids_modify fun _ => rfl) (h.distinct rollups hload)
    · simp [withRollups, takeClaim, Claims.isRunning]
    · intro key hkey
      simp only [Claims.isRunning, List.contains_eq_mem, decide_eq_true_eq] at hkey
      simp [withRollups, takeClaim, Claims.isRunning, hkey]

theorem Valid.reply (h : c.Valid table) (service : Service) (id : String) (answers : Answers) :
    (c.step service table (.reply id answers)).Valid table := by
  cases hflight : c.inFlight id with
  | none => exact (step_reply_of_none hflight answers).symm ▸ h
  | some p =>
    obtain ⟨definition, hid, hp⟩ := h.refreshing id p hflight
    rcases step_reply_cases service hflight hp answers with
      ⟨p', heq, -, hp'⟩ | ⟨result, -, heq⟩
    · rw [heq]
      exact h.of_waiting hid hp' h.distinct (h.claimed id (by simp [hflight])) fun _ hkey => hkey
    · rw [heq]
      refine h.of_ended (changes_recordStep _ c.state) ?_
      rintro old new rfl hold
      exact nodup_of_ids_eq (ids_modify fun _ => rfl) hold

theorem Valid.cancel (h : c.Valid table) (service : Service) (id : String) :
    (c.step service table (.cancel id)).Valid table := by
  cases hflight : c.inFlight id with
  | none => exact (step_cancel_of_none hflight).symm ▸ h
  | some p =>
    obtain ⟨definition, hid, hp⟩ := h.refreshing id p hflight
    rw [step_cancel_eq hflight hp]
    refine h.of_ended (changes_restoreStep id definition.build c.state) ?_
    rintro old new rfl hold
    refine nodup_of_ids_eq (ids_modify fun r => ?_) hold
    split <;> rfl

theorem valid_step (h : c.Valid table) (e : Event) : (c.step service table e).Valid table := by
  cases e with
  | createRollup definition =>
    refine h.of_changes (changes_createRollup definition c.state) ?_
    rintro old new ⟨created, hid, -, hnew, rfl⟩ hold
    have hfree : definition.id ∉ old.map (·.id) := by
      simpa [RollupCatalog.find?, List.find?_eq_none] using hnew
    rw [List.map_append, List.nodup_append]
    refine ⟨hold, by simp, ?_⟩
    rintro a ha b hb rfl
    obtain rfl : a = definition.id := by simpa [hid] using hb
    exact hfree ha
  | updateRollup id change =>
    refine h.of_changes (changes_updateRollup id change c.state) ?_
    rintro old new ⟨now, rfl⟩ hold
    exact nodup_of_ids_eq (ids_modify fun _ => rfl) hold
  | deleteRollup id =>
    refine h.of_changes (changes_deleteRollup id c.state) ?_
    rintro old new rfl hold
    exact hold.sublist ((removeFirst_sublist id old).map _)
  | updateBaseMetric m =>
    refine h.of_changes (changes_updateBaseMetric service m c.state) ?_
    rintro old new rfl hold
    exact nodup_of_ids_eq (ids_markStaleForMetrics ⟨old⟩ [m.id]) hold
  | tick now =>
    have hsame : Changes table (fun _ _ => False) c.state { c.state with now } := ⟨rfl, .inl rfl⟩
    exact h.of_changes hsame fun _ _ => False.elim
  | start id => exact h.start service id
  | reply id answers => exact h.reply service id answers
  | cancel id => exact h.cancel service id

theorem valid_run (h : c.Valid table) (events : List Event) :
    (c.run service table events).Valid table := by
  induction events generalizing c with
  | nil => exact h
  | cons e rest ih => exact ih (valid_step h e)

/-- A session in which no refresh is under way. -/
theorem valid_start (h : DistinctIds table s) : Valid table { state := s } where
  distinct := h
  claimed _ hid := by cases hid
  refreshing _ _ hp := by cases hp

end Session

end MetricLayer.Service
