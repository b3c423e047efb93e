import MetricLayer.Proofs.Service.Staleness
import MetricLayer.Proofs.Service.Traffic

/-!
# Refreshes change builds alone

What calls do to rollups does not depend on how they were built, so the rollups are
the same as if no refresh had begun, but for their builds (`sameDefinitions_run`). A
refresh that is cancelled puts the build back: if no call has changed its rollup
meanwhile, the rollup is what it was (`rollup?_of_cancelled`). With what holds in all
traffic this is the protocol that refreshes keep to, `refresh_protocol`.
-/

namespace MetricLayer.Service

open RollupCatalog (find?_modify map_modify)
open Work (Pause)

variable {service : Service} {α : Type} {table id : String} {s s' : State}

/-! ## Rollups apart from their builds -/

/-- A rollup as one that was never built. -/
def withoutBuild (r : RollupDefinition) : RollupDefinition := { r with build := {} }

/-- The edit does the same to rollups that are built in another way. -/
def IgnoresBuilds (edit : RollupCatalog → Except Error (α × RollupCatalog)) : Prop :=
  ∀ rollups, (edited edit (rollups.map withoutBuild)).map withoutBuild =
    (edited edit rollups).map withoutBuild

theorem map_withoutBuild_idem (rollups : List RollupDefinition) :
    (rollups.map withoutBuild).map withoutBuild = rollups.map withoutBuild := by
  rw [List.map_map]
  rfl

theorem IgnoresBuilds.edited_congr {edit : RollupCatalog → Except Error (α × RollupCatalog)}
    (h : IgnoresBuilds edit) {old old' : List RollupDefinition}
    (hold : old.map withoutBuild = old'.map withoutBuild) :
    (edited edit old).map withoutBuild = (edited edit old').map withoutBuild := by
  rw [← h, hold, h]

theorem find?_map_withoutBuild (rollups : List RollupDefinition) (id : String) :
    RollupCatalog.find? ⟨rollups.map withoutBuild⟩ id =
      (RollupCatalog.find? ⟨rollups⟩ id).map withoutBuild := by
  simp only [RollupCatalog.find?, List.find?_map]
  rfl

theorem map_modify_withoutBuild {change : RollupDefinition → RollupDefinition}
    (hchange : ∀ r, withoutBuild (change (withoutBuild r)) = withoutBuild (change r))
    (rollups : List RollupDefinition) (id : String) :
    (RollupCatalog.modify ⟨rollups.map withoutBuild⟩ id change).rollups.map withoutBuild =
      (RollupCatalog.modify ⟨rollups⟩ id change).rollups.map withoutBuild := by
  simp only [RollupCatalog.modify]
  induction rollups with
  | nil => rfl
  | cons r rest ih =>
    have hid : (withoutBuild r).id = r.id := rfl
    simp only [List.map_cons, RollupCatalog.modify.go, hid]
    split
    · rw [List.map_cons, List.map_cons, hchange, map_withoutBuild_idem]
    · rw [List.map_cons, List.map_cons, ih]
      rfl

theorem ignoresBuilds_create (r : Registry) (now : Timestamp) (definition : RollupDefinition) :
    IgnoresBuilds (·.create r now definition) := by
  intro rollups
  simp only [edited, RollupCatalog.create, find?_map_withoutBuild, Option.isSome_map]
  cases Registry.checkId definition.id with
  | error e => exact map_withoutBuild_idem rollups
  | ok _ =>
    simp only [bind, Except.bind]
    cases (RollupCatalog.find? ⟨rollups⟩ definition.id).isSome with
    | true => exact map_withoutBuild_idem rollups
    | false =>
      cases RollupCatalog.checkShape r definition.dimensions definition.metrics with
      | error e => exact map_withoutBuild_idem rollups
      | ok _ =>
        simp only [Bool.false_eq_true, if_false, List.map_append, map_withoutBuild_idem]

theorem ignoresBuilds_update (r : Registry) (now : Timestamp) (id : String)
    (change : RollupUpdate) : IgnoresBuilds (·.update r now id change) := by
  intro rollups
  simp only [edited, RollupCatalog.update, find?_map_withoutBuild]
  cases RollupCatalog.find? ⟨rollups⟩ id with
  | none => exact map_withoutBuild_idem rollups
  | some current =>
    have hshape : RollupCatalog.checkShape r (change.dimensions.getD (withoutBuild current).dimensions)
        (change.metrics.getD (withoutBuild current).metrics) =
      RollupCatalog.checkShape r (change.dimensions.getD current.dimensions)
        (change.metrics.getD current.metrics) := rfl
    simp only [Option.map_some, hshape]
    cases RollupCatalog.checkShape r (change.dimensions.getD current.dimensions)
        (change.metrics.getD current.metrics) with
    | error e => exact map_withoutBuild_idem rollups
    | ok _ => exact map_modify_withoutBuild (fun _ => rfl) rollups id

theorem ignoresBuilds_delete (id : String) : IgnoresBuilds (·.delete id) := by
  intro rollups
  have hid (r : RollupDefinition) : (withoutBuild r).id = r.id := rfl
  simp only [edited, RollupCatalog.delete, find?_map_withoutBuild]
  cases RollupCatalog.find? ⟨rollups⟩ id with
  | none => exact map_withoutBuild_idem rollups
  | some current =>
    simp only [Option.map_some, RollupCatalog.removeFirst_map hid, map_withoutBuild_idem]

theorem ignoresBuilds_markStaleForMetrics (ids : List String) :
    IgnoresBuilds fun c => .ok (c.markStaleForMetrics ids) := by
  intro rollups
  simp only [edited, RollupCatalog.markStaleForMetrics, List.map_map]
  refine List.map_congr_left fun r _ => ?_
  have hholds : RollupCatalog.holdsAny ids (withoutBuild r) = RollupCatalog.holdsAny ids r := rfl
  simp only [Function.comp_apply, hholds]
  split <;> rfl

/-! ## States apart from builds -/

/-- Schemas, the clock and the rollups of all tables are the same, but for how the
rollups were built. -/
structure SameDefinitions (s s' : State) : Prop where
  schemas : ∀ table, (s'.store.files table).schema = (s.store.files table).schema
  rollups : ∀ table, (s'.store.loadRollups table).map (·.map withoutBuild) =
    (s.store.loadRollups table).map (·.map withoutBuild)
  now : s'.now = s.now

namespace SameDefinitions

theorem refl (s : State) : SameDefinitions s s := ⟨fun _ => rfl, fun _ => rfl, rfl⟩

theorem symm (h : SameDefinitions s s') : SameDefinitions s' s :=
  ⟨fun table => (h.schemas table).symm, fun table => (h.rollups table).symm, h.now.symm⟩

theorem trans {s'' : State} (h : SameDefinitions s s') (h' : SameDefinitions s' s'') :
    SameDefinitions s s'' where
  schemas table := (h'.schemas table).trans (h.schemas table)
  rollups table := (h'.rollups table).trans (h.rollups table)
  now := h'.now.trans h.now

theorem of_elsewhere (h : Elsewhere table s s')
    (hrollups : (s'.store.loadRollups table).map (·.map withoutBuild) =
      (s.store.loadRollups table).map (·.map withoutBuild)) : SameDefinitions s s' where
  schemas := h.schemas
  rollups other := by
    by_cases hother : other = table
    · exact hother ▸ hrollups
    · rw [h.rollups other hother]
  now := h.now

/-- A call to edit rollups, made in both states. -/
theorem editCatalog (h : SameDefinitions s s')
    {edit : RollupCatalog → Except Error (α × RollupCatalog)} (hedit : IgnoresBuilds edit)
    (table : String) :
    SameDefinitions (after (editCatalog table edit) s) (after (editCatalog table edit) s') := by
  have helse : Elsewhere table s _ := elsewhere_editCatalog edit s
  have helse' : Elsewhere table s' _ := elsewhere_editCatalog edit s'
  refine ⟨fun other => ?_, fun other => ?_, ?_⟩
  · rw [helse'.schemas, helse.schemas, h.schemas]
  · by_cases hother : other = table
    · subst hother
      have hrollups := h.rollups other
      rw [loadRollups_editCatalog, loadRollups_editCatalog]
      revert hrollups
      cases s.store.loadRollups other with
      | error e =>
        cases s'.store.loadRollups other with
        | error e' => exact fun hrollups => hrollups
        | ok rollups' => exact fun hrollups => by cases hrollups
      | ok rollups =>
        cases s'.store.loadRollups other with
        | error e' => exact fun hrollups => by cases hrollups
        | ok rollups' =>
          exact fun hrollups => congrArg Except.ok (hedit.edited_congr (Except.ok.inj hrollups))
    · rw [helse'.rollups other hother, helse.rollups other hother, h.rollups]
  · rw [helse'.now, helse.now, h.now]

theorem loadRegistry (h : SameDefinitions s s') (table : String) :
    ((loadRegistry table).run s').1 = ((loadRegistry table).run s).1 :=
  loadRegistry_congr (h.schemas table)

/-- A call that works by the registry, made in both states. -/
theorem loadRegistry_bind (h : SameDefinitions s s') {f : Registry → Act α}
    (hf : ∀ r, SameDefinitions (after (f r) s) (after (f r) s')) :
    SameDefinitions (after (Service.loadRegistry table >>= f) s)
      (after (Service.loadRegistry table >>= f) s') := by
  rw [after, after, loadRegistry_bind_run, loadRegistry_bind_run, h.loadRegistry]
  split
  · exact hf _
  · exact h

theorem save (h : SameDefinitions s s') (r : Registry) :
    ((save r).run s').1 = ((save r).run s).1 ∧
      SameDefinitions (after (save r) s) (after (save r) s') := by
  have hrollups (table : String) : (after (Service.save r) s).store.loadRollups table =
      s.store.loadRollups table := (sameRollups_save r table s).rollups
  have hrollups' (table : String) : (after (Service.save r) s').store.loadRollups table =
      s'.store.loadRollups table := (sameRollups_save r table s').rollups
  suffices hsave : ((Service.save r).run s').1 = ((Service.save r).run s).1 ∧
      (∀ table, ((after (Service.save r) s').store.files table).schema =
        ((after (Service.save r) s).store.files table).schema) ∧
      (after (Service.save r) s').now = (after (Service.save r) s).now by
    refine ⟨hsave.1, hsave.2.1, fun table => ?_, hsave.2.2⟩
    rw [hrollups, hrollups', h.rollups]
  simp only [after, Service.save, Action.run_bind, Action.run_get, Action.run_lift, Store.saveSchema,
    h.now]
  cases Store.checkName r.document.table with
  | error e => exact ⟨rfl, h.schemas, h.now⟩
  | ok _ =>
    simp only [bind, Except.bind, Action.run_set, Store.files_modifyFiles]
    refine ⟨trivial, fun table => ?_, trivial⟩
    split
    · rfl
    · exact h.schemas table

theorem editRegistry (h : SameDefinitions s s') (table : String)
    (edit : Registry → Registry.Edited α) :
    ((editRegistry table edit).run s').1 = ((editRegistry table edit).run s).1 ∧
      SameDefinitions (after (editRegistry table edit) s) (after (editRegistry table edit) s') := by
  rw [after, after, editRegistry_run, editRegistry_run, h.loadRegistry]
  split
  · exact ⟨rfl, h⟩
  · split
    · exact ⟨rfl, h⟩
    · rename_i r _
      obtain ⟨hresult, hsame⟩ := h.save r
      exact ⟨congrArg (Except.map _) hresult, hsame⟩

/-! ### Calls -/

/-- An edit that records when it was made. -/
theorem timedEdit (h : SameDefinitions s s')
    {edit : Timestamp → RollupCatalog → Except Error (α × RollupCatalog)}
    (hedit : ∀ now, IgnoresBuilds (edit now)) (table : String) :
    SameDefinitions
      (after (do let s ← get; Service.editCatalog table (edit s.now) : Act α) s)
      (after (do let s ← get; Service.editCatalog table (edit s.now) : Act α) s') := by
  change SameDefinitions (after (Service.editCatalog table (edit s.now)) s)
    (after (Service.editCatalog table (edit s'.now)) s')
  rw [h.now]
  exact h.editCatalog (hedit s.now) table

theorem createRollup (h : SameDefinitions s s') (table : String) (definition : RollupDefinition) :
    SameDefinitions (after (createRollup table definition) s)
      (after (createRollup table definition) s') :=
  h.loadRegistry_bind fun r => h.timedEdit (ignoresBuilds_create r · definition) table

theorem updateRollup (h : SameDefinitions s s') (table id : String) (change : RollupUpdate) :
    SameDefinitions (after (updateRollup table id change) s)
      (after (updateRollup table id change) s') :=
  h.loadRegistry_bind fun r => h.timedEdit (ignoresBuilds_update r · id change) table

theorem updateBaseMetric (h : SameDefinitions s s') (service : Service) (table : String)
    (m : BaseMetric) : SameDefinitions (after (service.updateBaseMetric table m) s)
      (after (service.updateBaseMetric table m) s') := by
  obtain ⟨hresult, hsame⟩ := h.editRegistry table (·.updateBaseMetric service.dialect m)
  rw [after_updateBaseMetric, after_updateBaseMetric, hresult]
  split
  · exact hsame.editCatalog (ignoresBuilds_markStaleForMetrics _) table
  · exact hsame

end SameDefinitions

/-! ## Rollups that are built -/

/-- All is the same but how the first rollup of one id was built. -/
structure Rebuilds (table id : String) (s s' : State) : Prop where
  elsewhere : Elsewhere table s s'
  rollups : ∃ change : RollupDefinition → RollupDefinition,
    (∀ r, withoutBuild (change r) = withoutBuild r) ∧
      s'.store.loadRollups table = (s.store.loadRollups table).map fun rollups =>
        (RollupCatalog.modify ⟨rollups⟩ id change).rollups

theorem rebuilds_editCatalog {change : RollupDefinition → RollupDefinition}
    (hchange : ∀ r, withoutBuild (change r) = withoutBuild r) (table id : String) (s : State) :
    Rebuilds table id s (after (editCatalog table fun c => .ok ((), c.modify id change)) s) :=
  ⟨elsewhere_editCatalog _ s, change, hchange, loadRollups_editCatalog _ s⟩

theorem rebuilds_recordStep (table : String) (built : RollupDefinition) (s : State) :
    Rebuilds table built.id s (after (recordStep table built) s) := by
  refine rebuilds_editCatalog (fun _ => ?_) table built.id s
  rfl

theorem rebuilds_restoreStep (table id : String) (previous : BuildState) (s : State) :
    Rebuilds table id s (after (restoreStep table id previous) s) := by
  refine rebuilds_editCatalog (fun r => ?_) table id s
  split <;> rfl

/-- A refresh that begins claims its rollup and marks it. -/
theorem rebuilds_takeClaim {rollups : List RollupDefinition} (id : String)
    (h : s.store.loadRollups table = .ok rollups) :
    Rebuilds table id s
      (withRollups table (RollupCatalog.modify ⟨rollups⟩ id markBuilding).rollups
        (takeClaim table id s)) := by
  have hload : (takeClaim table id s).store.loadRollups table = .ok rollups := h
  refine ⟨(elsewhere_takeClaim table id s).trans (elsewhere_withRollups ..), markBuilding,
    fun _ => rfl, ?_⟩
  rw [loadRollups_withRollups hload, h]
  rfl

theorem Rebuilds.sameDefinitions (h : Rebuilds table id s s') : SameDefinitions s s' := by
  obtain ⟨change, hchange, hrollups⟩ := h.rollups
  refine .of_elsewhere h.elsewhere ?_
  rw [hrollups]
  cases s.store.loadRollups table with
  | error e => rfl
  | ok rollups => exact congrArg Except.ok (map_modify hchange)

theorem rollup?_congr (h : s'.store.loadRollups table = s.store.loadRollups table) (id : String) :
    rollup? table s' id = rollup? table s id := by
  simp only [rollup?, h]

theorem Rebuilds.rollup?_of_ne (h : Rebuilds table id s s') {other otherId : String}
    (hne : other = table → otherId ≠ id) : rollup? other s' otherId = rollup? other s otherId := by
  by_cases hother : other = table
  · subst hother
    obtain ⟨change, hchange, hrollups⟩ := h.rollups
    have hid (r : RollupDefinition) : (change r).id = r.id := congrArg (·.id) (hchange r)
    rw [rollup?, rollup?, hrollups]
    cases s.store.loadRollups other with
    | error e => rfl
    | ok rollups => exact (find?_modify hid otherId).trans (if_neg (hne rfl))
  · exact rollup?_congr (h.elsewhere.rollups other hother) otherId

namespace Traffic

variable {c c' : Traffic} {caller : Nat} {call : Call}

/-- The steps of refreshes, unlike other calls. -/
def Event.isRefresh : Event → Bool
  | .start .. | .reply .. | .cancel .. => true
  | _ => false

theorem Begins.rebuilds {definition : RollupDefinition} {rollups : List RollupDefinition}
    {pause : Pause State RollupDefinition} (h : c.Begins table id definition rollups pause) :
    Rebuilds table id c.state
      (withRollups table (RollupCatalog.modify ⟨rollups⟩ id markBuilding).rollups
        (takeClaim table id c.state)) :=
  rebuilds_takeClaim id h.load

/-- A refresh that stays under way when another ends is of another rollup. -/
theorem Valid.key_ne_of_isSome (h : c.Valid) (hcall : c.calls caller = some call) {other : Nat}
    {call' : Call} (hother : c.calls other = some call')
    (hstays : (Function.update c.calls caller none other).isSome) :
    call'.key ≠ rollupKey call.table call.id := by
  refine h.key_ne hcall hother ?_
  rintro rfl
  simp at hstays

/-- A step of a refresh changes no rollup, or how one is built, and that is not the
rollup of a refresh that was under way before and still is. -/
theorem step_of_isRefresh_cases (h : c.Valid) {e : Event} (he : e.isRefresh = true) :
    (∃ table, Elsewhere table c.state (c.step service e).state ∧
      (c.step service e).state.store.loadRollups table = c.state.store.loadRollups table) ∨
    ∃ table id, Rebuilds table id c.state (c.step service e).state ∧
      ∀ {caller call}, c.calls caller = some call → ((c.step service e).calls caller).isSome →
        call.key ≠ rollupKey table id := by
  cases e with
  | start caller table id =>
    cases hcall : c.calls caller with
    | some call =>
      rw [step_start_of_some hcall]
      exact .inl ⟨table, .refl table _, rfl⟩
    | none =>
      rcases step_start_cases service hcall table id with
        ⟨s, heq, hends⟩ | ⟨definition, rollups, pause, hbegins, heq⟩
      · rw [heq]
        exact .inl ⟨table, hends.elsewhere, hends.rollups⟩
      · rw [heq]
        refine .inr ⟨table, id, hbegins.rebuilds, fun {_ call} hbefore _ hkey => ?_⟩
        have hclaimed := (h.claimed call.key).2 ⟨_, call, hbefore, rfl⟩
        rw [hkey, hbegins.free] at hclaimed
        cases hclaimed
  | reply caller answers =>
    cases hcall : c.calls caller with
    | none =>
      rw [step_reply_of_none hcall]
      exact .inl ⟨"", .refl _ _, rfl⟩
    | some call =>
      obtain ⟨definition, hid, -, hp⟩ := h.refreshing hcall
      rcases step_reply_cases service hcall hp answers with ⟨pause, -, heq⟩ | ⟨result, heq⟩
      · rw [heq]
        exact .inl ⟨call.table, .refl _ _, rfl⟩
      · have hrebuilds := rebuilds_recordStep call.table
          (definition.recordRefresh c.state.now result).2 c.state
        rw [recordRefresh_id, hid] at hrebuilds
        rw [heq]
        exact .inr ⟨call.table, call.id,
          ⟨hrebuilds.elsewhere.trans (elsewhere_releaseClaim ..), hrebuilds.rollups⟩,
          h.key_ne_of_isSome hcall⟩
  | cancel caller =>
    cases hcall : c.calls caller with
    | none =>
      rw [step_cancel_of_none hcall]
      exact .inl ⟨"", .refl _ _, rfl⟩
    | some call =>
      obtain ⟨definition, -, -, hp⟩ := h.refreshing hcall
      have hrebuilds := rebuilds_restoreStep call.table call.id definition.build c.state
      rw [step_cancel_eq hcall hp]
      exact .inr ⟨call.table, call.id,
        ⟨hrebuilds.elsewhere.trans (elsewhere_releaseClaim ..), hrebuilds.rollups⟩,
        h.key_ne_of_isSome hcall⟩
  | createRollup _ _ | updateRollup _ _ _ | deleteRollup _ _ | updateBaseMetric _ _ | tick _ =>
    cases he

/-! ## Without the refreshes -/

/-- Calls do the same to rollups that are built in another way. -/
theorem sameDefinitions_step (h : SameDefinitions c.state c'.state) {e : Event}
    (he : e.isRefresh = false) :
    SameDefinitions (c.step service e).state (c'.step service e).state := by
  cases e with
  | createRollup table definition => exact h.createRollup table definition
  | updateRollup table id change => exact h.updateRollup table id change
  | deleteRollup table id => exact h.editCatalog (ignoresBuilds_delete id) table
  | updateBaseMetric table m => exact h.updateBaseMetric service table m
  | tick now => exact ⟨h.schemas, h.rollups, rfl⟩
  | start _ _ _ | reply _ _ | cancel _ => cases he

theorem sameDefinitions_step_of_isRefresh (h : c.Valid) {e : Event} (he : e.isRefresh = true) :
    SameDefinitions c.state (c.step service e).state := by
  rcases step_of_isRefresh_cases h he with ⟨table, helse, hrollups⟩ | ⟨table, id, hrebuilds, -⟩
  · exact .of_elsewhere helse (by rw [hrollups])
  · exact hrebuilds.sameDefinitions

/-- But for their builds, rollups are the same as if no refresh had begun. -/
theorem sameDefinitions_run (hc : c.Valid) (h : SameDefinitions c.state c'.state)
    {events : List Event} (hfresh : ∀ e ∈ events, e.IsFresh) :
    SameDefinitions (c.run service events).state
      (c'.run service (events.filter (!·.isRefresh))).state := by
  induction events generalizing c c' with
  | nil => exact h
  | cons e rest ih =>
    obtain ⟨he, hrest⟩ := List.forall_mem_cons.1 hfresh
    rw [List.filter_cons]
    cases hrefresh : e.isRefresh with
    | false => exact ih (hc.step he) (sameDefinitions_step h hrefresh) hrest
    | true =>
      exact ih (hc.step he) ((sameDefinitions_step_of_isRefresh hc hrefresh).symm.trans h) hrest

/-! ## Refreshes that are cancelled -/

/-- A refresh that stays under way is of the same rollup, as that was when it began. -/
theorem calls_step_of_isSome {definition : RollupDefinition} {pause : Pause State RollupDefinition}
    (hcall : c.calls caller = some { table, id, pause })
    (hp : Refreshing table id definition pause) {e : Event}
    (hstays : ((c.step service e).calls caller).isSome) :
    ∃ pause, (c.step service e).calls caller = some { table, id, pause } ∧
      Refreshing table id definition pause := by
  cases e with
  | createRollup _ _ | updateRollup _ _ _ | deleteRollup _ _ | updateBaseMetric _ _ | tick _ =>
    exact ⟨pause, hcall, hp⟩
  | start other table' id' =>
    refine ⟨pause, ?_, hp⟩
    cases hother : c.calls other with
    | some call' => rw [step_start_of_some hother, hcall]
    | none =>
      have hne : caller ≠ other := fun heq => by simp [← heq, hcall] at hother
      rcases step_start_cases service hother table' id' with ⟨s, heq, -⟩ | ⟨_, _, _, -, heq⟩
      · rw [heq, hcall]
      · rw [heq]
        exact (Function.update_of_ne hne ..).trans hcall
  | reply other answers =>
    by_cases hother : caller = other
    · subst hother
      rcases step_reply_cases service hcall hp answers with ⟨pause', hp', heq⟩ | ⟨result, heq⟩
      · exact ⟨pause', by rw [heq]; simp, hp'⟩
      · simp [heq] at hstays
    · refine ⟨pause, ?_, hp⟩
      cases hcall' : c.calls other with
      | none => rw [step_reply_of_none hcall', hcall]
      | some call' => simp [step, hcall', settle, Function.update_of_ne hother, hcall]
  | cancel other =>
    by_cases hother : caller = other
    · subst hother
      simp [step_cancel_eq hcall hp] at hstays
    · refine ⟨pause, ?_, hp⟩
      cases hcall' : c.calls other with
      | none => rw [step_cancel_of_none hcall', hcall]
      | some call' => simp [step, hcall', Function.update_of_ne hother, hcall]

/-- A rollup is left alone by all refreshes but its own, and by its own until that
ends. -/
theorem rollup?_step_of_isRefresh (h : c.Valid) (hcall : c.calls caller = some call) {e : Event}
    (he : e.isRefresh = true) (hstays : ((c.step service e).calls caller).isSome) :
    rollup? call.table (c.step service e).state call.id = rollup? call.table c.state call.id := by
  rcases step_of_isRefresh_cases h he with
    ⟨table, helse, hrollups⟩ | ⟨table, id, hrebuilds, hkeys⟩
  · by_cases htable : call.table = table
    · exact rollup?_congr (htable ▸ hrollups) call.id
    · exact rollup?_congr (helse.rollups call.table htable) call.id
  · refine hrebuilds.rollup?_of_ne fun htable hid => hkeys hcall hstays ?_
    rw [Call.key, htable, hid]

/-- While these events happen the refresh of the caller goes on, and no call changes
the rollup. -/
def Undisturbed (service : Service) (table id : String) (caller : Nat) :
    Traffic → List Event → Prop
  | _, [] => True
  | c, e :: events => ((c.step service e).calls caller).isSome ∧
    (e.isRefresh = false → rollup? table (c.step service e).state id = rollup? table c.state id) ∧
    Undisturbed service table id caller (c.step service e) events

instance Undisturbed.decidable (service : Service) (table id : String) (caller : Nat) :
    ∀ (c : Traffic) (events : List Event), Decidable (Undisturbed service table id caller c events)
  | _, [] => .isTrue trivial
  | c, e :: events =>
    have := decidable service table id caller (c.step service e) events
    inferInstanceAs (Decidable (_ ∧ _ ∧ _))

theorem run_of_undisturbed {definition : RollupDefinition} {pause : Pause State RollupDefinition}
    (h : c.Valid) (hcall : c.calls caller = some { table, id, pause })
    (hp : Refreshing table id definition pause) {events : List Event}
    (hfresh : ∀ e ∈ events, e.IsFresh) (hevents : Undisturbed service table id caller c events) :
    (∃ pause, (c.run service events).calls caller = some { table, id, pause } ∧
      Refreshing table id definition pause) ∧
    rollup? table (c.run service events).state id = rollup? table c.state id := by
  induction events generalizing c pause with
  | nil => exact ⟨⟨pause, hcall, hp⟩, rfl⟩
  | cons e rest ih =>
    obtain ⟨he, hrest⟩ := List.forall_mem_cons.1 hfresh
    obtain ⟨hstays, hcalls, hevents⟩ := hevents
    obtain ⟨pause', hcall', hp'⟩ := calls_step_of_isSome hcall hp hstays
    have hstep : rollup? table (c.step service e).state id = rollup? table c.state id := by
      cases hrefresh : e.isRefresh with
      | false => exact hcalls hrefresh
      | true => exact rollup?_step_of_isRefresh h hcall hrefresh hstays
    obtain ⟨hlast, hstored⟩ := ih (h.step he) hcall' hp' hrest hevents
    exact ⟨hlast, hstored.trans hstep⟩

/-- A refresh that is cancelled puts its rollup back if no call has changed it. -/
theorem rollup?_of_cancelled (h : c.Valid) (hfree : c.calls caller = none)
    (hbegun : ((c.step service (.start caller table id)).calls caller).isSome)
    {events : List Event} (hfresh : ∀ e ∈ events, e.IsFresh)
    (hevents : Undisturbed service table id caller (c.step service (.start caller table id)) events) :
    rollup? table ((((c.step service (.start caller table id)).run service events).step service
      (.cancel caller)).state) id = rollup? table c.state id := by
  have hvalid : (c.step service (.start caller table id)).Valid := h.step trivial
  rcases step_start_cases service hfree table id with
    ⟨s, heq, -⟩ | ⟨definition, rollups, pause, hbegins, heq⟩
  · rw [heq, hfree] at hbegun
    cases hbegun
  · have hcall : (c.step service (.start caller table id)).calls caller =
        some { table, id, pause } := by
      rw [heq]
      simp
    have hstored : rollup? table (c.step service (.start caller table id)).state id =
        some (markBuilding definition) := by
      have hload : (takeClaim table id c.state).store.loadRollups table = .ok rollups :=
        hbegins.load
      have hid (r : RollupDefinition) : (markBuilding r).id = r.id := rfl
      rw [heq, rollup?_withRollups_modify hid hload, if_pos rfl, rollup?_of_loadRollups hload,
        hbegins.find]
      rfl
    obtain ⟨⟨pause', hcall', hp'⟩, hmeanwhile⟩ :=
      run_of_undisturbed hvalid hcall hbegins.refreshing hfresh hevents
    rw [step_cancel_eq hcall' hp']
    change rollup? table (after (restoreStep table id definition.build) _) id = _
    rw [rollup?_restoreStep, if_pos rfl, hmeanwhile, hstored,
      rollup?_of_loadRollups hbegins.load, hbegins.find]
    rfl

/-! ## The protocol -/

/-- What refreshes keep to, from a state in which none is under way and no rollup is
building: for each rollup at most one is under way, with the claim; only its rollup
is building; refreshes change nothing but builds; and one that is cancelled leaves no
trace in a rollup that no call has changed. -/
theorem refresh_protocol (service : Service) {s : State} (hidle : s.claims.running = [])
    (hquiet : ∀ table rollups, s.store.loadRollups table = .ok rollups →
      ∀ r ∈ rollups, r.build.status ≠ .building)
    {events : List Event} (hfresh : ∀ e ∈ events, e.IsFresh) :
    let c := run service { state := s } events
    let unrefreshed := run service { state := s } (events.filter (!·.isRefresh))
    (∀ caller caller' call call', c.calls caller = some call → c.calls caller' = some call' →
      call.table = call'.table → call.id = call'.id → caller = caller') ∧
    (∀ key, c.state.claims.isRunning key = true ↔
      ∃ caller call, c.calls caller = some call ∧ call.key = key) ∧
    (∀ table rollups, c.state.store.loadRollups table = .ok rollups →
      ∀ r ∈ rollups, r.build.status = .building → c.Refreshes table r.id) ∧
    (∀ table, (c.state.store.loadRollups table).map (·.map withoutBuild) =
      (unrefreshed.state.store.loadRollups table).map (·.map withoutBuild)) ∧
    ∀ caller table id meanwhile,
      let begun := c.step service (.start caller table id)
      c.calls caller = none → (begun.calls caller).isSome → (∀ e ∈ meanwhile, e.IsFresh) →
      Undisturbed service table id caller begun meanwhile →
        rollup? table ((begun.run service meanwhile).step service (.cancel caller)).state id =
          rollup? table c.state id := by
  intro c unrefreshed
  have hstart : Valid { state := s } := valid_start hidle hquiet
  have hvalid : c.Valid := hstart.run hfresh
  refine ⟨fun caller caller' call call' hcall hcall' htable hid => ?_, hvalid.claimed,
    fun table rollups hload => (hvalid.attended table rollups hload).busy, fun table => ?_, ?_⟩
  · exact hvalid.unique hcall hcall' (by rw [Call.key, Call.key, htable, hid])
  · exact ((sameDefinitions_run hstart (.refl s) hfresh).rollups table).symm
  · intro caller table id meanwhile begun hfree hbegun hmeanwhile hevents
    exact rollup?_of_cancelled hvalid hfree hbegun hmeanwhile hevents

/-- A table without rollups. -/
def unrolled : State where
  store := ⟨[("search", { schema := some (.saved
    { table := "search"
      sourceTable := "raw.search"
      baseMetrics := [Session.clicks "clicks"]
      dimensions := [{ id := "date", columnName := "date" }] }) })]⟩
  now := ⟨0, 0⟩

/-- Two rollups of the clicks are created. -/
def creations : List Event :=
  ["daily", "weekly"].map fun id =>
    .createRollup "search" { id, dimensions := ["date"], metrics := [{ metricId := "clicks" }] }

/-- The other rollup is renamed while it is built. -/
def othersBuild : List Event :=
  [.start 1 "search" "weekly",
    .updateRollup "search" "weekly" { displayName := some "Clicks by week" },
    .reply 0 Session.quietWarehouse,
    .reply 1 Session.quietWarehouse,
    .reply 1 Session.quietWarehouse]

theorem not_building_of_unrolled (table : String) {rollups : List RollupDefinition}
    (h : unrolled.store.loadRollups table = .ok rollups) :
    ∀ r ∈ rollups, r.build.status ≠ .building := by
  have hfiles : (unrolled.store.files table).rollups = none := by
    simp only [unrolled, Store.files, List.find?_cons, List.find?_nil]
    split <;> rfl
  simp only [Store.loadRollups, Store.loadFile, hfiles, bind, Except.bind_eq_ok] at h
  obtain ⟨loaded, h, hrollups⟩ := h
  obtain ⟨-, -, hloaded⟩ := h
  obtain rfl := Except.ok.inj hloaded
  obtain rfl := Except.ok.inj hrollups
  exact fun r hr => by cases hr

/-- While one of two rollups is built, the other is built and renamed. -/
theorem refresh_protocol_of_two_rollups :
    let c := run {} { state := unrolled } creations
    let begun := c.step {} (.start 0 "search" "daily")
    rollup? "search" begun.state "daily" ≠ rollup? "search" c.state "daily" ∧
      rollup? "search" ((begun.run {} othersBuild).step {} (.cancel 0)).state "daily" =
        rollup? "search" c.state "daily" := by
  refine ⟨by decide +kernel, ?_⟩
  exact (refresh_protocol {} rfl (fun table _ => not_building_of_unrolled table)
    (by decide : ∀ e ∈ creations, e.IsFresh)).2.2.2.2 0 "search" "daily" othersBuild rfl
      (by decide +kernel) (by decide) (by decide +kernel)

end Traffic

end MetricLayer.Service
