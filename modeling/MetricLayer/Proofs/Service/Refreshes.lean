import MetricLayer.Proofs.Rollup.Catalog
import MetricLayer.Proofs.Warehouse.Interleaving
import MetricLayer.Service.Metrics
import MetricLayer.Service.Rollups

/-!
# Refreshes of rollups under way

A refresh of a rollup waits twice, for its table to be built and for the size of
the table. What it does before, between and after is one step each
(`refreshRollup_cases`, `Refreshing.resume_cases`, `Refreshing.drop_eq`).
-/

namespace MetricLayer.Service

open RollupCatalog (find?_modify)
open Work (Pause Answers)

/-! ## What actions do to stored rollups -/

/-- The state with these rollups stored for a table. -/
def withRollups (table : String) (rollups : List RollupDefinition) (s : State) : State :=
  { s with store := s.store.modifyFiles table fun files =>
      { files with rollups := some (.saved rollups) } }

variable {service : Service} {table id : String} {s : State} {α : Type}

theorem checkName_of_loadRollups {store : Store} {rollups : List RollupDefinition}
    (h : store.loadRollups table = .ok rollups) : Store.checkName table = .ok () := by
  rw [Store.loadRollups, Store.loadFile] at h
  cases hname : Store.checkName table with
  | ok _ => rfl
  | error e => rw [hname] at h; cases h

theorem loadRollups_congr {store store' : Store}
    (h : (store'.files table).rollups = (store.files table).rollups) :
    store'.loadRollups table = store.loadRollups table := by
  simp only [Store.loadRollups, Store.loadFile, h]

theorem loadRollups_withRollups {old rollups : List RollupDefinition}
    (h : s.store.loadRollups table = .ok old) :
    (withRollups table rollups s).store.loadRollups table = .ok rollups := by
  simp only [Store.loadRollups, Store.loadFile, checkName_of_loadRollups h, withRollups,
    Store.files_modifyFiles]
  rfl

theorem editCatalog_run (table : String)
    (edit : RollupCatalog → Except Error (α × RollupCatalog)) (s : State) :
    (editCatalog table edit).run s =
      match s.store.loadRollups table with
      | .error e => (.error e, s)
      | .ok rollups =>
        match edit ⟨rollups⟩ with
        | .error e => (.error e, s)
        | .ok (a, c) => (.ok a, withRollups table c.rollups s) := by
  simp only [editCatalog, loadCatalog, modifyStore, Action.run_bind, Action.run_get, Action.run_lift]
  cases h : s.store.loadRollups table with
  | error e => rfl
  | ok rollups =>
    simp only [Action.run_pure]
    cases edit ⟨rollups⟩ with
    | error e => rfl
    | ok result =>
      have hsave : s.store.saveRollups table result.2.rollups =
          .ok (withRollups table result.2.rollups s).store := by
        simp only [Store.saveRollups, checkName_of_loadRollups h]
        rfl
      simp only [hsave, Action.run_set]
      rfl

/-- Schemas, the clock and the rollups of other tables are the same. -/
structure Elsewhere (table : String) (s s' : State) : Prop where
  schemas : ∀ other, (s'.store.files other).schema = (s.store.files other).schema
  rollups : ∀ other, other ≠ table → s'.store.loadRollups other = s.store.loadRollups other
  now : s'.now = s.now

theorem Elsewhere.refl (table : String) (s : State) : Elsewhere table s s :=
  ⟨fun _ => rfl, fun _ _ => rfl, rfl⟩

theorem Elsewhere.trans {s s' s'' : State} (h : Elsewhere table s s')
    (h' : Elsewhere table s' s'') : Elsewhere table s s'' where
  schemas other := (h'.schemas other).trans (h.schemas other)
  rollups other hother := (h'.rollups other hother).trans (h.rollups other hother)
  now := h'.now.trans h.now

theorem elsewhere_withRollups (table : String) (rollups : List RollupDefinition) (s : State) :
    Elsewhere table s (withRollups table rollups s) where
  schemas other := by
    rw [withRollups, Store.files_modifyFiles]
    split
    · rename_i heq
      rw [heq]
    · rfl
  rollups other hother := loadRollups_congr (by rw [withRollups, Store.files_modifyFiles, if_neg hother])
  now := rfl

theorem elsewhere_editCatalog (edit : RollupCatalog → Except Error (α × RollupCatalog)) (s : State) :
    Elsewhere table s (after (editCatalog table edit) s) := by
  rw [after, editCatalog_run]
  cases s.store.loadRollups table with
  | error e => exact .refl table s
  | ok rollups =>
    dsimp only
    cases edit ⟨rollups⟩ with
    | error e => exact .refl table s
    | ok result => exact elsewhere_withRollups table _ s

/-- Neither the rollups of the table nor the claims differ. -/
structure SameRollups (table : String) (s s' : State) : Prop where
  rollups : s'.store.loadRollups table = s.store.loadRollups table
  claims : s'.claims = s.claims

theorem SameRollups.refl (table : String) (s : State) : SameRollups table s s := ⟨rfl, rfl⟩

theorem loadRegistry_run_snd (table : String) (s : State) : ((loadRegistry table).run s).2 = s := by
  simp only [loadRegistry, Action.run_bind, Action.run_get, Action.run_lift]
  cases s.store.loadSchema table with
  | error e => rfl
  | ok document => cases document <;> simp

theorem loadRegistry_congr {s' : State}
    (h : (s'.store.files table).schema = (s.store.files table).schema) :
    ((loadRegistry table).run s').1 = ((loadRegistry table).run s).1 := by
  have hschema : s'.store.loadSchema table = s.store.loadSchema table := by
    simp only [Store.loadSchema, Store.loadFile, h]
  simp only [loadRegistry, Action.run_bind, Action.run_get, Action.run_lift, hschema]
  cases s.store.loadSchema table with
  | error e => rfl
  | ok document => cases document <;> simp

theorem loadRegistry_bind_run (f : Registry → Act α) (s : State) :
    (loadRegistry table >>= f).run s =
      match ((loadRegistry table).run s).1 with
      | .ok r => (f r).run s
      | .error e => (.error e, s) := by
  have hload := loadRegistry_run_snd table s
  rw [Action.run_bind]
  rcases hrun : (loadRegistry table).run s with ⟨result, s'⟩
  rw [hrun] at hload
  obtain rfl : s' = s := hload
  cases result <;> rfl

theorem respond_loadRegistry_bind (answers : Answers) (f : Registry → Task α) (s : State) :
    ((Work.act (loadRegistry table)).bind f).respond answers s =
      match ((loadRegistry table).run s).1 with
      | .ok r => (f r).respond answers s
      | .error e => (.ended (.error e), s) := by
  have hload := loadRegistry_run_snd table s
  rw [Work.respond_act_bind]
  rcases hrun : (loadRegistry table).run s with ⟨result, s'⟩
  rw [hrun] at hload
  obtain rfl : s' = s := hload
  cases result <;> rfl

theorem loadOptimized_run_snd (table : String) (s : State) :
    ((loadOptimized table).run s).2 = s := by
  simp only [loadOptimized, Action.run_bind, Action.run_get, Action.run_lift]

theorem sameRollups_save (r : Registry) (table : String) (s : State) :
    SameRollups table s ((save r).run s).2 := by
  simp only [save, Action.run_bind, Action.run_get, Action.run_lift]
  cases hsave : s.store.saveSchema s.now r.document with
  | error e => exact .refl table s
  | ok result =>
    obtain ⟨document, store⟩ := result
    simp only [Action.run_set]
    refine ⟨loadRollups_congr ?_, rfl⟩
    simp only [Store.saveSchema, bind, Except.bind] at hsave
    split at hsave
    · cases hsave
    · obtain ⟨-, rfl⟩ := Prod.mk.inj (Except.ok.inj hsave)
      rw [Store.files_modifyFiles]
      split <;> simp [*]

theorem editRegistry_run (table : String) (edit : Registry → Registry.Edited α) (s : State) :
    (editRegistry table edit).run s =
      match ((loadRegistry table).run s).1 with
      | .error e => (.error e, s)
      | .ok r =>
        match edit r with
        | (.error e, _) => (.error e, s)
        | (.ok a, r) => (((save r).run s).1.map fun _ => a, after (save r) s) := by
  rw [editRegistry, loadRegistry_bind_run]
  cases ((loadRegistry table).run s).1 with
  | error e => rfl
  | ok r =>
    dsimp only
    rcases edit r with ⟨outcome, r'⟩
    cases outcome with
    | error e => rfl
    | ok a =>
      simp only [after, Action.run_bind]
      rcases (save r').run s with ⟨saved, s'⟩
      cases saved <;> rfl

theorem sameRollups_editRegistry (table other : String) (edit : Registry → Registry.Edited α)
    (s : State) : SameRollups other s (after (editRegistry table edit) s) := by
  rw [after, editRegistry_run]
  split
  · exact .refl other s
  · split
    · exact .refl other s
    · exact sameRollups_save _ other s

/-! ## The steps of a refresh -/

theorem status_markStale (b : BuildState) :
    b.markStale.status = .pending ∨ b.markStale.status = .stale := by
  rw [BuildState.markStale]
  split
  · exact .inl ‹_›
  · exact .inr rfl

/-- The rollup while its table is built. -/
def markBuilding (r : RollupDefinition) : RollupDefinition :=
  { r with build := r.build.markBuilding }

def recordStep (table : String) (built : RollupDefinition) : Act Unit :=
  editCatalog table fun c => .ok ((), recordBuild built c)

def restoreStep (table id : String) (previous : BuildState) : Act Unit :=
  editCatalog table fun c => .ok ((), restoreRollup id previous c)

def takeClaim (table id : String) (s : State) : State :=
  { s with claims := ⟨rollupKey table id :: s.claims.running⟩ }

def releaseClaim (table id : String) (s : State) : State :=
  { s with claims := s.claims.release (rollupKey table id) }

theorem recordRefresh_id (definition : RollupDefinition) (now : Timestamp)
    (result : Except Error TableStats) :
    (definition.recordRefresh now result).2.id = definition.id := by
  cases result <;> rfl

/-- What is left of a refresh when it is known whether the table has been built. -/
def afterBuild (table : String) (definition : RollupDefinition)
    (result : Except Error TableStats) : Task RollupDefinition :=
  .read fun s =>
    let outcome := definition.recordRefresh s.now result
    .disarm ((Work.act (recordStep table outcome.2)).bind fun _ =>
      (Work.done outcome.1).bind fun _ => .done (.ok outcome.2))

/-- What is left of a refresh when the statement has been executed or has failed. -/
def afterStatement (table : String) (definition : RollupDefinition) :
    Except Error QueryResult → Task RollupDefinition
  | .error e => afterBuild table definition (.error e)
  | .ok _ => .ask (.execute (.rowCount definition.targetTableName)) fun reply =>
    afterBuild table definition (reply.map fun answer => { rowCount := answer.count?.getD 0 })

/-- A refresh of the stored rollup `definition` that waits for the warehouse. -/
inductive Refreshing (table id : String) (definition : RollupDefinition) :
    Pause State RollupDefinition → Prop where
  | building (statement : Sql.Statement) :
    Refreshing table id definition
      (.asking (.execute statement) (afterStatement table definition)
        [after (restoreStep table id definition.build), releaseClaim table id])
  | sizing :
    Refreshing table id definition
      (.asking (.execute (.rowCount definition.targetTableName))
        (fun reply => afterBuild table definition
          (reply.map fun answer => { rowCount := answer.count?.getD 0 }))
        [after (restoreStep table id definition.build), releaseClaim table id])

theorem advance_afterBuild (definition : RollupDefinition) (result : Except Error TableStats)
    (cleanup cleanup' : State → State) (s : State) :
    (afterBuild table definition result).advance [cleanup, cleanup'] s =
      (.ended (((recordStep table (definition.recordRefresh s.now result).2).run s).1.bind fun _ =>
          (definition.recordRefresh s.now result).1.map fun _ =>
            (definition.recordRefresh s.now result).2),
        cleanup' (after (recordStep table (definition.recordRefresh s.now result).2) s)) := by
  simp only [afterBuild, Work.advance, Work.advance_act_bind, List.tail_cons, after]
  rcases (recordStep table (definition.recordRefresh s.now result).2).run s with ⟨recorded, s'⟩
  cases recorded with
  | error e => rfl
  | ok _ =>
    simp only [Work.advance_done_bind]
    cases (definition.recordRefresh s.now result).1 <;> rfl

/-! ## The start of a refresh -/

theorem beginBuild_eq (id : String) (c : RollupCatalog) :
    beginBuild id c = match c.find? id with
      | none => .error (.unknown id)
      | some r => .ok (r, c.modify id markBuilding) := rfl

/-- A definition that is recorded at once is left as it was. -/
theorem recordBuild_modify {c : RollupCatalog} {definition : RollupDefinition}
    (hfind : c.find? id = some definition) :
    recordBuild definition (c.modify id markBuilding) = c := by
  obtain ⟨rollups⟩ := c
  have hid : definition.id = id := by simpa using List.find?_some hfind
  simp only [RollupCatalog.find?] at hfind
  simp only [recordBuild, RollupCatalog.modify, hid, RollupCatalog.mk.injEq]
  induction rollups with
  | nil => cases hfind
  | cons r rest ih =>
    by_cases hr : r.id = id
    · obtain rfl : r = definition := by simpa [hr] using hfind
      subst hr
      simp [RollupCatalog.modify.go, RollupDefinition.sameLayout, markBuilding]
    · rw [List.find?_cons_of_neg (by simpa using hr)] at hfind
      simp only [RollupCatalog.modify.go, beq_iff_eq, hr, if_false, ih hfind]

theorem isRunning_of_start {claims claims' : Claims} {key : String}
    (h : claims.start key = .ok claims') :
    claims.isRunning key = false ∧ claims' = ⟨key :: claims.running⟩ := by
  rw [Claims.start] at h
  split at h
  · cases h
  · rename_i hfree
    exact ⟨by simpa using hfree, (Except.ok.inj h).symm⟩

theorem advance_claim_bind {β : Type} (key : String) (f : Unit → Task β)
    (cleanups : List (State → State)) (s : State) :
    ((claim key).bind f).advance cleanups s =
      match s.claims.start key with
      | .error e => (.ended (.error e), Work.unwind cleanups s)
      | .ok claims => (f ()).advance
          ((fun s => { s with claims := s.claims.release key }) :: cleanups) { s with claims } := by
  let start : Act Unit := do
    let s ← get
    let claims ← s.claims.start key
    set { s with claims }
  have hclaim : claim key = (Work.act start).bind fun _ =>
      Work.protect fun s => { s with claims := s.claims.release key } := rfl
  rw [hclaim, Work.bind_assoc, Work.advance_act_bind]
  simp only [start, Action.run_bind, Action.run_get, Action.run_lift]
  cases s.claims.start key <;> rfl

/-- What is left of a refresh when it holds its claim. -/
def claimedRefresh (service : Service) (table id : String) : Task RollupDefinition :=
  (Work.act (loadRegistry table)).bind fun r =>
    (Work.act (loadOptimized table)).bind fun optimized =>
      (Work.act (editCatalog table (beginBuild id))).bind fun definition =>
        (Work.protect (after (restoreStep table id definition.build))).bind fun _ =>
          (definition.refresh (.ofRegistry r service.dialect optimized) (·.now)).bind fun outcome =>
            Work.release.bind fun _ => (Work.act (recordStep table outcome.2)).bind fun _ =>
              (Work.done outcome.1).bind fun _ => .done (.ok outcome.2)

theorem refreshRollup_eq (service : Service) (table id : String) :
    service.refreshRollup table id =
      (claim (rollupKey table id)).bind fun _ => claimedRefresh service table id := rfl

theorem refresh_bind {b : RollupSource} {definition : RollupDefinition} {statement : Sql.Statement}
    (h : b.statement definition = .ok statement) :
    (definition.refresh b State.now).bind (fun outcome =>
      Work.release.bind fun _ => (Work.act (recordStep table outcome.2)).bind fun _ =>
        (Work.done outcome.1).bind fun _ => .done (.ok outcome.2)) =
      .ask (.execute statement) (afterStatement table definition) := by
  rw [RollupDefinition.refresh, h]
  refine congrArg (Work.ask (.execute statement)) (funext fun reply => ?_)
  cases reply with
  | error e => rfl
  | ok answer =>
    refine congrArg (Work.ask (.execute (.rowCount definition.targetTableName))) ?_
    funext reply
    cases reply <;> rfl

/-- Without a statement the rollup is left as it was. -/
theorem refresh_bind_error {b : RollupSource} {definition : RollupDefinition} {e : Error}
    (h : b.statement definition = .error e) :
    (definition.refresh b State.now).bind (fun outcome =>
      Work.release.bind fun _ => (Work.act (recordStep table outcome.2)).bind fun _ =>
        (Work.done outcome.1).bind fun _ => .done (.ok outcome.2)) =
      Work.release.bind fun _ => (Work.act (recordStep table definition)).bind fun _ =>
        .done (.error e) := by
  rw [RollupDefinition.refresh, h]
  rfl

/-- A refresh that holds its claim ends before it asks anything, and no rollup has
changed, or it marks the rollup and waits for the warehouse. -/
theorem claimedRefresh_cases (service : Service) (table id : String) (s : State) :
    (∃ result s', (claimedRefresh service table id).advance [releaseClaim table id] s =
        (.ended result, releaseClaim table id s') ∧
      s'.store.loadRollups table = s.store.loadRollups table ∧ s'.claims = s.claims ∧
      Elsewhere table s s') ∨
    ∃ definition p rollups, s.store.loadRollups table = .ok rollups ∧
      RollupCatalog.find? ⟨rollups⟩ id = some definition ∧ Refreshing table id definition p ∧
      (claimedRefresh service table id).advance [releaseClaim table id] s = (p,
        withRollups table (RollupCatalog.modify ⟨rollups⟩ id markBuilding).rollups s) := by
  have hregistry := loadRegistry_run_snd table s
  have hoptimized := loadOptimized_run_snd table s
  rw [claimedRefresh, Work.advance_act_bind]
  rcases hr : (loadRegistry table).run s with ⟨result, s'⟩
  rw [hr] at hregistry
  obtain rfl : s' = s := hregistry
  cases result with
  | error e => exact .inl ⟨.error e, s', rfl, rfl, rfl, .refl table s'⟩
  | ok r =>
    dsimp only
    rw [Work.advance_act_bind]
    rcases ho : (loadOptimized table).run s' with ⟨result, s⟩
    rw [ho] at hoptimized
    obtain rfl : s = s' := hoptimized
    cases result with
    | error e => exact .inl ⟨.error e, s, rfl, rfl, rfl, .refl table s⟩
    | ok optimized =>
      dsimp only
      rw [Work.advance_act_bind, editCatalog_run]
      cases hload : s.store.loadRollups table with
      | error e => exact .inl ⟨.error e, s, rfl, hload, rfl, .refl table s⟩
      | ok rollups =>
        dsimp only
        rw [beginBuild_eq]
        cases hfind : RollupCatalog.find? ⟨rollups⟩ id with
        | none => exact .inl ⟨.error _, s, rfl, hload, rfl, .refl table s⟩
        | some definition =>
          dsimp only
          rw [Work.advance_protect_bind]
          cases hstatement : (RollupSource.ofRegistry r service.dialect optimized).statement
              definition with
          | error e =>
            have hbuilding : (withRollups table
                (RollupCatalog.modify ⟨rollups⟩ id markBuilding).rollups s).store.loadRollups table =
                  .ok (RollupCatalog.modify ⟨rollups⟩ id markBuilding).rollups :=
              loadRollups_withRollups hload
            rw [refresh_bind_error hstatement, Work.advance_release_bind, Work.advance_act_bind,
              recordStep, editCatalog_run, hbuilding]
            refine .inl ⟨.error e, _, rfl, ?_, rfl,
              (elsewhere_withRollups ..).trans (elsewhere_withRollups ..)⟩
            rw [loadRollups_withRollups hbuilding]
            exact congrArg (fun c => Except.ok c.rollups) (recordBuild_modify hfind)
          | ok statement =>
            refine .inr ⟨definition, _, rollups, rfl, hfind, .building statement, ?_⟩
            rw [refresh_bind hstatement]
            rfl

/-- A refresh ends before it asks anything, and neither rollups nor claims have
changed, or it claims its key, marks the rollup and waits for the warehouse. -/
theorem refreshRollup_cases (service : Service) (table id : String) (s : State) :
    (∃ result s', (service.refreshRollup table id).advance [] s = (.ended result, s') ∧
      s'.store.loadRollups table = s.store.loadRollups table ∧
      (∀ key, s'.claims.isRunning key = s.claims.isRunning key) ∧ Elsewhere table s s') ∨
    ∃ definition p rollups, s.store.loadRollups table = .ok rollups ∧
      RollupCatalog.find? ⟨rollups⟩ id = some definition ∧ Refreshing table id definition p ∧
      s.claims.isRunning (rollupKey table id) = false ∧
      (service.refreshRollup table id).advance [] s = (p,
        withRollups table (RollupCatalog.modify ⟨rollups⟩ id markBuilding).rollups
          (takeClaim table id s)) := by
  rw [refreshRollup_eq, advance_claim_bind]
  cases hstart : s.claims.start (rollupKey table id) with
  | error e => exact .inl ⟨.error e, s, rfl, rfl, fun _ => rfl, .refl table s⟩
  | ok claims =>
    obtain ⟨hfree, rfl⟩ := isRunning_of_start hstart
    rcases claimedRefresh_cases service table id (takeClaim table id s) with
      ⟨result, s', heq, hrollups, hclaims, helse⟩ | ⟨definition, p, rollups, hload, hfind, hp, heq⟩
    · refine .inl ⟨result, _, heq, hrollups, fun key => ?_,
        helse.schemas, helse.rollups, helse.now⟩
      rw [releaseClaim, hclaims, Claims.isRunning_release]
      by_cases hkey : key = rollupKey table id
      · simp [hkey, hfree]
      · simp [hkey, takeClaim, Claims.isRunning]
    · exact .inr ⟨definition, p, rollups, hload, hfind, hp, hfree, heq⟩

/-! ## A refresh that waits -/

namespace Refreshing

variable {definition : RollupDefinition} {p : Pause State RollupDefinition}

theorem hasEnded_eq_false (h : Refreshing table id definition p) : p.hasEnded = false := by
  cases h <;> rfl

/-- With an answer a refresh goes on to wait for the next, and nothing has changed,
or it records how the build has ended and gives its claim back. -/
theorem resume_cases (h : Refreshing table id definition p) (answers : Answers) (s : State) :
    (∃ p', p.resume answers s = (p', s) ∧ Refreshing table id definition p') ∨
    ∃ result, p.resume answers s =
      (.ended (((recordStep table (definition.recordRefresh s.now result).2).run s).1.bind fun _ =>
          (definition.recordRefresh s.now result).1.map fun _ =>
            (definition.recordRefresh s.now result).2),
        releaseClaim table id
          (after (recordStep table (definition.recordRefresh s.now result).2) s)) := by
  cases h with
  | building statement =>
    rw [Pause.resume]
    cases answers.reply (.execute statement) with
    | error e => exact .inr ⟨_, advance_afterBuild ..⟩
    | ok answer => exact .inl ⟨_, rfl, .sizing⟩
  | sizing => exact .inr ⟨_, advance_afterBuild ..⟩

/-- A refresh that is dropped puts the build state back and then its claim. -/
theorem drop_eq (h : Refreshing table id definition p) (s : State) :
    p.drop s = releaseClaim table id (after (restoreStep table id definition.build) s) := by
  cases h <;> rfl

end Refreshing

end MetricLayer.Service
