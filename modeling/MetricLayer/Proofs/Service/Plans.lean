import MetricLayer.Proofs.Service.Refreshes
import MetricLayer.Service.Optimized

/-!
# Plans and refreshes of an optimized source under way

A plan waits at most once, for the numbers of values in columns, and is then saved
in the place of what is stored (`planOptimized_bind_cases`, `Planning.resume_cases`).
A refresh claims the source, makes a plan if none is stored, marks the source, and
goes from stage to stage (`refreshOptimized_cases`, `Stage.resume_cases`,
`Stage.drop_eq`).
-/

namespace MetricLayer

theorem Work.bind_pure {σ α : Type} (w : Work σ α) :
    (w.bind fun a => .done (.ok a)) = w := by
  simp only [Work.bind]
  induction w with
  | done result => cases result <;> rfl
  | read _ ih | ask _ _ ih | countAll _ _ ih => simp only [Work.andThen, ih]
  | write _ _ ih | guarded _ _ ih | disarm _ ih => simp only [Work.andThen, ih]

namespace Service

open Work (Pause Answers)

variable {service : Service} {table : String} {mode : RefreshMode} {s : State} {α : Type}
  {stored : Option OptimizedSource} {source : OptimizedSource}

/-! ## What actions do to the stored source -/

/-- The state with this source stored for a table. -/
def withOptimized (table : String) (source : OptimizedSource) (s : State) : State :=
  { s with store := s.store.modifyFiles table fun files =>
      { files with optimized := some (.saved source) } }

theorem checkName_of_loadOptimized {store : Store} (h : store.loadOptimized table = .ok stored) :
    Store.checkName table = .ok () := by
  rw [Store.loadOptimized, Store.loadFile] at h
  cases hname : Store.checkName table with
  | ok _ => rfl
  | error e => rw [hname] at h; cases h

theorem loadOptimized_congr {store store' : Store}
    (h : (store'.files table).optimized = (store.files table).optimized) :
    store'.loadOptimized table = store.loadOptimized table := by
  simp only [Store.loadOptimized, Store.loadFile, h]

theorem loadOptimized_withOptimized (h : s.store.loadOptimized table = .ok stored) :
    (withOptimized table source s).store.loadOptimized table = .ok (some source) := by
  simp only [Store.loadOptimized, Store.loadFile, checkName_of_loadOptimized h, withOptimized,
    Store.files_modifyFiles]
  rfl

theorem loadOptimized_run (h : s.store.loadOptimized table = .ok stored) :
    (loadOptimized table).run s = (.ok stored, s) := by
  simp only [loadOptimized, Action.run_bind, Action.run_get, Action.run_lift, h]

theorem saveOptimized_run (h : s.store.loadOptimized table = .ok stored) :
    (saveOptimized table source).run s = (.ok ⟨⟩, withOptimized table source s) := by
  have hsave : s.store.saveOptimized table source = .ok (withOptimized table source s).store := by
    simp only [Store.saveOptimized, checkName_of_loadOptimized h]
    rfl
  simp only [saveOptimized, modifyStore, Action.run_bind, Action.run_get, Action.run_lift, hsave,
    Action.run_set]
  rfl

theorem editOptimizedBuild_run (h : s.store.loadOptimized table = .ok (some source))
    (edit : BuildState → BuildState) :
    (editOptimizedBuild table edit).run s =
      (.ok ⟨⟩, withOptimized table { source with build := edit source.build } s) := by
  simp only [editOptimizedBuild, Action.run_bind, loadOptimized_run h, saveOptimized_run h]

/-- What is stored after a refresh of `built`. -/
def recorded (built stored : OptimizedSource) : OptimizedSource :=
  if stored.samePlan built then built else { stored with build := built.build.markStale }

theorem recordOptimized_run (h : s.store.loadOptimized table = .ok (some source))
    (built : OptimizedSource) :
    (recordOptimized table built).run s =
      (.ok ⟨⟩, withOptimized table (recorded built source) s) := by
  simp only [recordOptimized, Action.run_bind, loadOptimized_run h, recorded]
  split <;> exact saveOptimized_run h

/-- A plan in the place of what was stored: the same, or one that no table has been
built by. -/
def Replans (stored : Option OptimizedSource) (plan : OptimizedSource) : Prop :=
  stored = some plan ∨ plan.build.isReady = false ∧ plan.build.status ≠ .building

theorem markStale_ne_building (b : BuildState) : b.markStale.status ≠ .building := by
  rcases status_markStale b with h | h <;> simp [h]

theorem replans_replan (fresh : OptimizedSource) (hfresh : fresh.build = {})
    (keyMappings : List KeyMapping) (clusterColumns : List String) :
    Replans stored (replan (stored.getD fresh) keyMappings clusterColumns) := by
  rw [replan]
  split
  · exact .inr ⟨BuildState.markStale_isReady _, markStale_ne_building _⟩
  · cases stored with
    | some plan => exact .inl rfl
    | none => exact .inr ⟨by rw [Option.getD_none, hfresh]; rfl,
        by rw [Option.getD_none, hfresh]; exact fun h => by cases h⟩

/-- After an action another source is stored, and nothing else has changed that
calls on the source look at. -/
structure Stores (table : String) (source : OptimizedSource) (s s' : State) : Prop where
  load : s'.store.loadOptimized table = .ok (some source)
  claims : s'.claims = s.claims

theorem stores_withOptimized (h : s.store.loadOptimized table = .ok stored) :
    Stores table source s (withOptimized table source s) :=
  ⟨loadOptimized_withOptimized h, rfl⟩

theorem storePlan_run (h : s.store.loadOptimized table = .ok stored) (r : Registry)
    (keyMappings : List KeyMapping) (clusterColumns : List String) :
    (service.storePlan table r keyMappings clusterColumns).run s =
      let fresh := .ofTable r.sourceTable r.dateColumn service.config.optimizer
      let plan := replan (stored.getD fresh) keyMappings clusterColumns
      (.ok plan, withOptimized table plan s) := by
  simp only [storePlan, Action.run_bind, loadOptimized_run h, saveOptimized_run h, Action.run_pure]

theorem advance_storePlan (h : s.store.loadOptimized table = .ok stored) (r : Registry)
    (keyMappings : List KeyMapping) (clusterColumns : List String)
    (k : OptimizedSource → Task α) (cleanups : List (State → State)) :
    ∃ plan s', Replans stored plan ∧ Stores table plan s s' ∧
      ((Work.act (service.storePlan table r keyMappings clusterColumns)).bind k).advance
        cleanups s = (k plan).advance cleanups s' := by
  refine ⟨_, _, replans_replan (.ofTable r.sourceTable r.dateColumn service.config.optimizer) rfl
    keyMappings clusterColumns, stores_withOptimized h, ?_⟩
  rw [Work.advance_act_bind, storePlan_run h]

/-! ## Plans -/

/-- Work that saves a plan as soon as it knows the numbers of values, and goes on
by `k`. -/
def Planning (service : Service) (table : String) (k : OptimizedSource → Task α)
    (cleanups : List (State → State)) (p : Pause State α) : Prop :=
  ∃ queries next, p = .counting queries next cleanups ∧
    ∀ reply, (∃ e, next reply = .done (.error e)) ∨ ∃ r keyMappings clusterColumns,
      next reply = (Work.act (service.storePlan table r keyMappings clusterColumns)).bind k

variable {k : OptimizedSource → Task α} {cleanups : List (State → State)} {p : Pause State α}

theorem clusterColumns_bind_cases (r : Registry) (most : UInt64) (f : List String → Task α) :
    (∃ columns, (Work.clusterColumns r most).bind f = f columns) ∨
    ∃ queries next, (Work.clusterColumns r most).bind f = .countAll queries next ∧
      ∀ reply, (∃ e, next reply = .done (.error e)) ∨ ∃ columns, next reply = f columns := by
  rw [Work.clusterColumns]
  split
  · exact .inl ⟨[], rfl⟩
  · refine .inr ⟨_, _, rfl, fun reply => ?_⟩
    cases reply with
    | error e => exact .inl ⟨e, rfl⟩
    | ok cardinalities => exact .inr ⟨_, rfl⟩

/-- The steps of a plan. -/
theorem planOptimized_eq (service : Service) (table : String) :
    service.planOptimized table = (Work.act (loadRegistry table)).bind fun r =>
      (Work.clusterColumns r service.config.optimizer.maxClusterColumns).bind fun columns =>
        Work.act (service.storePlan table r
          (r.keyMappings service.dialect service.config.optimizer.keyPrefix) columns) := rfl

/-- A plan fails before it asks anything, waits for the numbers of values, or needs
none and is saved. -/
theorem planOptimized_bind_cases (service : Service) (k : OptimizedSource → Task α)
    (cleanups : List (State → State)) (h : s.store.loadOptimized table = .ok stored) :
    (∃ e, ((service.planOptimized table).bind k).advance cleanups s =
      (.ended (.error e), Work.unwind cleanups s)) ∨
    (∃ p, Planning service table k cleanups p ∧
      ((service.planOptimized table).bind k).advance cleanups s = (p, s)) ∨
    ∃ plan s', Replans stored plan ∧ Stores table plan s s' ∧
      ((service.planOptimized table).bind k).advance cleanups s = (k plan).advance cleanups s' := by
  have hregistry := loadRegistry_run_snd table s
  rw [planOptimized_eq, Work.bind_assoc, Work.advance_act_bind]
  rcases hr : (loadRegistry table).run s with ⟨result, s'⟩
  rw [hr] at hregistry
  obtain rfl : s' = s := hregistry
  cases result with
  | error e => exact .inl ⟨e, rfl⟩
  | ok r =>
    dsimp only
    rw [Work.bind_assoc]
    rcases clusterColumns_bind_cases r service.config.optimizer.maxClusterColumns fun columns =>
        (Work.act (service.storePlan table r
          (r.keyMappings service.dialect service.config.optimizer.keyPrefix) columns)).bind k with
      ⟨columns, heq⟩ | ⟨queries, next, heq, hnext⟩
    · rw [heq]
      exact .inr (.inr (advance_storePlan h r _ columns k cleanups))
    · rw [heq]
      refine .inr (.inl ⟨_, ⟨queries, next, rfl, fun reply => ?_⟩, rfl⟩)
      exact (hnext reply).imp id fun ⟨columns, hcolumns⟩ => ⟨r, _, columns, hcolumns⟩

namespace Planning

theorem hasEnded_eq_false (hp : Planning service table k cleanups p) : p.hasEnded = false := by
  obtain ⟨queries, next, rfl, -⟩ := hp
  rfl

/-- With the numbers of values a plan is saved, and without them it fails. -/
theorem resume_cases (hp : Planning service table k cleanups p)
    (h : s.store.loadOptimized table = .ok stored) (answers : Answers) :
    (∃ e, p.resume answers s = (.ended (.error e), Work.unwind cleanups s)) ∨
    ∃ plan s', Replans stored plan ∧ Stores table plan s s' ∧
      p.resume answers s = (k plan).advance cleanups s' := by
  obtain ⟨queries, next, rfl, hnext⟩ := hp
  rw [Pause.resume]
  rcases hnext (answers.counts queries) with ⟨e, heq⟩ | ⟨r, keyMappings, columns, heq⟩
  · rw [heq]
    exact .inl ⟨e, rfl⟩
  · rw [heq]
    exact .inr (advance_storePlan h r keyMappings columns k cleanups)

theorem drop_eq (hp : Planning service table k cleanups p) (s : State) :
    p.drop s = Work.unwind cleanups s := by
  obtain ⟨queries, next, rfl, -⟩ := hp
  rfl

end Planning

/-! ## The stages of a refresh -/

def releaseSource (table : String) (s : State) : State :=
  { s with claims := s.claims.release (optimizedKey table) }

def restoreSource (table : String) (source : OptimizedSource) : State → State :=
  after (editOptimizedBuild table (restoreBuild source.build))

/-- What is left of a refresh when it is known whether the table is up to date. -/
def afterRefresh (table : String) (source : OptimizedSource)
    (result : Except Error (RefreshSummary × TableStats)) : Task RefreshSummary :=
  .read fun s =>
    let outcome := source.recordRefresh s.now result
    .disarm ((Work.act (recordOptimized table outcome.2)).bind fun _ =>
      (Work.change fun s =>
        { s with columns := s.columns.invalidate outcome.2.optimizedTable }).bind fun _ =>
          .done outcome.1)

/-- The size of a table, as a warehouse answers it. -/
def statsOf (answer : QueryResult) : TableStats := { rowCount := answer.count?.getD 0 }

/-- The dates that a table lacks, as a warehouse answers them. -/
def missingDates (answer : QueryResult) : Except Error (List Date) :=
  ((answer.texts "partition_date").mapM partitionDate).map sortedSet

theorem missingPartitions_eq {σ : Type} (source target column : String) :
    Work.missingPartitions source target column =
      (.ask (.execute (.missingPartitions source target column)) fun reply =>
        .done (reply.bind missingDates) : Work σ (List Date)) := by
  have hbind : (Work.missingPartitions source target column : Work σ (List Date)) =
      (Work.execute (.missingPartitions source target column)).bind fun answer =>
        (Work.done ((answer.texts "partition_date").mapM partitionDate)).bind fun dates =>
          .done (.ok (sortedSet dates)) := rfl
  rw [hbind]
  refine congrArg (Work.ask _) (funext fun reply => ?_)
  cases reply with
  | error e => rfl
  | ok answer =>
    simp only [Work.andThen, Work.bind, Except.bind, missingDates]
    generalize (answer.texts "partition_date").mapM partitionDate = dates
    cases dates <;> rfl

/-- What a refresh waits for: the table to be built, the dates that it lacks, their
rows to be added, or its size. -/
inductive Stage where
  | building
  | comparing
  | adding (missing : List Date) (statement : Sql.Statement)
  | sizing (mode : RefreshMode) (added : List Date)

namespace Stage

def statement (source : OptimizedSource) : Stage → Sql.Statement
  | .building => source.fullRefresh
  | .comparing =>
    .missingPartitions source.sourceTable source.optimizedTable source.partitionColumn
  | .adding _ statement => statement
  | .sizing .. => .rowCount source.optimizedTable

/-- The stage is one of a refresh by this plan. -/
def Fits (source : OptimizedSource) : Stage → Prop
  | .adding missing statement => source.incremental? missing = some statement
  | .building | .comparing | .sizing .. => True

/-- The refresh from the size of the table on. -/
def size (table : String) (source : OptimizedSource) (mode : RefreshMode) (added : List Date) :
    Task RefreshSummary :=
  .ask (.execute (.rowCount source.optimizedTable)) fun
    | .error e => afterRefresh table source (.error e)
    | .ok answer =>
      afterRefresh table source (.ok (⟨mode, added, (statsOf answer).rowCount⟩, statsOf answer))

/-- The refresh from the answer on. -/
def next (table : String) (source : OptimizedSource) :
    Stage → Except Error QueryResult → Task RefreshSummary
  | _, .error e => afterRefresh table source (.error e)
  | .building, .ok _ => size table source .full []
  | .comparing, .ok answer =>
    match missingDates answer with
    | .error e => afterRefresh table source (.error e)
    | .ok missing =>
      match source.incremental? missing with
      | none => size table source .incremental missing
      | some statement => .ask (.execute statement) fun
        | .error e => afterRefresh table source (.error e)
        | .ok _ => size table source .incremental missing
  | .adding missing _, .ok _ => size table source .incremental missing
  | .sizing mode added, .ok answer =>
    afterRefresh table source (.ok (⟨mode, added, (statsOf answer).rowCount⟩, statsOf answer))

/-- A refresh that waits at a stage. -/
def pause (table : String) (source : OptimizedSource) (stage : Stage) :
    Pause State RefreshSummary :=
  .asking (.execute (stage.statement source)) (stage.next table source)
    [restoreSource table source, releaseSource table]

end Stage

/-- What is left of a refresh when it has a plan. -/
def refreshPlanned (table : String) (mode : RefreshMode) (source : OptimizedSource) :
    Task RefreshSummary :=
  (Work.act (editOptimizedBuild table BuildState.markBuilding)).bind fun _ =>
    (Work.protect (restoreSource table source)).bind fun _ =>
      (source.refresh (·.now) mode).bind fun outcome =>
        Work.release.bind fun _ => (Work.act (recordOptimized table outcome.2)).bind fun _ =>
          (Work.change fun s =>
            { s with columns := s.columns.invalidate outcome.2.optimizedTable }).bind fun _ =>
              .done outcome.1

/-- The first stage of a refresh. -/
def firstStage (mode : RefreshMode) (source : OptimizedSource) : Stage :=
  match source.effectiveMode mode with
  | .full => .building
  | .incremental => .comparing

namespace Stage

theorem size_eq (table : String) (source : OptimizedSource) (mode : RefreshMode)
    (added : List Date) : size table source mode added = .ask
      (.execute (.rowCount source.optimizedTable)) ((sizing mode added).next table source) := by
  refine congrArg (Work.ask _) (funext fun reply => ?_)
  cases reply <;> rfl

/-- After a refresh a source is stored, and the claim is given back. -/
structure Ends (table : String) (source : OptimizedSource) (s s' : State) : Prop where
  load : s'.store.loadOptimized table = .ok (some source)
  claims : s'.claims = s.claims.release (optimizedKey table)

theorem advance_afterRefresh (h : s.store.loadOptimized table = .ok (some source))
    (built : OptimizedSource) (result : Except Error (RefreshSummary × TableStats)) :
    ∃ outcome s', Ends table (recorded (built.recordRefresh s.now result).2 source) s s' ∧
      (afterRefresh table built result).advance
        [restoreSource table built, releaseSource table] s = (.ended outcome, s') := by
  have hrecord := recordOptimized_run h (built.recordRefresh s.now result).2
  simp only [afterRefresh, Work.advance, List.tail_cons, Work.advance_act_bind, hrecord]
  refine ⟨_, _, ?_, rfl⟩
  exact ⟨loadOptimized_withOptimized (s := s) h, rfl⟩

end Stage

theorem refresh_bind_eq (table : String) (mode : RefreshMode) (source : OptimizedSource) :
    (source.refresh State.now mode).bind (fun outcome =>
      Work.release.bind fun _ => (Work.act (recordOptimized table outcome.2)).bind fun _ =>
        (Work.change fun s =>
          { s with columns := s.columns.invalidate outcome.2.optimizedTable }).bind fun _ =>
            .done outcome.1) =
      (source.rebuild (source.effectiveMode mode)).andThen fun
        | .error e => afterRefresh table source (.error e)
        | .ok added => Stage.size table source (source.effectiveMode mode) added := by
  have hrun : source.runRefresh (σ := State) (source.effectiveMode mode) =
      (source.rebuild (source.effectiveMode mode)).bind fun added =>
        (Work.tableStats source.optimizedTable).bind fun stats =>
          .done (.ok (⟨source.effectiveMode mode, added, stats.rowCount⟩, stats)) := rfl
  have hrefresh : source.refresh State.now mode =
      (source.runRefresh (source.effectiveMode mode)).attempt.bind fun result =>
        (Work.view State.now).bind fun now => .done (.ok (source.recordRefresh now result)) := rfl
  rw [hrefresh, hrun]
  simp only [Work.bind, Work.attempt, Work.andThen_assoc]
  congr 1
  funext result
  cases result with
  | error e => rfl
  | ok added =>
    refine congrArg (Work.ask _) (funext fun reply => ?_)
    cases reply <;> rfl

/-- The first stage of a refresh by a plan. -/
theorem refresh_bind_eq_ask (table : String) (mode : RefreshMode) (source : OptimizedSource) :
    (source.rebuild (source.effectiveMode mode)).andThen (fun
        | .error e => afterRefresh table source (.error e)
        | .ok added => Stage.size table source (source.effectiveMode mode) added) =
      .ask (.execute ((firstStage mode source).statement source))
        ((firstStage mode source).next table source) := by
  rw [firstStage]
  cases source.effectiveMode mode with
  | full =>
    refine congrArg (Work.ask _) (funext fun reply => ?_)
    cases reply <;> rfl
  | incremental =>
    have hrebuild : source.rebuild (σ := State) .incremental =
        (Work.missingPartitions source.sourceTable source.optimizedTable
          source.partitionColumn).bind fun missing =>
          match source.incremental? missing with
          | none => .done (.ok missing)
          | some statement => (Work.execute statement).bind fun _ => .done (.ok missing) := rfl
    rw [hrebuild, missingPartitions_eq]
    refine congrArg (Work.ask _) (funext fun reply => ?_)
    cases reply with
    | error e => rfl
    | ok answer =>
      simp only [Stage.next, Except.bind]
      cases missingDates answer with
      | error e => rfl
      | ok missing =>
        simp only [Work.andThen]
        cases source.incremental? missing with
        | none => rfl
        | some statement =>
          refine congrArg (Work.ask _) (funext fun reply => ?_)
          cases reply <;> rfl

/-- A refresh with a plan marks the source and waits at its first stage. -/
theorem advance_refreshPlanned (h : s.store.loadOptimized table = .ok (some source))
    (mode : RefreshMode) :
    (refreshPlanned table mode source).advance [releaseSource table] s =
      ((firstStage mode source).pause table source,
        withOptimized table { source with build := source.build.markBuilding } s) := by
  rw [refreshPlanned, Work.advance_act_bind, editOptimizedBuild_run h]
  dsimp only
  rw [Work.advance_protect_bind, refresh_bind_eq, refresh_bind_eq_ask]
  rfl

namespace Stage

variable {stage : Stage}

theorem hasEnded_pause (table : String) (source : OptimizedSource) (stage : Stage) :
    (stage.pause table source).hasEnded = false := rfl

/-- With an answer a refresh goes on to another stage, and nothing has changed, or it
records how it has ended. It is recorded as done only from its last stage. -/
theorem resume_cases (h : s.store.loadOptimized table = .ok (some source))
    (built : OptimizedSource) (hfits : stage.Fits built) (answers : Answers) :
    (∃ answer, answers.reply (.execute (stage.statement built)) = .ok answer ∧
      ∃ stage' : Stage, stage'.Fits built ∧
        (stage.pause table built).resume answers s = (stage'.pause table built, s)) ∨
    ∃ result outcome s', (∀ done, result = .ok done → ∃ mode added, stage = .sizing mode added) ∧
      Ends table (recorded (built.recordRefresh s.now result).2 source) s s' ∧
      (stage.pause table built).resume answers s = (.ended outcome, s') := by
  have hfail (e : Error) (hnext : stage.next table built
      (answers.reply (.execute (stage.statement built))) = afterRefresh table built (.error e)) :
      ∃ result outcome s', (∀ done, result = .ok done → ∃ mode added, stage = .sizing mode added) ∧
        Ends table (recorded (built.recordRefresh s.now result).2 source) s s' ∧
        (stage.pause table built).resume answers s = (.ended outcome, s') := by
    obtain ⟨outcome, s', hends, heq⟩ := advance_afterRefresh h built (.error e)
    exact ⟨.error e, outcome, s', nofun, hends, by rw [pause, Pause.resume, hnext, heq]⟩
  have hsize (mode : RefreshMode) (added : List Date) :
      (size table built mode added).advance [restoreSource table built, releaseSource table] s =
        ((sizing mode added).pause table built, s) := by
    rw [size_eq]
    rfl
  cases hreply : answers.reply (.execute (stage.statement built)) with
  | error e => exact .inr (hfail e (by rw [hreply]; cases stage <;> rfl))
  | ok answer =>
    cases stage with
    | building =>
      exact .inl ⟨answer, rfl, .sizing .full [], trivial,
        by rw [pause, Pause.resume, hreply, next, hsize]⟩
    | comparing =>
      cases hmissing : missingDates answer with
      | error e => exact .inr (hfail e (by rw [hreply]; simp only [next, hmissing]))
      | ok missing =>
        cases hstatement : built.incremental? missing with
        | none =>
          exact .inl ⟨answer, rfl, .sizing .incremental missing, trivial,
            by simp only [pause, Pause.resume, hreply, next, hmissing, hstatement, hsize]⟩
        | some statement =>
          refine .inl ⟨answer, rfl, .adding missing statement, hstatement, ?_⟩
          simp only [pause, Pause.resume, hreply, next, hmissing, hstatement]
          refine Prod.ext (congrArg (fun next => Pause.asking _ next _) ?_) rfl
          funext reply
          cases reply <;> rfl
    | adding missing statement =>
      exact .inl ⟨answer, rfl, .sizing .incremental missing, trivial,
        by rw [pause, Pause.resume, hreply, next, hsize]⟩
    | sizing mode added =>
      obtain ⟨outcome, s', hends, heq⟩ := advance_afterRefresh h built
        (.ok (⟨mode, added, (statsOf answer).rowCount⟩, statsOf answer))
      exact .inr ⟨_, outcome, s', fun _ _ => ⟨mode, added, rfl⟩, hends,
        by rw [pause, Pause.resume, hreply, next, heq]⟩

/-- A refresh that is dropped puts the build state back and then its claim. -/
theorem drop_ends (h : s.store.loadOptimized table = .ok (some source))
    (built : OptimizedSource) (stage : Stage) :
    Ends table { source with build := restoreBuild built.build source.build } s
      ((stage.pause table built).drop s) := by
  have hrestore := editOptimizedBuild_run h (restoreBuild built.build)
  simp only [pause, Pause.drop, Work.unwind, List.foldl_cons, List.foldl_nil, restoreSource, after,
    hrestore]
  exact ⟨loadOptimized_withOptimized (s := s) h, rfl⟩

end Stage

/-! ## The start of a refresh -/

def claimSource (table : String) (s : State) : State :=
  { s with claims := ⟨optimizedKey table :: s.claims.running⟩ }

theorem isRunning_claimSource (table : String) (s : State) :
    (claimSource table s).claims.isRunning (optimizedKey table) = true := by
  simp [claimSource, Claims.isRunning]

theorem isRunning_release_claimed {claims : Claims} {key : String}
    (h : claims.isRunning key = false) (other : String) :
    ((Claims.mk (key :: claims.running)).release key).isRunning other =
      claims.isRunning other := by
  rw [Claims.isRunning_release]
  by_cases hother : other = key
  · simp [hother, h]
  · simp [hother, Claims.isRunning]

/-- What is left of a refresh when it is known what is stored. -/
def refreshStored (service : Service) (table : String) (mode : RefreshMode) :
    Option OptimizedSource → Task RefreshSummary
  | some source => refreshPlanned table mode source
  | none => (service.planOptimized table).bind (refreshPlanned table mode)

theorem refreshOptimized_eq (service : Service) (table : String) (mode : RefreshMode) :
    service.refreshOptimized table mode = (claim (optimizedKey table)).bind fun _ =>
      (Work.act (loadOptimized table)).bind (service.refreshStored table mode) := by
  rw [show service.refreshStored table mode = fun
    | some source => refreshPlanned table mode source
    | none => (service.planOptimized table).bind (refreshPlanned table mode) from
      funext fun stored => by cases stored <;> rfl]
  rfl

/-- A refresh that holds its claim fails to make a plan, waits for one, or has one and
waits at its first stage. -/
theorem advance_refreshStored (service : Service) (h : s.store.loadOptimized table = .ok stored)
    (mode : RefreshMode) :
    (∃ e, (service.refreshStored table mode stored).advance [releaseSource table] s =
      (.ended (.error e), releaseSource table s)) ∨
    (∃ p, Planning service table (refreshPlanned table mode) [releaseSource table] p ∧
      (service.refreshStored table mode stored).advance [releaseSource table] s = (p, s)) ∨
    ∃ plan s', Replans stored plan ∧
      Stores table { plan with build := plan.build.markBuilding } s s' ∧
      (service.refreshStored table mode stored).advance [releaseSource table] s =
        ((firstStage mode plan).pause table plan, s') := by
  cases stored with
  | some source =>
    exact .inr (.inr ⟨source, _, .inl rfl, stores_withOptimized h, advance_refreshPlanned h mode⟩)
  | none =>
    rcases planOptimized_bind_cases service (refreshPlanned table mode) [releaseSource table] h with
      ⟨e, heq⟩ | hplanning | ⟨plan, s', hplan, hs, heq⟩
    · exact .inl ⟨e, heq⟩
    · exact .inr (.inl hplanning)
    · refine .inr (.inr ⟨plan, _, hplan, ⟨loadOptimized_withOptimized hs.load, hs.claims⟩, ?_⟩)
      rw [refreshStored, heq, advance_refreshPlanned hs.load]

theorem advance_refreshOptimized (h : s.store.loadOptimized table = .ok stored)
    (mode : RefreshMode) :
    (service.refreshOptimized table mode).advance [] s =
      match s.claims.start (optimizedKey table) with
      | .error e => (.ended (.error e), s)
      | .ok _ => (service.refreshStored table mode stored).advance [releaseSource table]
          (claimSource table s) := by
  rw [refreshOptimized_eq, advance_claim_bind]
  cases hstart : s.claims.start (optimizedKey table) with
  | error e => rfl
  | ok claims =>
    obtain ⟨-, rfl⟩ := isRunning_of_start hstart
    have hload : (loadOptimized table).run
        { s with claims := ⟨optimizedKey table :: s.claims.running⟩ } =
          (.ok stored, claimSource table s) := loadOptimized_run h
    dsimp only
    rw [Work.advance_act_bind, hload]
    rfl

/-- A refresh ends before it asks anything, and neither the stored source nor claims
have changed, or it claims the source, and waits for a plan or at its first stage. -/
theorem refreshOptimized_cases (service : Service) (h : s.store.loadOptimized table = .ok stored)
    (mode : RefreshMode) :
    (∃ e s', (service.refreshOptimized table mode).advance [] s = (.ended (.error e), s') ∧
      s'.store = s.store ∧ ∀ key, s'.claims.isRunning key = s.claims.isRunning key) ∨
    s.claims.isRunning (optimizedKey table) = false ∧
      ((∃ p, Planning service table (refreshPlanned table mode) [releaseSource table] p ∧
        (service.refreshOptimized table mode).advance [] s = (p, claimSource table s)) ∨
      ∃ plan s', Replans stored plan ∧
        Stores table { plan with build := plan.build.markBuilding } (claimSource table s) s' ∧
        (service.refreshOptimized table mode).advance [] s =
          ((firstStage mode plan).pause table plan, s')) := by
  have hload : (claimSource table s).store.loadOptimized table = .ok stored := h
  rw [advance_refreshOptimized h]
  cases hstart : s.claims.start (optimizedKey table) with
  | error e => exact .inl ⟨e, s, rfl, rfl, fun _ => rfl⟩
  | ok claims =>
    have hfree := (isRunning_of_start hstart).1
    rcases advance_refreshStored service hload mode with ⟨e, heq⟩ | hcases
    · exact .inl ⟨e, _, heq, rfl, isRunning_release_claimed hfree⟩
    · exact .inr ⟨hfree, hcases⟩

end Service

end MetricLayer
