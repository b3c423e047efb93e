import MetricLayer.Proofs.Service.Plans
import MetricLayer.Proofs.Service.Traffic

/-!
# An optimized source that many callers keep up

Any number of callers plan and refresh the optimized source of a table, and may give
up wherever they wait, while schemas and all else change (`Upkeep`). The statements
that the warehouse has executed tell what the optimized table holds (`contentOf`).

While a refresh is under way, the stored source is marked as building or has another
plan (`Marked`), and past its first build the table is one of the plan that the
refresh goes by (`Stage.Follows`). So whenever the stored source is ready, its table
is one that it has built itself (`Upkeep.builds_of_isReady`).
-/

namespace MetricLayer

/-! ## What a table holds -/

/-- The statement that built a table, and those that have added rows since. -/
structure TableContent where
  build : Sql.Statement
  additions : List Sql.Statement := []

/-- What the table `target` holds after one more statement. -/
def TableContent.next (target : String) (content : Option TableContent) :
    Sql.Statement → Option TableContent
  | .createTable table query partitionBy clusterBy =>
    if table = target then some { build := .createTable table query partitionBy clusterBy }
    else content
  | .insert table query =>
    if table = target then
      content.map fun c => { c with additions := c.additions ++ [.insert table query] }
    else content
  | .missingPartitions .. | .maxPartition .. | .rowCount _ | .cardinality .. | .probe .. => content

def contentOf (target : String) (executed : List Sql.Statement) : Option TableContent :=
  executed.foldl (TableContent.next target) none

theorem contentOf_concat (target : String) (executed : List Sql.Statement)
    (statement : Sql.Statement) : contentOf target (executed ++ [statement]) =
      TableContent.next target (contentOf target executed) statement :=
  List.foldl_concat ..

namespace OptimizedSource

variable {source : OptimizedSource} {executed : List Sql.Statement} {missing : List Date}
  {statement : Sql.Statement}

/-- The table was last built by the statement of this source, and so were the rows that
have been added since. -/
def Builds (source : OptimizedSource) (executed : List Sql.Statement) : Prop :=
  ∃ additions, contentOf source.optimizedTable executed = some ⟨source.fullRefresh, additions⟩ ∧
    ∀ addition ∈ additions, ∃ missing, source.incremental? missing = some addition

theorem builds_fullRefresh (source : OptimizedSource) (executed : List Sql.Statement) :
    source.Builds (executed ++ [source.fullRefresh]) := by
  refine ⟨[], ?_, fun _ h => absurd h List.not_mem_nil⟩
  rw [contentOf_concat, fullRefresh, TableContent.next, if_pos rfl]

theorem Builds.incremental (h : source.Builds executed)
    (hstatement : source.incremental? missing = some statement) :
    source.Builds (executed ++ [statement]) := by
  obtain ⟨additions, hcontent, hadditions⟩ := h
  refine ⟨additions ++ [statement], ?_, fun addition hmem => ?_⟩
  · rw [contentOf_concat, hcontent]
    rw [incremental?] at hstatement
    split at hstatement
    · cases hstatement
    · obtain rfl := Option.some.inj hstatement
      rw [TableContent.next, if_pos rfl]
      rfl
  · rcases List.mem_append.1 hmem with hmem | hmem
    · exact hadditions addition hmem
    · exact ⟨missing, List.mem_singleton.1 hmem ▸ hstatement⟩

/-- A question changes no table. -/
theorem Builds.question (h : source.Builds executed)
    (hstatement : ∀ content, TableContent.next source.optimizedTable content statement = content) :
    source.Builds (executed ++ [statement]) := by
  obtain ⟨additions, hcontent, hadditions⟩ := h
  exact ⟨additions, by rw [contentOf_concat, hstatement, hcontent], hadditions⟩

end OptimizedSource

namespace Service

open Work (Pause Answers)

variable {service : Service} {table : String} {mode : RefreshMode} {s : State} {α : Type}
  {stored : Option OptimizedSource} {source plan : OptimizedSource} {stage : Stage}
  {executed : List Sql.Statement}

/-! ## A refresh under way -/

/-- The stage is one of a refresh by `source`, which builds the table first unless it
has built it before. -/
structure Stage.Follows (source : OptimizedSource) (executed : List Sql.Statement)
    (stage : Stage) : Prop where
  fits : stage.Fits source
  builds : source.Builds executed ∨ stage = .building ∧ source.build.isReady = false

theorem Stage.Follows.builds_of_ne (h : stage.Follows source executed)
    (hne : stage ≠ .building) : source.Builds executed :=
  h.builds.resolve_right fun hbuilding => hne hbuilding.1

theorem Stage.Follows.builds_statement (h : stage.Follows source executed) :
    source.Builds (executed ++ [stage.statement source]) := by
  cases stage with
  | building => exact OptimizedSource.builds_fullRefresh source executed
  | comparing => exact (h.builds_of_ne (by simp)).question fun _ => rfl
  | adding missing statement => exact (h.builds_of_ne (by simp)).incremental h.fits
  | sizing mode added => exact (h.builds_of_ne (by simp)).question fun _ => rfl

theorem follows_firstStage (h : source.build.isReady = true → source.Builds executed)
    (mode : RefreshMode) : (firstStage mode source).Follows source executed := by
  cases hready : source.build.isReady with
  | true =>
    refine ⟨?_, .inl (h hready)⟩
    rw [firstStage]
    cases source.effectiveMode mode <;> trivial
  | false =>
    have hfull : firstStage mode source = .building := by
      simp [firstStage, OptimizedSource.effectiveMode, hready]
    exact ⟨hfull ▸ trivial, .inr ⟨hfull, hready⟩⟩

/-- What is stored during a refresh by `source`: the same source, marked as building,
or one that is neither ready nor building. -/
def Marked (source : OptimizedSource) (stored : Option OptimizedSource) : Prop :=
  ∃ current, stored = some current ∧ current.build.isReady = false ∧
    (current.build.status = .building → current = { source with build := current.build })

theorem marked_markBuilding (source : OptimizedSource) :
    Marked source (some { source with build := source.build.markBuilding }) :=
  ⟨_, rfl, rfl, fun _ => rfl⟩

namespace Marked

theorem exists_eq_some (h : Marked source stored) : ∃ current, stored = some current :=
  h.imp fun _ hcurrent => hcurrent.1

theorem isReady_eq_false (h : Marked source stored) (hstored : stored = some plan) :
    plan.build.isReady = false := by
  obtain ⟨current, rfl, hready, -⟩ := h
  exact Option.some.inj hstored ▸ hready

theorem eq_of_building (h : Marked source (some plan)) (hstatus : plan.build.status = .building) :
    plan = { source with build := plan.build } := by
  obtain ⟨current, hcurrent, -, heq⟩ := h
  obtain rfl := Option.some.inj hcurrent
  exact heq hstatus

theorem replans (h : Marked source stored) (hplan : Replans stored plan) :
    Marked source (some plan) := by
  rcases hplan with rfl | ⟨hready, hstatus⟩
  · exact h
  · exact ⟨plan, rfl, hready, fun hbuilding => absurd hbuilding hstatus⟩

end Marked

/-- A refresh waits for a plan, or at a stage. -/
inductive Refreshes (service : Service) (table : String) (stored : Option OptimizedSource)
    (executed : List Sql.Statement) : Pause State RefreshSummary → Prop where
  | planning {mode : RefreshMode} {p : Pause State RefreshSummary} :
    Planning service table (refreshPlanned table mode) [releaseSource table] p →
      Refreshes service table stored executed p
  | staged {source : OptimizedSource} {stage : Stage} :
    stage.Follows source executed → Marked source stored →
      Refreshes service table stored executed (stage.pause table source)

theorem Refreshes.replans {p : Pause State RefreshSummary}
    (h : Refreshes service table stored executed p) (hplan : Replans stored plan) :
    Refreshes service table (some plan) executed p := by
  cases h with
  | planning hp => exact .planning hp
  | staged hfollows hmarked => exact .staged hfollows (hmarked.replans hplan)

/-! ## Many callers -/

/-- The state, the statements that the warehouse has executed for the callers, and what
each of them waits for. -/
structure Upkeep where
  state : State
  executed : List Sql.Statement
  calls : Nat → Option (Pause State OptimizedSource ⊕ Pause State RefreshSummary)

namespace Upkeep

/-- Nobody waits yet. -/
def start (s : State) : Upkeep := ⟨s, [], fun _ => none⟩

inductive Event where
  /-- A caller that waits for nothing plans the source. -/
  | plan (caller : Nat)
  /-- A caller that waits for nothing refreshes the source. -/
  | refresh (caller : Nat) (mode : RefreshMode)
  /-- A caller gets the answer that it waits for. A statement that fails may have been
  executed `regardless`. -/
  | reply (caller : Nat) (answers : Answers) (regardless : Bool)
  /-- A caller gives up. The statement that it waits for has been executed `regardless`,
  or is given up too. -/
  | cancel (caller : Nat) (regardless : Bool)
  /-- All but the stored source and the claims becomes as it is in another state. -/
  | change (other : State)

/-- The statement that work waits for, if it is one that the warehouse has executed. -/
def executedBy (succeeds : Sql.Statement → Bool) : Pause State α → List Sql.Statement
  | .asking (.execute statement) _ _ => if succeeds statement then [statement] else []
  | .ended _ | .asking (.dryRun _) .. | .asking (.columns _) .. | .counting .. => []

/-- A call has gone on as far as it gets without an answer. -/
def settle (c : Upkeep) (caller : Nat) (executed : List Sql.Statement)
    (call : Pause State α → Pause State OptimizedSource ⊕ Pause State RefreshSummary)
    (outcome : Pause State α × State) : Upkeep where
  state := outcome.2
  executed := c.executed ++ executed
  calls := Function.update c.calls caller
    (if outcome.1.hasEnded then none else some (call outcome.1))

/-- Everything but the stored source of a table and the claims as in another state. -/
def changed (table : String) (s other : State) : State :=
  { other with
    store := other.store.modifyFiles table fun files =>
      { files with optimized := (s.store.files table).optimized }
    claims := s.claims }

def step (service : Service) (table : String) (c : Upkeep) : Event → Upkeep
  | .plan caller =>
    match c.calls caller with
    | some _ => c
    | none => c.settle caller [] .inl ((service.planOptimized table).advance [] c.state)
  | .refresh caller mode =>
    match c.calls caller with
    | some _ => c
    | none => c.settle caller [] .inr ((service.refreshOptimized table mode).advance [] c.state)
  | .reply caller answers regardless =>
    let succeeds statement := regardless || (answers.reply (.execute statement)).isOk
    match c.calls caller with
    | none => c
    | some (.inl p) => c.settle caller (executedBy succeeds p) .inl (p.resume answers c.state)
    | some (.inr p) => c.settle caller (executedBy succeeds p) .inr (p.resume answers c.state)
  | .cancel caller regardless =>
    match c.calls caller with
    | none => c
    | some (.inl p) =>
      ⟨p.drop c.state, c.executed ++ executedBy (fun _ => regardless) p,
        Function.update c.calls caller none⟩
    | some (.inr p) =>
      ⟨p.drop c.state, c.executed ++ executedBy (fun _ => regardless) p,
        Function.update c.calls caller none⟩
  | .change other => { c with state := changed table c.state other }

def run (service : Service) (table : String) (c : Upkeep) (events : List Event) : Upkeep :=
  events.foldl (step service table) c

variable {c : Upkeep} {caller : Nat}

/-! ## What holds at all times -/

/-- A ready source has built its table, and at most one refresh is under way, by a
source that is marked. -/
structure Valid (service : Service) (table : String) (stored : Option OptimizedSource)
    (c : Upkeep) : Prop where
  load : c.state.store.loadOptimized table = .ok stored
  builds : ∀ source, stored = some source → source.build.isReady = true →
    source.Builds c.executed
  planning : ∀ {caller p}, c.calls caller = some (.inl p) →
    Planning service table (fun plan => .done (.ok plan)) [] p
  refreshing : ∀ {caller p}, c.calls caller = some (.inr p) →
    Refreshes service table stored c.executed p
  claimed : ∀ {caller p}, c.calls caller = some (.inr p) →
    c.state.claims.isRunning (optimizedKey table) = true
  unique : ∀ {caller caller' p p'}, c.calls caller = some (.inr p) →
    c.calls caller' = some (.inr p') → caller = caller'

theorem Valid.only {p : Pause State RefreshSummary} (h : Valid service table stored c)
    (hcall : c.calls caller = some (.inr p)) (n : Nat) (q : Pause State RefreshSummary)
    (hne : n ≠ caller) : c.calls n ≠ some (.inr q) :=
  fun hn => hne (h.unique hn hcall)

theorem valid_start (h : s.store.loadOptimized table = .ok none) :
    Valid service table none (start s) where
  load := h
  builds _ h := by cases h
  planning h := by cases h
  refreshing h := by cases h
  claimed h := by cases h
  unique h := by cases h

/-- A step that may save a plan, but changes no refresh. -/
theorem Valid.of_plan {stored' : Option OptimizedSource} (h : Valid service table stored c)
    (call : Option (Pause State OptimizedSource))
    (hload : s.store.loadOptimized table = .ok stored')
    (hclaims : s.claims.isRunning (optimizedKey table) =
      c.state.claims.isRunning (optimizedKey table))
    (hplan : stored' = stored ∨ ∃ plan, stored' = some plan ∧ Replans stored plan)
    (hcall : ∀ p, call = some p → Planning service table (fun plan => .done (.ok plan)) [] p) :
    Valid service table stored'
      ⟨s, c.executed, Function.update c.calls caller (call.map .inl)⟩ := by
  have hrefresh {n : Nat} {p : Pause State RefreshSummary}
      (hn : Function.update c.calls caller (call.map .inl) n = some (.inr p)) :
      c.calls n = some (.inr p) := by
    rcases Traffic.update_eq_some_iff.1 hn with ⟨rfl, hnew⟩ | ⟨-, hn⟩
    · cases call <;> simp at hnew
    · exact hn
  refine ⟨hload, fun source hsource hready => ?_, fun {n p} hn => ?_, fun hn => ?_,
    fun hn => hclaims.trans (h.claimed (hrefresh hn)),
    fun hn hn' => h.unique (hrefresh hn) (hrefresh hn')⟩
  · rcases hplan with rfl | ⟨plan, rfl, hplan⟩
    · exact h.builds source hsource hready
    · obtain rfl := Option.some.inj hsource
      rcases hplan with hsame | ⟨hnot, -⟩
      · exact h.builds plan hsame hready
      · exact absurd hready (by simp [hnot])
  · rcases Traffic.update_eq_some_iff.1 hn with ⟨-, hnew⟩ | ⟨-, hn⟩
    · obtain ⟨q, hq, heq⟩ := Option.map_eq_some_iff.1 hnew
      exact Sum.inl.inj heq ▸ hcall q hq
    · exact h.planning hn
  · rcases hplan with rfl | ⟨plan, rfl, hplan⟩
    · exact h.refreshing (hrefresh hn)
    · exact (h.refreshing (hrefresh hn)).replans hplan

/-- A step of the only caller that holds the claim, or that takes it. -/
theorem Valid.of_refresh {stored' : Option OptimizedSource} (h : Valid service table stored c)
    (call : Option (Pause State RefreshSummary))
    (hcaller : ∀ n p, n ≠ caller → c.calls n ≠ some (.inr p))
    (hload : s.store.loadOptimized table = .ok stored')
    (hbuilds : ∀ source, stored' = some source → source.build.isReady = true →
      source.Builds executed)
    (hcall : ∀ p, call = some p → Refreshes service table stored' executed p ∧
      s.claims.isRunning (optimizedKey table) = true) :
    Valid service table stored' ⟨s, executed, Function.update c.calls caller (call.map .inr)⟩ := by
  have hrefresh {n : Nat} {p : Pause State RefreshSummary}
      (hn : Function.update c.calls caller (call.map .inr) n = some (.inr p)) :
      n = caller ∧ call = some p := by
    rcases Traffic.update_eq_some_iff.1 hn with ⟨hcaller, hnew⟩ | ⟨hne, hn⟩
    · obtain ⟨q, hq, heq⟩ := Option.map_eq_some_iff.1 hnew
      exact ⟨hcaller, Sum.inr.inj heq ▸ hq⟩
    · exact absurd hn (hcaller n p hne)
  refine ⟨hload, hbuilds, fun {n p} hn => ?_, fun hn => (hcall _ (hrefresh hn).2).1,
    fun hn => (hcall _ (hrefresh hn).2).2,
    fun hn hn' => (hrefresh hn).1.trans (hrefresh hn').1.symm⟩
  rcases Traffic.update_eq_some_iff.1 hn with ⟨-, hnew⟩ | ⟨-, hn⟩
  · obtain ⟨q, -, heq⟩ := Option.map_eq_some_iff.1 hnew
    cases heq
  · exact h.planning hn

theorem settle_ended (c : Upkeep) (caller : Nat) (executed : List Sql.Statement)
    (call : Pause State α → Pause State OptimizedSource ⊕ Pause State RefreshSummary)
    (result : Except Error α) (s : State) :
    c.settle caller executed call (.ended result, s) =
      ⟨s, c.executed ++ executed, Function.update c.calls caller none⟩ := rfl

theorem settle_of_waiting {p : Pause State α} (hp : p.hasEnded = false) (c : Upkeep) (caller : Nat)
    (executed : List Sql.Statement)
    (call : Pause State α → Pause State OptimizedSource ⊕ Pause State RefreshSummary) (s : State) :
    c.settle caller executed call (p, s) =
      ⟨s, c.executed ++ executed, Function.update c.calls caller (some (call p))⟩ := by
  simp [settle, hp]

theorem executedBy_of_planning {k : OptimizedSource → Task α} {cleanups : List (State → State)}
    {p : Pause State α} (hp : Planning service table k cleanups p)
    (succeeds : Sql.Statement → Bool) : executedBy succeeds p = [] := by
  obtain ⟨queries, next, rfl, -⟩ := hp
  rfl

/-- Whether its statement has been executed or not, a refresh may be where it is. -/
theorem follows_executedBy (h : stage.Follows source executed) (succeeds : Sql.Statement → Bool) :
    stage.Follows source (executed ++ executedBy succeeds (stage.pause table source)) := by
  simp only [Stage.pause, executedBy]
  split
  · exact ⟨h.fits, .inl h.builds_statement⟩
  · exact (List.append_nil executed).symm ▸ h

/-- How far a plan may have got that was saved as `stored` before. -/
theorem valid_settle_plan {outcome : Pause State OptimizedSource × State}
    (h : Valid service table stored c)
    (houtcome : (∃ result, outcome = (.ended result, c.state)) ∨
      (∃ p, Planning service table (fun plan => .done (.ok plan)) [] p ∧ outcome = (p, c.state)) ∨
      ∃ plan s, Replans stored plan ∧ Stores table plan c.state s ∧
        outcome = (.ended (.ok plan), s)) :
    ∃ stored', Valid service table stored' (c.settle caller [] .inl outcome) := by
  rcases houtcome with ⟨result, rfl⟩ | ⟨p, hp, rfl⟩ | ⟨plan, s, hplan, hs, rfl⟩
  · rw [settle_ended, List.append_nil]
    exact ⟨stored, h.of_plan none h.load rfl (.inl rfl) nofun⟩
  · rw [settle_of_waiting hp.hasEnded_eq_false, List.append_nil]
    refine ⟨stored, h.of_plan (some p) h.load rfl (.inl rfl) fun q hq => ?_⟩
    exact Option.some.inj hq ▸ hp
  · rw [settle_ended, List.append_nil]
    exact ⟨some plan, h.of_plan none hs.load (by rw [hs.claims])
      (.inr ⟨plan, rfl, hplan⟩) nofun⟩

theorem valid_step_plan (h : Valid service table stored c) (caller : Nat) :
    ∃ stored', Valid service table stored' (c.step service table (.plan caller)) := by
  cases hcall : c.calls caller with
  | some call => exact ⟨stored, by simpa only [step, hcall] using h⟩
  | none =>
    simp only [step, hcall]
    refine valid_settle_plan h ?_
    rw [← Work.bind_pure (service.planOptimized table)]
    rcases planOptimized_bind_cases service (fun plan => .done (.ok plan)) [] h.load with
      ⟨e, heq⟩ | ⟨p, hp, heq⟩ | ⟨plan, s, hplan, hs, heq⟩
    · exact .inl ⟨.error e, heq⟩
    · exact .inr (.inl ⟨p, hp, heq⟩)
    · exact .inr (.inr ⟨plan, s, hplan, hs, heq⟩)

/-- A refresh that gets its plan waits at its first stage. -/
theorem valid_firstStage {plan : OptimizedSource} (h : Valid service table stored c)
    (hcaller : ∀ n p, n ≠ caller → c.calls n ≠ some (.inr p)) (hplan : Replans stored plan)
    (hload : s.store.loadOptimized table =
      .ok (some { plan with build := plan.build.markBuilding }))
    (hclaimed : s.claims.isRunning (optimizedKey table) = true) (mode : RefreshMode) :
    ∃ stored', Valid service table stored' (c.settle caller [] .inr
      ((firstStage mode plan).pause table plan, s)) := by
  rw [settle_of_waiting (Stage.hasEnded_pause ..), List.append_nil]
  refine ⟨_, h.of_refresh (some _) hcaller hload (fun source hsource hready => ?_)
    fun p hp => ?_⟩
  · obtain rfl := Option.some.inj hsource
    cases hready
  · refine Option.some.inj hp ▸ ⟨.staged (follows_firstStage (fun hready => ?_) mode)
      (marked_markBuilding plan), hclaimed⟩
    rcases hplan with hsame | ⟨hnot, -⟩
    · exact h.builds plan hsame hready
    · exact absurd hready (by simp [hnot])

theorem valid_step_refresh (h : Valid service table stored c) (caller : Nat) (mode : RefreshMode) :
    ∃ stored', Valid service table stored' (c.step service table (.refresh caller mode)) := by
  cases hcall : c.calls caller with
  | some call => exact ⟨stored, by simpa only [step, hcall] using h⟩
  | none =>
    simp only [step, hcall]
    rcases refreshOptimized_cases service h.load mode with
      ⟨e, s, heq, hstore, hclaims⟩ | ⟨hfree, hcases⟩
    · rw [heq, settle_ended, List.append_nil]
      exact ⟨stored, h.of_plan none (hstore ▸ h.load) (hclaims _)
        (.inl rfl) nofun⟩
    · have hcaller (n : Nat) (p : Pause State RefreshSummary) (_ : n ≠ caller)
          (hn : c.calls n = some (.inr p)) : False :=
        Bool.false_ne_true (hfree.symm.trans (h.claimed hn))
      have hclaimed := isRunning_claimSource table c.state
      rcases hcases with ⟨p, hp, heq⟩ | ⟨plan, s, hplan, hs, heq⟩
      · rw [heq, settle_of_waiting hp.hasEnded_eq_false, List.append_nil]
        refine ⟨stored, h.of_refresh (some p) hcaller h.load h.builds fun q hq => ?_⟩
        exact Option.some.inj hq ▸ ⟨.planning hp, hclaimed⟩
      · rw [heq]
        exact valid_firstStage h hcaller hplan hs.load (hs.claims ▸ hclaimed) mode

/-- A source that is ready after a refresh by `source` was ready before, or is that of
the refresh, which has succeeded. -/
theorem ready_recorded {source current : OptimizedSource} {now : Timestamp}
    {result : Except Error (RefreshSummary × TableStats)}
    (h : (recorded (source.recordRefresh now result).2 current).build.isReady = true) :
    (∃ done, result = .ok done) ∧
      ∃ build, recorded (source.recordRefresh now result).2 current = { source with build } := by
  rw [recorded] at h ⊢
  split at h
  · rename_i hsame
    rw [if_pos hsame]
    cases result with
    | error e => cases h
    | ok done => exact ⟨⟨done, rfl⟩, _, rfl⟩
  · simp [BuildState.markStale_isReady] at h

/-- A refresh at a stage gets an answer. -/
theorem valid_settle_staged {current : OptimizedSource} (h : Valid service table (some current) c)
    (hcaller : ∀ n p, n ≠ caller → c.calls n ≠ some (.inr p))
    (hclaimed : c.state.claims.isRunning (optimizedKey table) = true)
    (hfollows : stage.Follows source c.executed) (hmarked : Marked source (some current))
    (answers : Answers) (succeeds : Sql.Statement → Bool)
    (hsucceeds : ∀ statement, (answers.reply (.execute statement)).isOk → succeeds statement) :
    ∃ stored', Valid service table stored'
      (c.settle caller (executedBy succeeds (stage.pause table source)) .inr
        ((stage.pause table source).resume answers c.state)) := by
  rcases Stage.resume_cases h.load source hfollows.fits answers with
    ⟨answer, hanswer, stage', hfits, heq⟩ | ⟨result, outcome, s, hsizing, hends, heq⟩
  · have hexecuted : executedBy succeeds (stage.pause table source) =
        [stage.statement source] :=
      if_pos (hsucceeds _ (by rw [hanswer]; rfl))
    rw [heq, settle_of_waiting (Stage.hasEnded_pause ..), hexecuted]
    refine ⟨_, h.of_refresh (some _) hcaller h.load (fun ready hstored hready => ?_)
      fun p hp => ?_⟩
    · exact absurd hready (by simp [hmarked.isReady_eq_false hstored])
    · exact Option.some.inj hp ▸
        ⟨.staged ⟨hfits, .inl hfollows.builds_statement⟩ hmarked, hclaimed⟩
  · rw [heq, settle_ended]
    refine ⟨_, h.of_refresh none hcaller hends.load (fun ready hstored hready => ?_)
      nofun⟩
    obtain rfl := Option.some.inj hstored
    obtain ⟨⟨done, rfl⟩, build, hrecorded⟩ := ready_recorded hready
    obtain ⟨mode, added, rfl⟩ := hsizing done rfl
    rw [hrecorded]
    exact (follows_executedBy hfollows succeeds).builds_of_ne (by simp)

theorem valid_step_reply (h : Valid service table stored c) (caller : Nat) (answers : Answers)
    (regardless : Bool) :
    ∃ stored', Valid service table stored'
      (c.step service table (.reply caller answers regardless)) := by
  cases hcall : c.calls caller with
  | none => exact ⟨stored, by simpa only [step, hcall] using h⟩
  | some call =>
    simp only [step, hcall]
    cases call with
    | inl p =>
      have hp := h.planning hcall
      dsimp only
      rw [executedBy_of_planning hp]
      refine valid_settle_plan h ?_
      rcases hp.resume_cases h.load answers with ⟨e, heq⟩ | ⟨plan, s, hplan, hs, heq⟩
      · exact .inl ⟨.error e, heq⟩
      · exact .inr (.inr ⟨plan, s, hplan, hs, heq⟩)
    | inr p =>
      have hcaller := h.only hcall
      have hclaimed := h.claimed hcall
      dsimp only
      cases h.refreshing hcall with
      | planning hp =>
        rw [executedBy_of_planning hp]
        rcases hp.resume_cases h.load answers with ⟨e, heq⟩ | ⟨plan, s, hplan, hs, heq⟩
        · rw [heq, settle_ended, List.append_nil]
          exact ⟨stored, h.of_refresh none hcaller h.load h.builds nofun⟩
        · rw [heq, advance_refreshPlanned hs.load]
          exact valid_firstStage h hcaller hplan (loadOptimized_withOptimized hs.load)
            (hs.claims ▸ hclaimed) _
      | staged hfollows hmarked =>
        obtain ⟨current, rfl⟩ := hmarked.exists_eq_some
        exact valid_settle_staged h hcaller hclaimed hfollows hmarked answers _
          fun statement hok => by simp [hok]

/-- A refresh at a stage is dropped. -/
theorem valid_drop_staged {current : OptimizedSource} (h : Valid service table (some current) c)
    (hcaller : ∀ n p, n ≠ caller → c.calls n ≠ some (.inr p))
    (hfollows : stage.Follows source c.executed) (hmarked : Marked source (some current))
    (succeeds : Sql.Statement → Bool) :
    ∃ stored', Valid service table stored' ⟨(stage.pause table source).drop c.state,
      c.executed ++ executedBy succeeds (stage.pause table source),
      Function.update c.calls caller none⟩ := by
  have hends := Stage.drop_ends h.load source stage
  refine ⟨_, h.of_refresh none hcaller hends.load (fun ready hstored hready => ?_) nofun⟩
  obtain rfl := Option.some.inj hstored
  by_cases hstatus : current.build.status = .building
  · -- the plan has not changed, and its build state is put back
    rw [hmarked.eq_of_building hstatus] at hready ⊢
    simp only [restoreBuild, hstatus, if_true] at hready ⊢
    rcases (follows_executedBy hfollows succeeds).builds with hbuilds | ⟨-, hunready⟩
    · exact hbuilds
    · exact absurd hready (by simp [hunready])
  · simp only [restoreBuild, hstatus, if_false] at hready
    exact absurd hready (by simp [hmarked.isReady_eq_false rfl])

theorem valid_step_cancel (h : Valid service table stored c) (caller : Nat) (regardless : Bool) :
    ∃ stored', Valid service table stored'
      (c.step service table (.cancel caller regardless)) := by
  cases hcall : c.calls caller with
  | none => exact ⟨stored, by simpa only [step, hcall] using h⟩
  | some call =>
    simp only [step, hcall]
    cases call with
    | inl p =>
      have hp := h.planning hcall
      dsimp only
      rw [executedBy_of_planning hp, List.append_nil, hp.drop_eq]
      exact ⟨stored, h.of_plan none h.load rfl (.inl rfl) nofun⟩
    | inr p =>
      dsimp only
      cases h.refreshing hcall with
      | planning hp =>
        rw [executedBy_of_planning hp, List.append_nil, hp.drop_eq]
        exact ⟨stored, h.of_refresh none (h.only hcall) h.load h.builds nofun⟩
      | staged hfollows hmarked =>
        obtain ⟨current, rfl⟩ := hmarked.exists_eq_some
        exact valid_drop_staged h (h.only hcall) hfollows hmarked _

theorem valid_step (h : Valid service table stored c) (e : Event) :
    ∃ stored', Valid service table stored' (c.step service table e) := by
  cases e with
  | plan caller => exact valid_step_plan h caller
  | refresh caller mode => exact valid_step_refresh h caller mode
  | reply caller answers regardless => exact valid_step_reply h caller answers regardless
  | cancel caller regardless => exact valid_step_cancel h caller regardless
  | change other =>
    refine ⟨stored, ?_, h.builds, h.planning, h.refreshing, h.claimed, h.unique⟩
    rw [← h.load]
    exact loadOptimized_congr (by simp [step, changed, Store.files_modifyFiles])

theorem valid_run (h : Valid service table stored c) (events : List Event) :
    ∃ stored', Valid service table stored' (c.run service table events) := by
  induction events generalizing c stored with
  | nil => exact ⟨stored, h⟩
  | cons e rest ih =>
    obtain ⟨stored', hstep⟩ := valid_step h e
    exact ih hstep

/-- Whatever callers do to a source that was not there at first, whenever it is ready
its table was last built by its own statement, and so were all additions since. -/
theorem builds_of_isReady (h : s.store.loadOptimized table = .ok none) (events : List Event)
    (source : OptimizedSource)
    (hload : ((start s).run service table events).state.store.loadOptimized
      table = .ok (some source)) (hready : source.build.isReady = true) :
    source.Builds ((start s).run service table events).executed := by
  obtain ⟨stored, hvalid⟩ : ∃ stored, Valid service table stored
      ((start s).run service table events) := valid_run (valid_start h) events
  exact hvalid.builds source (Except.ok.inj (hvalid.load.symm.trans hload)) hready

/-- A schema with a metric that counts each of these combinations of columns. -/
def adsSchema (combinations : List (List String)) : State where
  store := ⟨[("ads", { schema := some (.saved
    { table := "ads"
      sourceTable := "raw.ads"
      baseMetrics := combinations.map fun columns =>
        { id := "_".intercalate columns, sourceColumns := columns, aggregation := .countDistinct }
      dimensions := [{ id := "country", columnName := "country" }] }) })]⟩
  now := ⟨0, 0⟩

/-- The warehouse does what it is asked, and finds that these dates lack. -/
def lacking (dates : List String) : Answers where
  reply
    | .execute _ => .ok { columns := ["partition_date"], rows := dates.map fun d => [.text d] }
    | .dryRun _ => .ok ()
    | .columns _ => .ok {}
  counts queries := .ok (queries.map fun _ => 0)

/-- A first refresh makes a plan and builds the table, and meanwhile a metric is added
and the plan with it. So a refresh of single dates builds the table again; the next one
gives up while it adds a date, which the warehouse adds all the same. -/
def adsEvents : List Event := [
  .refresh 0 .full, .reply 0 (lacking []) false,
  .change (adsSchema [["ad", "query"], ["ad", "account"]]), .plan 1, .reply 1 (lacking []) false,
  .reply 0 (lacking []) false, .reply 0 (lacking []) false,
  .refresh 0 .incremental, .reply 0 (lacking []) false, .reply 0 (lacking []) false,
  .refresh 0 .incremental, .reply 0 (lacking ["2024-01-02"]) false, .cancel 0 true]

theorem builds_of_cancelled_addition :
    (contentOf "raw.ads_optimized" ((start (adsSchema [["ad", "query"]])).run {}
      "ads" adsEvents).executed).map (·.additions.length) = some 1 ∧
    ∃ source : OptimizedSource, source.optimizedTable = "raw.ads_optimized" ∧
      source.keyMappings.length = 2 ∧ source.Builds
        ((start (adsSchema [["ad", "query"]])).run {} "ads"
          adsEvents).executed := by
  refine ⟨by decide +kernel, ?_⟩
  have hready : ((((start (adsSchema [["ad", "query"]])).run {} "ads"
      adsEvents).state.store.loadOptimized "ads").toOption.join.any fun source =>
        source.optimizedTable = "raw.ads_optimized" ∧ source.keyMappings.length = 2 ∧
          source.build.isReady) = true := by decide +kernel
  obtain ⟨source, hsource, hplan⟩ := Option.any_eq_true _ _ |>.1 hready
  simp only [decide_eq_true_eq] at hplan
  obtain ⟨htable, hkeys, hready⟩ := hplan
  refine ⟨source, htable, hkeys, builds_of_isReady rfl adsEvents source ?_ hready⟩
  cases hload : ((start (adsSchema [["ad", "query"]])).run {} "ads"
      adsEvents).state.store.loadOptimized "ads" with
  | error e => simp [hload, Except.toOption] at hsource
  | ok stored =>
    rw [hload] at hsource
    exact congrArg Except.ok hsource

end Upkeep

end Service

end MetricLayer
