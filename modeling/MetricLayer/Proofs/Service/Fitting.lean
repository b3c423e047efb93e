import MetricLayer.Proofs.Service.Edits
import MetricLayer.Proofs.Service.Protocol

/-!
# Stored rollups fit the stored schema

The schema of a table and its rollups are stored apart from each other. Still the
rollups fit the schema (`Fitting`): their ids are distinct, and each passes the
checks of its shape. A call that edits the schema keeps what rollups rest on
(`Fitting.act`), a call that edits rollups checks them against the schema, and a
refresh changes nothing but builds (`Fitting.of_sameDefinitions`). So the rollups
fit in whatever state these lead to (`fitting_run`), and the statement that builds
one of them fails for the expression of a calculated dimension only.
-/

namespace MetricLayer

open RollupCatalog (checkShape_eq_ok_iff checkDimensions_eq_ok_iff checkMetrics_eq_ok_iff
  checkMetric_eq_ok_iff)

/-! ## The query of a rollup that fits -/

namespace RollupSource

variable {b : RollupSource} {rollup : RollupDefinition} {e : Error}

theorem exists_of_dimensionExpr_eq_error {id : String} (h : b.dimensionExpr rollup.id id = .error e)
    (hknown : (b.registry.dimension? id).isSome = true) :
    ∃ dim, b.registry.dimension? id = some (.calculated dim) ∧
      RowExpression.compile b.dialect dim.sqlExpression = .error e := by
  rw [dimensionExpr] at h
  cases hdimension : b.registry.dimension? id with
  | none =>
    rw [hdimension] at hknown
    cases hknown
  | some kind =>
    cases kind with
    | column dim =>
      rw [hdimension] at h
      cases h
    | calculated dim =>
      simp only [hdimension, bind, Except.bind_eq_error] at h
      rcases h with hcompile | ⟨c, -, h⟩
      · exact ⟨dim, rfl, hcompile⟩
      · cases h

theorem metricItems_ne_error {m : RollupMetric}
    (h : RollupCatalog.checkMetric b.registry m = .ok ()) :
    b.metricItems rollup.id m ≠ .error e := by
  obtain ⟨hbase, hflag⟩ := checkMetric_eq_ok_iff.1 h
  obtain ⟨base, hbase⟩ := Option.isSome_iff_exists.1 hbase
  rw [metricItems, hbase]
  cases hconditional : m.includeConditional with
  | false => nofun
  | true =>
    obtain ⟨flag, hflag⟩ := Option.isSome_iff_exists.1 (hflag hconditional)
    rw [hflag]
    nofun

/-- A rollup that fits has a query, unless the expression of one of its calculated
dimensions does not compile. -/
theorem exists_of_query_eq_error
    (hshape : RollupCatalog.checkShape b.registry rollup.dimensions rollup.metrics = .ok ())
    (h : b.query rollup = .error e) :
    ∃ id ∈ rollup.dimensions, ∃ dim, b.registry.dimension? id = some (.calculated dim) ∧
      RowExpression.compile b.dialect dim.sqlExpression = .error e := by
  obtain ⟨-, -, hdimensions, hmetrics⟩ := checkShape_eq_ok_iff.1 hshape
  simp only [query, bind, Except.bind_eq_error] at h
  rcases h with hexprs | ⟨exprs, -, hitems | ⟨items, -, h⟩⟩
  · obtain ⟨id, hid, hfail⟩ := Except.exists_of_mapM_eq_error hexprs
    exact ⟨id, hid, exists_of_dimensionExpr_eq_error hfail
      ((checkDimensions_eq_ok_iff.1 hdimensions).2 id hid)⟩
  · obtain ⟨m, hm, hfail⟩ := Except.exists_of_mapM_eq_error hitems
    exact absurd hfail (metricItems_ne_error ((checkMetrics_eq_ok_iff.1 hmetrics).2 m hm))
  · cases h

end RollupSource

namespace Service

variable {service : Service} {α : Type} {table : String} {s s' : State} {r : Registry}
  {rollups : List RollupDefinition}

/-! ## Fitting tables -/

/-- The schema of a table can be loaded, and the rollups fit it. -/
def Fitting (table : String) (s : State) : Prop :=
  ∃ r rollups, ((loadRegistry table).run s).1 = .ok r ∧
    s.store.loadRollups table = .ok rollups ∧ RollupCatalog.Accepted r rollups

theorem accepted_of_loadRegistry (h : ((loadRegistry table).run s).1 = .ok r) : r.Accepted := by
  simp only [loadRegistry, Action.run_bind, Action.run_get, Action.run_lift] at h
  cases hload : s.store.loadSchema table with
  | error e =>
    rw [hload] at h
    cases h
  | ok document =>
    rw [hload] at h
    cases document with
    | none => cases h
    | some document =>
      simp only [Action.run_lift] at h
      exact (Registry.ofDocument_eq_ok_iff.1 h).2

theorem accepted_map_withoutBuild :
    RollupCatalog.Accepted r (rollups.map withoutBuild) ↔ RollupCatalog.Accepted r rollups := by
  have hids : (rollups.map withoutBuild).map (·.id) = rollups.map (·.id) := by
    rw [List.map_map]
    rfl
  constructor
  · intro h
    exact ⟨hids ▸ h.nodup, List.forall_mem_map.1 h.shaped⟩
  · intro h
    exact ⟨hids ▸ h.nodup, List.forall_mem_map.2 h.shaped⟩

namespace Fitting

/-- How rollups were built does not matter. -/
theorem of_sameDefinitions (h : Fitting table s) (hsame : SameDefinitions s s') :
    Fitting table s' := by
  obtain ⟨r, rollups, hr, hload, haccepted⟩ := h
  have hrollups := hsame.rollups table
  rw [hload] at hrollups
  cases hload' : s'.store.loadRollups table with
  | error e =>
    rw [hload'] at hrollups
    cases hrollups
  | ok rollups' =>
    rw [hload'] at hrollups
    refine ⟨r, rollups', (hsame.loadRegistry table).trans hr, hload', ?_⟩
    have heq : rollups'.map withoutBuild = rollups.map withoutBuild := Except.ok.inj hrollups
    rwa [← accepted_map_withoutBuild, heq, accepted_map_withoutBuild]

/-! ### Calls that edit rollups -/

theorem editCatalog (h : Fitting table s)
    {edit : RollupCatalog → Except Error (α × RollupCatalog)}
    (hedit : ∀ r c a c', ((loadRegistry table).run s).1 = .ok r →
      RollupCatalog.Accepted r c.rollups → edit c = .ok (a, c') →
        RollupCatalog.Accepted r c'.rollups) :
    Fitting table (after (editCatalog table edit) s) := by
  obtain ⟨r, rollups, hr, hload, haccepted⟩ := h
  rw [after, editCatalog_run, hload]
  dsimp only
  cases hresult : edit ⟨rollups⟩ with
  | error e => exact ⟨r, rollups, hr, hload, haccepted⟩
  | ok result =>
    obtain ⟨a, c⟩ := result
    have hschema := (elsewhere_withRollups table c.rollups s).schemas table
    exact ⟨r, c.rollups, (loadRegistry_congr hschema).trans hr, loadRollups_withRollups hload,
      hedit r ⟨rollups⟩ a c hr haccepted hresult⟩

theorem loadRegistry_bind (h : Fitting table s) {f : Registry → Act α}
    (hf : ∀ r, ((loadRegistry table).run s).1 = .ok r → Fitting table (after (f r) s)) :
    Fitting table (after (loadRegistry table >>= f) s) := by
  rw [after, loadRegistry_bind_run]
  split
  · exact hf _ ‹_›
  · exact h

theorem createRollup (h : Fitting table s) (definition : RollupDefinition) :
    Fitting table (after (createRollup table definition) s) := by
  refine h.loadRegistry_bind fun r hr => ?_
  change Fitting table (after (Service.editCatalog table (·.create r s.now definition)) s)
  refine h.editCatalog fun r' c a c' hr' hc hcreate => ?_
  obtain rfl := Except.ok.inj (hr.symm.trans hr')
  exact hc.create hcreate

theorem updateRollup (h : Fitting table s) (id : String) (change : RollupUpdate) :
    Fitting table (after (updateRollup table id change) s) := by
  refine h.loadRegistry_bind fun r hr => ?_
  change Fitting table (after (Service.editCatalog table (·.update r s.now id change)) s)
  refine h.editCatalog fun r' c a c' hr' hc hupdate => ?_
  obtain rfl := Except.ok.inj (hr.symm.trans hr')
  exact hc.update hupdate

theorem deleteRollup (h : Fitting table s) (id : String) :
    Fitting table (after (deleteRollup table id) s) :=
  h.editCatalog fun _ _ _ _ _ hc hdelete => hc.delete hdelete

/-! ### Calls that edit the schema -/

/-- The next version of a registry is stored, which may be under another name. -/
theorem withSchema (hr : ((loadRegistry table).run s).1 = .ok r)
    (hload : s.store.loadRollups table = .ok rollups) (haccepted : RollupCatalog.Accepted r rollups)
    {r' : Registry} (hr' : r'.Accepted) (haccepted' : RollupCatalog.Accepted r' rollups) :
    Fitting table (withSchema r' s) := by
  have hload' := (loadRollups_withSchema r' s table).trans hload
  by_cases htable : table = r'.table
  · let next : Registry := ⟨Store.nextVersion s.now r'.document⟩
    have hnext : next.Accepted :=
      { valid := hr'.valid, nodup := hr'.nodup, unreserved := hr'.unreserved, bases := hr'.bases
        dimensionsValid := hr'.dimensionsValid, dimensionsNodup := hr'.dimensionsNodup }
    have hstored : (Service.withSchema r' s).store.loadSchema table = .ok (some next.document) := by
      rw [Store.loadSchema, Store.loadFile, checkName_of_loadRollups hload, Service.withSchema,
        Store.files_modifyFiles, if_pos htable]
      rfl
    refine ⟨next, rollups, ?_, hload', haccepted'.of_registry (fun _ h => h) fun _ _ _ _ h => h⟩
    simp only [loadRegistry, Action.run_bind, Action.run_get, Action.run_lift, hstored]
    exact Registry.ofDocument_eq_ok_iff.2 ⟨rfl, hnext⟩
  · refine ⟨r, rollups, (loadRegistry_congr ?_).trans hr, hload', haccepted⟩
    rw [Service.withSchema, Store.files_modifyFiles, if_neg htable]

end Fitting

/-- A metric is removed only if no rollup holds it. -/
theorem not_holds_of_load_removeMetric {id : String}
    (h : (((SchemaCall.removeMetric id).load table).run s).1 = .ok r)
    (hload : s.store.loadRollups table = .ok rollups) {rollup : RollupDefinition}
    (hrollup : rollup ∈ rollups) {m : RollupMetric} (hm : m ∈ rollup.metrics) : m.metricId ≠ id := by
  simp only [SchemaCall.load, loadCatalog, Action.run_bind, Action.run_get, Action.run_lift, hload,
    Action.run_pure] at h
  split at h
  · rename_i hempty
    rintro rfl
    rw [List.isEmpty_iff, List.filter_eq_nil_iff] at hempty
    refine hempty rollup hrollup ?_
    rw [RollupCatalog.holdsAny, List.any_eq_true]
    exact ⟨m, hm, by simp⟩
  · cases h

/-- What a call saves has all that the rollups of the table rest on. -/
theorem accepted_run_of_load {call : SchemaCall} (d : Sql.Dialect)
    (h : ((call.load table).run s).1 = .ok r) (hload : s.store.loadRollups table = .ok rollups)
    (haccepted : RollupCatalog.Accepted r rollups) :
    RollupCatalog.Accepted (call.operation.run d r) rollups := by
  obtain ⟨hbase, hdimension⟩ := call.operation.keeps_run d r
  refine haccepted.of_registry (fun id hid => ?_) fun rollup hrollup m hm hid => ?_
  · rw [Registry.isSome_dimension?_iff] at hid ⊢
    refine hdimension id (fun heq => ?_) hid
    cases call <;> cases heq
  · rw [Registry.isSome_baseMetric?_iff, ← List.mem_map] at hid ⊢
    refine hbase m.metricId (fun heq => ?_) hid
    obtain rfl : call = .removeMetric m.metricId := by cases call <;> cases heq; rfl
    exact not_holds_of_load_removeMetric h hload hrollup hm rfl

/-- The rollups are the same, but for how they were built. -/
def Rebuilt (old new : List RollupDefinition) : Prop :=
  new.map withoutBuild = old.map withoutBuild

theorem Rebuilt.ids_eq {old new : List RollupDefinition} (h : Rebuilt old new) :
    new.map (·.id) = old.map (·.id) := by
  have hids := congrArg (List.map (·.id)) h
  rwa [List.map_map, List.map_map] at hids

theorem changes_markRollups (call : SchemaCall) (s : State) :
    Changes table Rebuilt s (after (call.markRollups table) s) := by
  cases call with
  | updateBaseMetric m =>
    rw [SchemaCall.markRollups, after_unanswered]
    refine changes_editCatalog (fun old a c h => ?_) s
    obtain ⟨-, rfl⟩ := Prod.mk.inj (Except.ok.inj h)
    rw [Rebuilt, List.map_map]
    refine List.map_congr_left fun rollup _ => ?_
    rw [Function.comp_apply]
    split <;> rfl
  | _ => exact .refl _ s

theorem sameDefinitions_markRollups (call : SchemaCall) (s : State) :
    SameDefinitions s (after (call.markRollups table) s) := by
  refine .of_elsewhere (call.elsewhere_markRollups s) ?_
  rcases (changes_markRollups call s).rollups with heq | ⟨old, new, hold, hnew, heq⟩
  · rw [heq]
  · rw [hold, hnew]
    exact congrArg Except.ok heq

/-- Calls that edit the schema change nothing in rollups but their builds. -/
theorem changes_act (service : Service) (call : SchemaCall) (s : State) :
    Changes table Rebuilt s (after (call.act service table) s) := by
  rcases call.after_act_cases service s with heq | ⟨r, -, heq | heq⟩
  · exact heq.symm ▸ .refl _ s
  · exact heq.symm ▸ ⟨rfl, .inl (loadRollups_withSchema _ s table)⟩
  · have hmarked : Changes table Rebuilt _ _ :=
      changes_markRollups call (Service.withSchema (call.operation.run service.dialect r) s)
    obtain ⟨hclaims, hrollups⟩ := hmarked
    rw [loadRollups_withSchema] at hrollups
    exact heq.symm ▸ ⟨hclaims, hrollups⟩

theorem Fitting.act (h : Fitting table s) (service : Service) (call : SchemaCall) :
    Fitting table (after (call.act service table) s) := by
  rcases call.after_act_cases service s with heq | ⟨r, hr, hstored⟩
  · exact heq.symm ▸ h
  · have hregistry := (call.load_run s).2 r hr
    obtain ⟨r₀, rollups, hr₀, hload, haccepted⟩ := h
    obtain rfl : r₀ = r := Except.ok.inj (hr₀.symm.trans hregistry)
    have hsaved : Fitting table (Service.withSchema (call.operation.run service.dialect r₀) s) :=
      .withSchema hregistry hload haccepted
        ((accepted_of_loadRegistry hregistry).run call.operation)
        (accepted_run_of_load service.dialect hr hload haccepted)
    rcases hstored with heq | heq
    · exact heq.symm ▸ hsaved
    · exact heq.symm ▸ hsaved.of_sameDefinitions (sameDefinitions_markRollups call _)

/-! ## What happens to a table -/

/-- What may happen to a table. -/
inductive TableEvent where
  /-- A call that edits the schema. -/
  | schema (call : SchemaCall)
  /-- A call that edits rollups, or a step of a refresh. -/
  | rollups (e : Event)

namespace Session

variable {c : Session}

/-- A session in which the schema of the table may be edited too. -/
def stepTable (service : Service) (table : String) (c : Session) : TableEvent → Session
  | .schema call => { c with state := after (call.act service table) c.state }
  | .rollups e => c.step service table e

def runTable (service : Service) (table : String) (c : Session) (events : List TableEvent) :
    Session :=
  events.foldl (stepTable service table) c

theorem valid_stepTable (h : c.Valid table) (e : TableEvent) :
    (c.stepTable service table e).Valid table := by
  cases e with
  | schema call =>
    refine h.of_changes (changes_act service call c.state) fun old new hrebuilt hold => ?_
    exact nodup_of_ids_eq hrebuilt.ids_eq hold
  | rollups e => exact valid_step h e

/-! ### Steps of refreshes -/

theorem sameDefinitions_start (service : Service) (table id : String) (c : Session) :
    SameDefinitions c.state (c.step service table (.start id)).state := by
  simp only [step]
  rcases refreshRollup_cases service table id c.state with
    ⟨result, s, heq, hrollups, -, helse⟩ | ⟨definition, p, rollups, hload, -, hp, -, heq⟩
  · have hsame : SameDefinitions c.state s := .of_elsewhere helse (by rw [hrollups])
    rw [heq]
    exact hsame
  · simp only [heq, hp.hasEnded_eq_false]
    exact (rebuilds_takeClaim id hload).sameDefinitions

theorem sameDefinitions_releaseClaim (table id : String) (s : State) :
    SameDefinitions s (releaseClaim table id s) :=
  ⟨fun _ => rfl, fun _ => rfl, rfl⟩

theorem sameDefinitions_reply (service : Service) (h : c.Valid table) (id : String)
    (answers : Work.Answers) :
    SameDefinitions c.state (c.step service table (.reply id answers)).state := by
  cases hflight : c.inFlight id with
  | none =>
    rw [step_reply_of_none hflight]
    exact .refl c.state
  | some p =>
    obtain ⟨definition, -, hp⟩ := h.refreshing id p hflight
    rcases step_reply_cases service hflight hp answers with ⟨p', heq, -, -⟩ | ⟨result, -, heq⟩
    · rw [heq]
      exact .refl c.state
    · rw [heq]
      exact (rebuilds_recordStep table _ c.state).sameDefinitions.trans
        (sameDefinitions_releaseClaim table id _)

theorem sameDefinitions_cancel (service : Service) (h : c.Valid table) (id : String) :
    SameDefinitions c.state (c.step service table (.cancel id)).state := by
  cases hflight : c.inFlight id with
  | none =>
    rw [step_cancel_of_none hflight]
    exact .refl c.state
  | some p =>
    obtain ⟨definition, -, hp⟩ := h.refreshing id p hflight
    rw [step_cancel_eq hflight hp]
    exact (rebuilds_restoreStep table id definition.build c.state).sameDefinitions.trans
      (sameDefinitions_releaseClaim table id _)

/-! ### Runs -/

theorem fitting_stepTable (hvalid : c.Valid table) (h : Fitting table c.state) (e : TableEvent) :
    Fitting table (c.stepTable service table e).state := by
  cases e with
  | schema call => exact h.act service call
  | rollups e =>
    cases e with
    | createRollup definition => exact h.createRollup definition
    | updateRollup id change => exact h.updateRollup id change
    | deleteRollup id => exact h.deleteRollup id
    | updateBaseMetric m =>
      have hact := h.act service (.updateBaseMetric m)
      rw [SchemaCall.act, after_unanswered] at hact
      exact hact
    | tick now =>
      obtain ⟨r, rollups, hr, hstored⟩ := h
      have hsame : ((loadRegistry table).run { c.state with now }).1 =
          ((loadRegistry table).run c.state).1 := loadRegistry_congr rfl
      exact ⟨r, rollups, hsame.trans hr, hstored⟩
    | start id => exact h.of_sameDefinitions (sameDefinitions_start service table id c)
    | reply id answers => exact h.of_sameDefinitions (sameDefinitions_reply service hvalid id answers)
    | cancel id => exact h.of_sameDefinitions (sameDefinitions_cancel service hvalid id)

/-- Rollups that fit go on to fit. -/
theorem fitting_run (hvalid : c.Valid table) (h : Fitting table c.state) (events : List TableEvent) :
    Fitting table (c.runTable service table events).state := by
  induction events generalizing c with
  | nil => exact h
  | cons e rest ih => exact ih (valid_stepTable hvalid e) (fitting_stepTable hvalid h e)

end Session

/-! ## The statement that builds a rollup -/

/-- A rollup that fits has a statement, unless the expression of one of its
calculated dimensions does not compile. -/
theorem exists_of_previewRollup_eq_error {e : Error} {optimized : Option OptimizedSource}
    (hr : ((loadRegistry table).run s).1 = .ok r) (hload : s.store.loadRollups table = .ok rollups)
    (haccepted : RollupCatalog.Accepted r rollups)
    (hoptimized : s.store.loadOptimized table = .ok optimized) {rollup : RollupDefinition}
    (hrollup : rollup ∈ rollups)
    (h : ((service.previewRollup table rollup.id).run s).1 = .error e) :
    ∃ id ∈ rollup.dimensions, ∃ dim, r.dimension? id = some (.calculated dim) ∧
      RowExpression.compile service.dialect dim.sqlExpression = .error e := by
  have hfind : RollupCatalog.find? ⟨rollups⟩ rollup.id = some rollup :=
    (find?_eq_some_iff_of_nodup haccepted.nodup).2 ⟨hrollup, rfl⟩
  have hquery : (RollupSource.ofRegistry r service.dialect optimized).query rollup = .error e := by
    rw [previewRollup, loadRegistry_bind_run, hr] at h
    simp only [getRollup, loadCatalog, loadOptimized, Action.run_bind, Action.run_get,
      Action.run_lift, Action.run_pure, hload, hfind, hoptimized] at h
    simp only [RollupSource.statement, bind, Except.bind_eq_error] at h
    rcases h with hquery | ⟨q, -, h⟩
    · exact hquery
    · cases h
  exact RollupSource.exists_of_query_eq_error (b := .ofRegistry r service.dialect optimized)
    (haccepted.shaped rollup hrollup) hquery

/-- From a table with an accepted schema and no rollups, calls and refreshes lead to
rollups that fit the schema: ids are distinct, each rollup passes the checks of its
shape, and the statement that builds it, if the optimized source can be loaded, fails
only where the expression of one of its calculated dimensions does not compile, and as
that does. -/
theorem rollups_fit (service : Service) (hr : ((loadRegistry table).run s).1 = .ok r)
    (hnone : s.store.loadRollups table = .ok []) (events : List TableEvent) :
    let last := (Session.runTable service table { state := s } events).state
    ∃ r' rollups, ((loadRegistry table).run last).1 = .ok r' ∧
      last.store.loadRollups table = .ok rollups ∧ (rollups.map (·.id)).Nodup ∧
      ∀ rollup ∈ rollups,
        RollupCatalog.checkShape r' rollup.dimensions rollup.metrics = .ok () ∧
        ∀ optimized e, last.store.loadOptimized table = .ok optimized →
          ((service.previewRollup table rollup.id).run last).1 = .error e →
          ∃ id ∈ rollup.dimensions, ∃ dim, r'.dimension? id = some (.calculated dim) ∧
            RowExpression.compile service.dialect dim.sqlExpression = .error e := by
  intro last
  have hfitting : Fitting table s := ⟨r, [], hr, hnone, List.nodup_nil, List.forall_mem_nil _⟩
  have hdistinct : DistinctIds table s := by
    intro rollups hload
    obtain rfl := Except.ok.inj (hnone.symm.trans hload)
    exact List.nodup_nil
  obtain ⟨r', rollups, hr', hload, haccepted⟩ : Fitting table last :=
    Session.fitting_run (c := { state := s }) (Session.valid_start hdistinct) hfitting events
  exact ⟨r', rollups, hr', hload, haccepted.nodup, fun rollup hrollup =>
    ⟨haccepted.shaped rollup hrollup, fun _ _ hoptimized he =>
      exists_of_previewRollup_eq_error hr' hload haccepted hoptimized hrollup he⟩⟩

/-- Clicks and costs by date, and by an engine of which the expression is cut short. -/
def searchStored : State where
  store := ⟨[("search", { schema := some (.saved
    { table := "search"
      sourceTable := "raw.search"
      baseMetrics := [Session.clicks "clicks", { Session.clicks "cost" with id := "cost" }]
      dimensions := [{ id := "date", columnName := "date" }]
      calculatedDimensions := [{ id := "engine", sqlExpression := "LOWER(engine" }] }) })]⟩
  now := ⟨0, 0⟩

/-- While the clicks by day are built, the costs are removed, the clicks are not, since
rollups hold them, and then the clicks are read from another column. -/
def searchEvents : List TableEvent :=
  [.rollups (.createRollup
      { id := "daily", dimensions := ["date"], metrics := [{ metricId := "clicks" }] }),
    .rollups (.createRollup
      { id := "by_engine", dimensions := ["engine"], metrics := [{ metricId := "clicks" }] }),
    .rollups (.start "daily"),
    .schema (.removeMetric "cost"),
    .schema (.removeMetric "clicks"),
    .schema (.addCalculatedMetric { id := "double", formula := "{clicks} * 2" }),
    .schema (.updateBaseMetric (Session.clicks "net_clicks")),
    .rollups (.reply "daily" Session.quietWarehouse),
    .rollups (.cancel "daily")]

/-- Both rollups fit in the end, and the one that cannot be built groups by the engine. -/
theorem rollups_fit_of_removal :
    let last := (Session.runTable {} "search" { state := searchStored } searchEvents).state
    ∃ r rollups e, ((loadRegistry "search").run last).1 = .ok r ∧
      r.baseMetrics.map (·.id) = ["clicks"] ∧
      last.store.loadRollups "search" = .ok rollups ∧
      rollups.map (·.id) = ["daily", "by_engine"] ∧
      (∀ rollup ∈ rollups,
        RollupCatalog.checkShape r rollup.dimensions rollup.metrics = .ok ()) ∧
      ((previewRollup {} "search" "by_engine").run last).1 = .error e ∧
      ∃ dim, r.dimension? "engine" = some (.calculated dim) ∧
        RowExpression.compile .bigQuery dim.sqlExpression = .error e := by
  intro last
  obtain ⟨r₀, hr₀⟩ := Except.exists_of_toBool
    (x := ((loadRegistry "search").run searchStored).1) (by decide +kernel)
  obtain ⟨r, rollups, hr, hload, -, hfit⟩ := rollups_fit {} hr₀ rfl searchEvents
  obtain ⟨optimized, hoptimized⟩ := Except.exists_of_toBool
    (x := last.store.loadOptimized "search") (by decide +kernel)
  obtain ⟨r', hr', hbases⟩ := Except.exists_of_any (x := ((loadRegistry "search").run last).1)
    (p := fun r => r.baseMetrics.map (·.id) == ["clicks"]) (by decide +kernel)
  obtain ⟨rollups', hload', hids⟩ := Except.exists_of_any (x := last.store.loadRollups "search")
    (p := fun rollups => rollups.map (fun rollup => (rollup.id, rollup.dimensions)) ==
      [("daily", ["date"]), ("by_engine", ["engine"])]) (by decide +kernel)
  have herror : ((previewRollup {} "search" "by_engine").run last).1.toBool = false := by
    decide +kernel
  obtain rfl : r' = r := Except.ok.inj (hr'.symm.trans hr)
  obtain rfl : rollups' = rollups := Except.ok.inj (hload'.symm.trans hload)
  cases hpreview : ((previewRollup {} "search" "by_engine").run last).1 with
  | ok statement =>
    rw [hpreview] at herror
    cases herror
  | error e =>
    have hnames := congrArg (List.map (·.1)) (eq_of_beq hids)
    rw [List.map_map] at hnames
    have hmem : ("by_engine", ["engine"]) ∈
        rollups'.map fun rollup => (rollup.id, rollup.dimensions) := by
      rw [eq_of_beq hids]
      decide
    obtain ⟨rollup, hrollup, heq⟩ := List.mem_map.1 hmem
    obtain ⟨hid, hdimensions⟩ := Prod.mk.inj heq
    obtain ⟨id, hid', hdim⟩ := (hfit rollup hrollup).2 optimized e hoptimized
      (by rw [hid]; exact hpreview)
    rw [hdimensions, List.mem_singleton] at hid'
    exact ⟨r', rollups', e, hr, eq_of_beq hbases, hload, hnames,
      fun rollup hrollup => (hfit rollup hrollup).1, rfl, hid' ▸ hdim⟩

end Service

end MetricLayer
