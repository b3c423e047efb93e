import Mathlib.Logic.Function.Basic
import MetricLayer.Proofs.Registry.Acceptance
import MetricLayer.Proofs.Service.Refreshes

/-!
# Two edits of a schema at once

The calls that change the schema of a table load it, work out the new one and save
that (`SchemaCall.act_eq`), and nothing is held between the load and the save. If
two such calls take turns and both have loaded before either saves, the schema that
is left is the one that the last to save would have left alone
(`serial_or_overwritten`), and the version counts one edit.
-/

namespace MetricLayer

/-- A document but for its version and its times. -/
def SchemaDocument.content (document : SchemaDocument) : SchemaDocument :=
  { document with version := 0, createdAt := none, updatedAt := none }

namespace Service

variable {α : Type} {service : Service} {table : String} {s : State} {r r' : Registry}

/-! ## The calls -/

/-- The calls that change the schema of a table. -/
inductive SchemaCall where
  | addCalculatedMetric (m : CalculatedMetric)
  | updateBaseMetric (m : BaseMetric)
  | updateCalculatedMetric (m : CalculatedMetric)
  | removeMetric (id : String)
  | cascade (id : String)

/-- An action without its answer. -/
def unanswered (step : Act α) : Act Unit := do
  let _ ← step
  pure ()

theorem after_unanswered (step : Act α) (s : State) :
    after (unanswered step) s = after step s := by
  rw [after, after, unanswered, Action.run_bind]
  rcases step.run s with ⟨result, s'⟩
  cases result <;> rfl

/-- The registry after an edit that has succeeded. -/
def saved? (edited : Registry.Edited α) : Except Error (Option Registry) :=
  match edited with
  | (.ok _, r) => .ok (some r)
  | (.error e, _) => .error e

namespace SchemaCall

/-- The call of the service. -/
def act (service : Service) (table : String) : SchemaCall → Act Unit
  | .addCalculatedMetric m => unanswered (service.addCalculatedMetric table m)
  | .updateBaseMetric m => unanswered (service.updateBaseMetric table m)
  | .updateCalculatedMetric m => unanswered (service.updateCalculatedMetric table m)
  | .removeMetric id => unanswered (Service.removeMetric table id)
  | .cascade id => unanswered (service.cascade table id)

/-- What a call does to the registry that it has loaded, if there is anything to
save. -/
def edited (d : Sql.Dialect) (r : Registry) : SchemaCall → Except Error (Option Registry)
  | .addCalculatedMetric m => saved? (r.addCalculatedMetric d m)
  | .updateBaseMetric m => saved? (r.updateBaseMetric d m)
  | .updateCalculatedMetric m => saved? (r.updateCalculatedMetric d m)
  | .removeMetric id => saved? (r.removeMetric id)
  | .cascade id => do
    let outcome ← r.cascade d id
    .ok (if outcome.updated.isEmpty then none else some (r.applyCascade outcome))

/-- A call up to where it has loaded the schema. -/
def load (table : String) : SchemaCall → Act Registry
  | .removeMetric id => do
    let c ← loadCatalog table
    let holders := c.rollups.filter (RollupCatalog.holdsAny [id])
    if holders.isEmpty then loadRegistry table
    else throw (.schema (.stored id (holders.map (·.id))))
  | _ => loadRegistry table

def markRollups (table : String) : SchemaCall → Act Unit
  | .updateBaseMetric m =>
    unanswered (editCatalog table fun c => .ok (c.markStaleForMetrics [m.id]))
  | _ => pure ()

def store (table : String) (call : SchemaCall) : Option Registry → Act Unit
  | none => pure ()
  | some r => do
    let _ ← save r
    call.markRollups table

/-- A call from where it has loaded the schema. -/
def finish (service : Service) (table : String) (call : SchemaCall) (r : Registry) : Act Unit := do
  let r ← call.edited service.dialect r
  call.store table r

/-- An edit of a registry, with what comes after it. -/
theorem editRegistry_bind (edit : Registry → Registry.Edited α) (next : α → Act Unit)
    (call : SchemaCall) (hnext : ∀ a, next a = call.markRollups table) :
    (editRegistry table edit >>= next) = (loadRegistry table >>= fun r => do
      let r ← (saved? (edit r) : Except Error (Option Registry))
      call.store table r) := by
  rw [editRegistry, bind_assoc]
  congr 1
  funext r
  rcases edit r with ⟨result, r'⟩
  cases result with
  | error e => rfl
  | ok a =>
    change (save r' >>= fun _ => pure a) >>= next = save r' >>= fun _ => call.markRollups table
    simp only [bind_assoc, pure_bind, hnext]

theorem unanswered_editRegistry (edit : Registry → Registry.Edited α) (call : SchemaCall)
    (hmark : call.markRollups table = pure ()) :
    unanswered (editRegistry table edit) = (loadRegistry table >>= fun r => do
      let r ← (saved? (edit r) : Except Error (Option Registry))
      call.store table r) :=
  editRegistry_bind edit (fun _ => pure ()) call fun _ => hmark.symm

theorem act_eq (service : Service) (table : String) (call : SchemaCall) :
    call.act service table = call.load table >>= call.finish service table := by
  cases call with
  | addCalculatedMetric m => exact unanswered_editRegistry _ (.addCalculatedMetric m) rfl
  | updateBaseMetric m =>
    simp only [act, unanswered, Service.updateBaseMetric, bind_assoc, pure_bind]
    exact editRegistry_bind _ _ (.updateBaseMetric m) fun _ => rfl
  | updateCalculatedMetric m => exact unanswered_editRegistry _ (.updateCalculatedMetric m) rfl
  | removeMetric id =>
    simp only [act, load, unanswered, Service.removeMetric, bind_assoc]
    congr 1
    funext c
    split
    · exact unanswered_editRegistry (·.removeMetric id) (.removeMetric id) rfl
    · rfl
  | cascade id =>
    simp only [act, load, unanswered, Service.cascade, bind_assoc]
    congr 1
    funext r
    simp only [finish, edited]
    cases r.cascade service.dialect id with
    | error e => rfl
    | ok outcome =>
      change ((if outcome.updated.isEmpty then pure outcome else do
          let _ ← save (r.applyCascade outcome)
          pure outcome) >>= fun _ => pure ()) = store table (.cascade id)
            (if outcome.updated.isEmpty then none else some (r.applyCascade outcome))
      split
      · rfl
      · simp only [bind_assoc, pure_bind]
        rfl

/-! ## Loading and saving -/

theorem load_run (call : SchemaCall) (s : State) :
    (call.load table).run s = (((call.load table).run s).1, s) ∧
      ∀ r, ((call.load table).run s).1 = .ok r → ((loadRegistry table).run s).1 = .ok r := by
  have hload := loadRegistry_run_snd table s
  cases call with
  | removeMetric id =>
    simp only [load, loadCatalog, Action.run_bind, Action.run_get, Action.run_lift]
    cases s.store.loadRollups table with
    | error e => exact ⟨rfl, fun _ h => by cases h⟩
    | ok rollups =>
      simp only [Action.run_pure]
      split
      · exact ⟨Prod.ext rfl hload, fun _ h => h⟩
      · exact ⟨rfl, fun _ h => by cases h⟩
  | _ => exact ⟨Prod.ext rfl hload, fun _ h => h⟩

theorem finish_run (call : SchemaCall) (r : Registry) (s : State) :
    (call.finish service table r).run s = match call.edited service.dialect r with
      | .ok r => (call.store table r).run s
      | .error e => (.error e, s) := by
  rw [finish, Action.run_bind, Action.run_lift]
  cases call.edited service.dialect r <;> rfl

/-- The operation on a registry that a call carries out. -/
def operation : SchemaCall → Registry.Operation
  | .addCalculatedMetric m => .addCalculatedMetric m
  | .updateBaseMetric m => .updateBaseMetric m
  | .updateCalculatedMetric m => .updateCalculatedMetric m
  | .removeMetric id => .removeMetric id
  | .cascade id => .cascade id

/-- What a call saves is what its operation leaves. -/
theorem eq_run_of_edited {call : SchemaCall} {d : Sql.Dialect}
    (h : call.edited d r = .ok (some r')) : r' = call.operation.run d r := by
  have hsaved {α : Type} {edited : Registry.Edited α} (h : saved? edited = .ok (some r')) :
      r' = edited.2 := by
    rcases edited with ⟨result, r''⟩
    cases result with
    | error e => cases h
    | ok a => exact (Option.some.inj (Except.ok.inj h)).symm
  cases call with
  | addCalculatedMetric m | updateBaseMetric m | updateCalculatedMetric m | removeMetric id =>
    exact hsaved h
  | cascade id =>
    obtain ⟨outcome, houtcome, h⟩ := Except.bind_eq_ok.1 h
    have h := Except.ok.inj h
    split at h
    · cases h
    · rw [← Option.some.inj h, operation, Registry.Operation.run, Registry.cascadeAndApply,
        houtcome]
      rfl

/-- What a call saves is saved under the name in the document that it has loaded. -/
theorem table_of_edited {call : SchemaCall} {d : Sql.Dialect}
    (h : call.edited d r = .ok (some r')) : r'.table = r.table := by
  rw [eq_run_of_edited h]
  have htable := congrArg SchemaDocument.table (Registry.heading_run (d := d) r call.operation)
  exact htable

end SchemaCall

/-- The file with the schema of a table. -/
def schemaFile (s : State) (table : String) : Option (StoredFile SchemaDocument) :=
  (s.store.files table).schema

/-- The state with the next version of a registry stored. -/
def withSchema (r : Registry) (s : State) : State :=
  { s with store := s.store.modifyFiles r.table fun files =>
      { files with schema := some (.saved (Store.nextVersion s.now r.document)) } }

theorem loadRollups_withSchema (r : Registry) (s : State) (table : String) :
    (withSchema r s).store.loadRollups table = s.store.loadRollups table := by
  refine loadRollups_congr ?_
  rw [withSchema, Store.files_modifyFiles]
  split <;> simp [*]

theorem save_run (r : Registry) (s : State) :
    (save r).run s = match Store.checkName r.table with
      | .ok () => (Registry.ofDocument (Store.nextVersion s.now r.document), withSchema r s)
      | .error e => (.error e, s) := by
  simp only [save, Action.run_bind, Action.run_get, Action.run_lift, Store.saveSchema]
  cases Store.checkName r.table with
  | error e => rfl
  | ok _ => rfl

namespace SchemaCall

theorem elsewhere_markRollups (call : SchemaCall) (s : State) :
    Elsewhere table s (after (call.markRollups table) s) := by
  cases call with
  | updateBaseMetric m =>
    rw [markRollups, after_unanswered]
    exact elsewhere_editCatalog _ s
  | _ => exact .refl table s

/-- Once a registry is saved its schema is stored, whether or not the rollups can be
marked then. -/
theorem after_store (call : SchemaCall) (s : State) (hname : Store.checkName r.table = .ok ()) :
    (after (call.store table (some r)) s).now = s.now ∧
      ∀ other, schemaFile (after (call.store table (some r)) s) other =
        if other = r.table then some (.saved (Store.nextVersion s.now r.document))
        else schemaFile s other := by
  have hfiles (other : String) : schemaFile (withSchema r s) other =
      if other = r.table then some (.saved (Store.nextVersion s.now r.document))
      else schemaFile s other := by
    rw [schemaFile, withSchema, Store.files_modifyFiles]
    split <;> rfl
  have hmark : Elsewhere table _ _ := elsewhere_markRollups call (withSchema r s)
  rw [after, store, Action.run_bind, save_run, hname]
  cases Registry.ofDocument (Store.nextVersion s.now r.document) with
  | error e => exact ⟨rfl, hfiles⟩
  | ok _ => exact ⟨hmark.now, fun other => (hmark.schemas other).trans (hfiles other)⟩

/-- A call changes nothing, or it has saved what its operation leaves, and has then
marked rollups if it can. -/
theorem after_act_cases (service : Service) (call : SchemaCall) (s : State) :
    after (call.act service table) s = s ∨
    ∃ r, ((call.load table).run s).1 = .ok r ∧
      (after (call.act service table) s = withSchema (call.operation.run service.dialect r) s ∨
        after (call.act service table) s =
          after (call.markRollups table) (withSchema (call.operation.run service.dialect r) s)) := by
  rw [after, act_eq, Action.run_bind, (call.load_run s).1]
  cases hload : ((call.load table).run s).1 with
  | error e => exact .inl rfl
  | ok r =>
    simp only [finish_run]
    cases hedited : call.edited service.dialect r with
    | error e => exact .inl rfl
    | ok edited =>
      cases edited with
      | none => exact .inl rfl
      | some r' =>
        obtain rfl := eq_run_of_edited hedited
        simp only [store, Action.run_bind, save_run]
        cases Store.checkName (call.operation.run service.dialect r).table with
        | error e => exact .inl rfl
        | ok _ =>
          refine .inr ⟨r, rfl, ?_⟩
          simp only
          cases Registry.ofDocument
              (Store.nextVersion s.now (call.operation.run service.dialect r).document) with
          | error e => exact .inl rfl
          | ok _ => exact .inr rfl

theorem checkName_of_store {call : SchemaCall}
    (h : ((call.store table (some r)).run s).1 = .ok ()) : Store.checkName r.table = .ok () := by
  rw [store, Action.run_bind, save_run] at h
  cases hname : Store.checkName r.table with
  | ok _ => rfl
  | error e =>
    rw [hname] at h
    cases h

/-- A call that succeeds changes no schema but that of the table in its document. -/
theorem after_finish {call : SchemaCall}
    (hok : ((call.finish service table r).run s).1 = .ok ()) :
    (after (call.finish service table r) s).now = s.now ∧
      ∀ other, other ≠ r.table →
        schemaFile (after (call.finish service table r) s) other = schemaFile s other := by
  rw [finish_run] at hok
  rw [after, finish_run]
  cases hedited : call.edited service.dialect r with
  | error e => exact ⟨rfl, fun _ _ => rfl⟩
  | ok edited =>
    cases edited with
    | none => exact ⟨rfl, fun _ _ => rfl⟩
    | some r' =>
      rw [hedited] at hok
      obtain ⟨hnow, hfiles⟩ := after_store call s (checkName_of_store hok)
      refine ⟨hnow, fun other hother => (hfiles other).trans (if_neg ?_)⟩
      rwa [table_of_edited hedited]

end SchemaCall

/-! ## Taking turns -/

/-- How far a call has come. -/
inductive CallStage where
  | waiting
  | loaded (r : Registry)
  | ended (result : Except Error Unit)

def CallStage.ofLoad : Except Error Registry → CallStage
  | .ok r => .loaded r
  | .error e => .ended (.error e)

def CallStage.succeeded : CallStage → Bool
  | .ended (.ok _) => true
  | _ => false

theorem CallStage.eq_of_succeeded {stage : CallStage} (h : stage.succeeded = true) :
    stage = .ended (.ok ()) := by
  cases stage with
  | waiting | loaded r => cases h
  | ended result =>
    cases result with
    | error e => cases h
    | ok _ => rfl

/-- Two calls under way. -/
structure Editing where
  state : State
  stage : Bool → CallStage := fun _ => .waiting

namespace Editing

section Turns

variable (service : Service) (table : String) (calls : Bool → SchemaCall)

/-- One of the calls loads the schema, or works out the new one and saves it. -/
def turn (c : Editing) (who : Bool) : Editing :=
  match c.stage who with
  | .waiting =>
    let (result, state) := ((calls who).load table).run c.state
    ⟨state, Function.update c.stage who (.ofLoad result)⟩
  | .loaded r =>
    let (result, state) := ((calls who).finish service table r).run c.state
    ⟨state, Function.update c.stage who (.ended result)⟩
  | .ended _ => c

def run (turns : List Bool) (s : State) : Editing :=
  turns.foldl (turn service table calls) { state := s }

/-- The state after one call. -/
def alone (who : Bool) (s : State) : State := after ((calls who).act service table) s

/-- The state after one call and then the other. -/
def inOrder (first : Bool) (s : State) : State :=
  alone service table calls (!first) (alone service table calls first s)

end Turns

variable {calls : Bool → SchemaCall} {c : Editing} {who : Bool}

theorem turn_of_waiting (h : c.stage who = .waiting) : turn service table calls c who =
    ⟨c.state, Function.update c.stage who (.ofLoad (((calls who).load table).run c.state).1)⟩ := by
  simp only [turn, h]
  rw [((calls who).load_run c.state).1]

theorem turn_of_loaded {r : Registry} (h : c.stage who = .loaded r) :
    turn service table calls c who =
      ⟨after ((calls who).finish service table r) c.state, Function.update c.stage who
        (.ended (((calls who).finish service table r).run c.state).1)⟩ := by
  simp only [turn, h]
  rfl

theorem turn_of_ended {result : Except Error Unit} (h : c.stage who = .ended result) :
    turn service table calls c who = c := by
  simp only [turn, h]

theorem stage_turn_of_ne {other : Bool} (h : other ≠ who) :
    (turn service table calls c other).stage who = c.stage who := by
  cases hstage : c.stage other with
  | waiting =>
    rw [turn_of_waiting hstage]
    exact Function.update_of_ne (Ne.symm h) _ _
  | loaded r =>
    rw [turn_of_loaded hstage]
    exact Function.update_of_ne (Ne.symm h) _ _
  | ended result => rw [turn_of_ended hstage]

theorem stage_foldl_of_ended {result : Except Error Unit} (h : c.stage who = .ended result)
    (turns : List Bool) : (turns.foldl (turn service table calls) c).stage who = .ended result := by
  induction turns generalizing c with
  | nil => exact h
  | cons other rest ih =>
    refine ih ?_
    by_cases hother : other = who
    · rw [hother, turn_of_ended h, h]
    · rw [stage_turn_of_ne hother, h]

/-- A call that has not failed in the end has loaded. -/
theorem exists_load (h : c.stage who = .waiting) {turns : List Bool}
    (hok : (turns.foldl (turn service table calls) (turn service table calls c who)).stage who =
      .ended (.ok ())) :
    ∃ r, (((calls who).load table).run c.state).1 = .ok r := by
  cases hload : (((calls who).load table).run c.state).1 with
  | ok r => exact ⟨r, rfl⟩
  | error e =>
    have hended : (turn service table calls c who).stage who = .ended (.error e) := by
      rw [turn_of_waiting h, hload]
      exact Function.update_self ..
    rw [stage_foldl_of_ended hended] at hok
    cases hok

/-- A call with two turns in a row is the call of the service. -/
theorem turn_turn (h : c.stage who = .waiting) :
    turn service table calls (turn service table calls c who) who =
      ⟨alone service table calls who c.state, Function.update c.stage who
        (.ended (((calls who).act service table).run c.state).1)⟩ := by
  rw [alone, after, SchemaCall.act_eq, Action.run_bind, ((calls who).load_run c.state).1,
    turn_of_waiting h]
  cases hload : (((calls who).load table).run c.state).1 with
  | ok r => rw [turn_of_loaded (Function.update_self ..), Function.update_idem]; rfl
  | error e => rw [turn_of_ended (Function.update_self ..)]; rfl

/-! ## All interleavings -/

/-- Either one call is over before the other begins, or both load before one saves. -/
theorem interleavings {turns : List Bool} (h : turns.Perm [false, false, true, true]) :
    (∃ first, turns = [first, first, !first, !first]) ∨
      ∃ first last, turns = [first, !first, !last, last] := by
  have hlength := h.length_eq
  have hcount := h.count_eq true
  match turns, hlength with
  | [a, b, c, e], _ => revert a b c e; decide

/-- If both calls load before one saves they have loaded the same schema, and the
second to save works on what the first has left. -/
theorem run_across {first last : Bool}
    (hok : ∀ who, (run service table calls [first, !first, !last, last] s).stage who =
      .ended (.ok ())) :
    ∃ r, (∀ who, (((calls who).load table).run s).1 = .ok r) ∧
      (((calls (!last)).finish service table r).run s).1 = .ok () ∧
      (((calls last).finish service table r).run
        (after ((calls (!last)).finish service table r) s)).1 = .ok () ∧
      (run service table calls [first, !first, !last, last] s).state =
        after ((calls last).finish service table r)
          (after ((calls (!last)).finish service table r) s) := by
  obtain ⟨r, hr⟩ := exists_load (c := { state := s }) rfl (hok first)
  have hfirst : turn service table calls { state := s } first =
      ⟨s, Function.update (fun _ => .waiting) first (.loaded r)⟩ := by
    rw [turn_of_waiting rfl, hr]
    rfl
  have hother := hok (!first)
  rw [run, List.foldl_cons, hfirst] at hother
  have hwaiting : (Function.update (fun _ => CallStage.waiting) first (.loaded r)) (!first) =
      .waiting := Function.update_of_ne (by cases first <;> decide) _ _
  obtain ⟨r', hr'⟩ := exists_load (c := ⟨s, _⟩) hwaiting hother
  -- both read the same file
  obtain rfl : r' = r := Except.ok.inj
    (((calls (!first)).load_run s).2 r' hr' |>.symm.trans (((calls first).load_run s).2 r hr))
  have hboth : turn service table calls (turn service table calls { state := s } first) (!first) =
      ⟨s, fun _ => .loaded r'⟩ := by
    rw [hfirst, turn_of_waiting hwaiting, hr']
    congr 1
    funext who
    cases first <;> cases who <;> rfl
  have hrun : run service table calls [first, !first, !last, last] s =
      turn service table calls (turn service table calls ⟨s, fun _ => .loaded r'⟩ (!last)) last := by
    rw [← hboth]
    rfl
  have hnext : turn service table calls ⟨s, fun _ => .loaded r'⟩ (!last) = _ := turn_of_loaded rfl
  have hlast : (Function.update (fun _ => CallStage.loaded r') (!last)
      (.ended (((calls (!last)).finish service table r').run s).1)) last = .loaded r' :=
    Function.update_of_ne (by cases last <;> decide) _ _
  rw [hnext, turn_of_loaded hlast] at hrun
  rw [hrun] at hok ⊢
  have hok₁ := hok (!last)
  have hok₂ := hok last
  dsimp only at hok₁ hok₂
  rw [Function.update_of_ne (by cases last <;> decide), Function.update_self] at hok₁
  rw [Function.update_self] at hok₂
  refine ⟨r', fun who => ?_, CallStage.ended.inj hok₁, CallStage.ended.inj hok₂, rfl⟩
  by_cases hwho : who = first
  · rw [hwho, hr]
  · obtain rfl : who = !first := by cases who <;> cases first <;> simp_all
    exact hr'

/-! ## What is left -/

/-- What is stored in the schemas of two states is the same but for versions and
times. -/
def SameSchemas (s s' : State) : Prop :=
  ∀ table, (s.store.loadSchema table).map (·.map SchemaDocument.content) =
    (s'.store.loadSchema table).map (·.map SchemaDocument.content)

/-- The schemas are those that the two calls leave in one order or the other. -/
def Serial (service : Service) (table : String) (calls : Bool → SchemaCall) (s s' : State) : Prop :=
  ∃ first, SameSchemas s' (inOrder service table calls first s)

/-- The call changes what it has loaded. -/
def Saves (service : Service) (table : String) (call : SchemaCall) (s : State) : Prop :=
  ∃ r r', ((loadRegistry table).run s).1 = .ok r ∧ call.edited service.dialect r = .ok (some r')

theorem sameSchemas_of_files {s s' s'' : State}
    (h : ∀ table, schemaFile s table = schemaFile s' table) :
    SameSchemas s s'' ↔ SameSchemas s' s'' := by
  have hload (table : String) : s.store.loadSchema table = s'.store.loadSchema table := by
    have := h table
    rw [schemaFile, schemaFile] at this
    rw [Store.loadSchema, Store.loadSchema, Store.loadFile, Store.loadFile, this]
  simp only [SameSchemas, hload]

theorem alone_of_load {r : Registry} (h : (((calls who).load table).run s).1 = .ok r) :
    alone service table calls who s = after ((calls who).finish service table r) s := by
  rw [alone, after, SchemaCall.act_eq, Action.run_bind, ((calls who).load_run s).1, h, after]

/-- The schemas that are left if both calls load before one saves. -/
theorem schemaFile_across {first last : Bool}
    (hok : ∀ who, (run service table calls [first, !first, !last, last] s).stage who =
      .ended (.ok ())) (hsaves : Saves service table (calls last) s) (other : String) :
    schemaFile (run service table calls [first, !first, !last, last] s).state other =
      schemaFile (alone service table calls last s) other := by
  obtain ⟨r, hload, hok₁, hok₂, hstate⟩ := run_across hok
  obtain ⟨r₀, r', hr, hedited⟩ := hsaves
  have hr₀ : r = r₀ := Except.ok.inj ((((calls last).load_run s).2 r (hload last)).symm.trans hr)
  rw [← hr₀] at hedited
  have hname : Store.checkName r'.table = .ok () := by
    rw [SchemaCall.finish_run, hedited] at hok₂
    exact SchemaCall.checkName_of_store hok₂
  have hfinish (s' : State) : after ((calls last).finish service table r) s' =
      after ((calls last).store table (some r')) s' := by
    rw [after, after, SchemaCall.finish_run, hedited]
  rw [hstate, alone_of_load (hload last), hfinish, hfinish, (SchemaCall.after_store _ _ hname).2,
    (SchemaCall.after_store _ _ hname).2]
  obtain ⟨hnow, hfiles⟩ := SchemaCall.after_finish (s := s) hok₁
  rw [hnow]
  split
  · rfl
  · rename_i hother
    exact hfiles other (SchemaCall.table_of_edited hedited ▸ hother)

theorem state_across {first last : Bool}
    (hok : ∀ who, (run service table calls [first, !first, !last, last] s).stage who =
      .ended (.ok ())) (hsaves : ¬Saves service table (calls last) s) :
    (run service table calls [first, !first, !last, last] s).state =
      inOrder service table calls last s := by
  obtain ⟨r, hload, -, hok₂, hstate⟩ := run_across hok
  have hleft (s' : State) : after ((calls last).finish service table r) s' = s' := by
    rw [after, SchemaCall.finish_run]
    cases hedited : (calls last).edited service.dialect r with
    | error e => rfl
    | ok edited =>
      cases edited with
      | none => rfl
      | some r' => exact absurd ⟨r, r', ((calls last).load_run s).2 r (hload last), hedited⟩ hsaves
  rw [hstate, hleft, inOrder, alone_of_load (hload last), hleft, alone_of_load (hload (!last))]

/-- Two calls that take turns at one table and succeed leave the schemas that they
leave one after the other, unless both load before one saves and the last to save
changes anything. Then that call has overwritten what the other did: the schemas
are those that it leaves alone. -/
theorem serial_or_overwritten {turns : List Bool} (hturns : turns.Perm [false, false, true, true])
    (hok : ∀ who, (run service table calls turns s).stage who = .ended (.ok ())) :
    (∃ first, turns = [first, first, !first, !first] ∧
      (run service table calls turns s).state = inOrder service table calls first s) ∨
    ∃ first last, turns = [first, !first, !last, last] ∧
      (¬Saves service table (calls last) s →
        (run service table calls turns s).state = inOrder service table calls last s) ∧
      (Saves service table (calls last) s →
        (∀ other, schemaFile (run service table calls turns s).state other =
          schemaFile (alone service table calls last s) other) ∧
        (Serial service table calls s (run service table calls turns s).state ↔
          Serial service table calls s (alone service table calls last s))) := by
  rcases interleavings hturns with ⟨first, rfl⟩ | ⟨first, last, rfl⟩
  · refine .inl ⟨first, rfl, ?_⟩
    have hother : (turn service table calls (turn service table calls { state := s } first)
        first).stage (!first) = .waiting := by
      rw [turn_turn rfl]
      exact Function.update_of_ne (by cases first <;> decide) _ _
    change (turn service table calls (turn service table calls _ (!first)) (!first)).state = _
    rw [turn_turn hother, turn_turn rfl, inOrder]
  · refine .inr ⟨first, last, rfl, state_across hok, fun hsaves => ?_⟩
    have hfiles := schemaFile_across hok hsaves
    exact ⟨hfiles, exists_congr fun _ => sameSchemas_of_files hfiles⟩

/-! ## A lost metric -/

/-- A stored schema with one base metric. -/
def clicksStored : State :=
  let document : SchemaDocument := {
    table := "search"
    sourceTable := "raw.search"
    baseMetrics := [⟨"clicks", none, none, ["clicks"], .sum, none, .number, none⟩] }
  { store := ⟨[("search", { schema := some (.saved document) })]⟩, now := ⟨0, 0⟩ }

/-- Two calculated metrics, added by a caller each. -/
def addingTwo : Bool → SchemaCall
  | false => .addCalculatedMetric { id := "double", formula := "{clicks} * 2" }
  | true => .addCalculatedMetric { id := "triple", formula := "{clicks} * 3" }

theorem addingTwo_succeeds (who : Bool) :
    (run { } "search" addingTwo [false, true, false, true] clicksStored).stage who =
      .ended (.ok ()) :=
  CallStage.eq_of_succeeded (by cases who <;> decide +kernel)

theorem saves_triple : Saves { } "search" (addingTwo true) clicksStored := by
  obtain ⟨r, hr, hsaved⟩ := Except.exists_of_any (x := ((loadRegistry "search").run clicksStored).1)
    (p := fun r => ((addingTwo true).edited .bigQuery r).toOption.join.isSome) (by decide +kernel)
  cases hedited : (addingTwo true).edited .bigQuery r with
  | error e => rw [hedited] at hsaved; cases hsaved
  | ok edited =>
    rw [hedited] at hsaved
    obtain ⟨r', rfl⟩ := Option.isSome_iff_exists.1 hsaved
    exact ⟨r, r', hr, hedited⟩

/-- What is left is what adding the second metric alone leaves. -/
theorem overwritten_of_addingTwo :
    schemaFile (run { } "search" addingTwo [false, true, false, true] clicksStored).state "search" =
      schemaFile (alone { } "search" addingTwo true clicksStored) "search" := by
  rcases serial_or_overwritten (by decide) addingTwo_succeeds with
    ⟨first, hturns, -⟩ | ⟨first, last, hturns, -, hlost⟩
  · cases first <;> simp at hturns
  · obtain rfl : last = true := by
      cases last <;> simp at hturns ⊢
    exact (hlost saves_triple).1 "search"

/-- Either order leaves both metrics, the interleaving leaves the one saved last. -/
theorem exists_not_serial :
    ∃ (service : Service) (table : String) (calls : Bool → SchemaCall) (s : State)
      (turns : List Bool), turns.Perm [false, false, true, true] ∧
        (∀ who, (run service table calls turns s).stage who = .ended (.ok ())) ∧
        ¬Serial service table calls s (run service table calls turns s).state := by
  refine ⟨{ }, "search", addingTwo, clicksStored, [false, true, false, true], by decide,
    addingTwo_succeeds, ?_⟩
  rintro ⟨first, hsame⟩
  have hids := congrArg (fun loaded => loaded.toOption.join.elim [] fun document =>
    document.calculatedMetrics.map (·.id)) (hsame "search")
  revert hids
  cases first <;> decide +kernel

end Editing

end Service

end MetricLayer
