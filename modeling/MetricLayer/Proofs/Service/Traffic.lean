import MetricLayer.Proofs.Service.Sessions

/-!
# Many callers at once

Any number of callers refresh rollups of any tables, while others edit them
(`Traffic`). Each refresh goes on step by step, and whatever happens between its
steps (`Traffic.Valid.run`)

- the claims under way are just the keys of the refreshes under way, one for each;
- a rollup that is building is attended to by a refresh that is under way.
-/

namespace MetricLayer

namespace RollupCatalog

/-! ## Rollups that are building -/

/-- Of the rollups with one id only the first may be building, and then the id is
busy. -/
structure Attended (busy : String → Prop) (rollups : List RollupDefinition) : Prop where
  first : rollups.Pairwise fun a b => b.build.status = .building → a.id ≠ b.id
  busy : ∀ r ∈ rollups, r.build.status = .building → busy r.id

variable {busy busy' : String → Prop} {rollups : List RollupDefinition} {id : String}
  {change : RollupDefinition → RollupDefinition}

theorem Attended.mono (h : Attended busy rollups) (hbusy : ∀ id, busy id → busy' id) :
    Attended busy' rollups :=
  ⟨h.first, fun r hr hbuilding => hbusy _ (h.busy r hr hbuilding)⟩

theorem attended_of_not_building (h : ∀ r ∈ rollups, r.build.status ≠ .building) :
    Attended busy rollups where
  first := List.pairwise_of_forall_mem_list fun _ _ b hb hbuilding => absurd hbuilding (h b hb)
  busy r hr hbuilding := absurd hbuilding (h r hr)

theorem Attended.sublist {fewer : List RollupDefinition} (h : Attended busy rollups)
    (hsub : fewer.Sublist rollups) : Attended busy fewer :=
  ⟨h.first.sublist hsub, fun r hr => h.busy r (hsub.subset hr)⟩

theorem Attended.append {r : RollupDefinition} (h : Attended busy rollups)
    (hr : r.build.status ≠ .building) : Attended busy (rollups ++ [r]) where
  first := by
    refine List.pairwise_append.2 ⟨h.first, List.pairwise_singleton _ _, fun a _ b hb hbuilding => ?_⟩
    obtain rfl := List.mem_singleton.1 hb
    exact absurd hbuilding hr
  busy a ha hbuilding := by
    rcases List.mem_append.1 ha with ha | ha
    · exact h.busy a ha hbuilding
    · obtain rfl := List.mem_singleton.1 ha
      exact absurd hbuilding hr

/-- A rollup in the place of another, which builds only if that does. -/
def Calmer (r r' : RollupDefinition) : Prop :=
  r'.id = r.id ∧ (r'.build.status = .building → r.build.status = .building)

theorem Attended.of_calmer {rollups' : List RollupDefinition} (h : Attended busy rollups)
    (hcalmer : List.Forall₂ Calmer rollups rollups') : Attended busy rollups' := by
  induction hcalmer with
  | nil => exact h
  | @cons r r' rest rest' hr hrest ih =>
    obtain ⟨hfirst, hpairs⟩ := List.pairwise_cons.1 h.first
    have htail : Attended busy rest := ⟨hpairs, fun a ha => h.busy a (List.mem_cons_of_mem _ ha)⟩
    refine ⟨List.pairwise_cons.2 ⟨fun b hb hbuilding => ?_, (ih htail).first⟩, ?_⟩
    · obtain ⟨a, ⟨hid, hcalm⟩, hmem⟩ := exists_mem_zip_of_forall₂ hrest.flip hb
      rw [hr.1, hid]
      exact hfirst a (List.of_mem_zip hmem).1 (hcalm hbuilding)
    · rintro b hb hbuilding
      rcases List.mem_cons.1 hb with rfl | hb
      · rw [hr.1]
        exact h.busy r List.mem_cons_self (hr.2 hbuilding)
      · exact (ih htail).busy b hb hbuilding

theorem forall₂_modify {R : RollupDefinition → RollupDefinition → Prop} (hrefl : ∀ r, R r r)
    (hchange : ∀ r, R r (change r)) (rollups : List RollupDefinition) :
    List.Forall₂ R rollups (modify ⟨rollups⟩ id change).rollups := by
  have hsame (rest : List RollupDefinition) : List.Forall₂ R rest rest :=
    List.forall₂_same.2 fun r _ => hrefl r
  rcases modify_cases rollups id change with ⟨-, heq⟩ | ⟨before, r, after, rfl, -, -, heq⟩
  · rw [heq]
    exact hsame rollups
  · rw [heq]
    exact List.rel_append (hsame before) (.cons (hchange r) (hsame after))

/-- The first rollup of an id may build if that id becomes busy. -/
theorem Attended.begin (h : Attended busy rollups) (hid : ∀ r, (change r).id = r.id) :
    Attended (fun other => busy other ∨ other = id) (modify ⟨rollups⟩ id change).rollups := by
  rcases modify_cases rollups id change with ⟨-, heq⟩ | ⟨before, r, after, rfl, hne, hr, heq⟩
  · rw [heq]
    exact h.mono fun _ => .inl
  · rw [heq]
    obtain ⟨hfirst, hbusy⟩ := h
    simp only [List.pairwise_append, List.pairwise_cons, List.forall_mem_append,
      List.forall_mem_cons] at hfirst hbusy
    obtain ⟨hbefore, ⟨hlater, hafter⟩, hacross⟩ := hfirst
    refine ⟨List.pairwise_append.2 ⟨hbefore, List.pairwise_cons.2 ⟨fun b hb => ?_, hafter⟩,
      fun a ha => List.forall_mem_cons.2 ⟨fun _ => ?_, (hacross a ha).2⟩⟩, fun x hx hbuilding => ?_⟩
    · rw [hid]
      exact hlater b hb
    · rw [hid, hr]
      exact hne a ha
    · rcases List.mem_append.1 hx with hx | hx
      · exact .inl (hbusy.1 x hx hbuilding)
      · rcases List.mem_cons.1 hx with rfl | hx
        · exact .inr ((hid r).trans hr)
        · exact .inl (hbusy.2.2 x hx hbuilding)

/-- No rollup of an id builds any more if the first one does not. -/
theorem Attended.ended (h : Attended busy rollups) (hid : ∀ r, (change r).id = r.id)
    (hchange : ∀ r, (change r).build.status ≠ .building) :
    Attended (fun other => busy other ∧ other ≠ id) (modify ⟨rollups⟩ id change).rollups := by
  have hcalmer : Attended busy (modify ⟨rollups⟩ id change).rollups :=
    h.of_calmer (forall₂_modify (fun r => ⟨rfl, fun hr => hr⟩)
      (fun r => ⟨hid r, fun hr => absurd hr (hchange r)⟩) rollups)
  refine ⟨hcalmer.first, fun x hx hbuilding => ⟨hcalmer.busy x hx hbuilding, ?_⟩⟩
  rcases modify_cases rollups id change with ⟨hne, heq⟩ | ⟨before, r, after, rfl, hne, hr, heq⟩
  · exact hne x (heq ▸ hx)
  · have hfirst := (List.pairwise_append.1 h.first).2.1
    rw [heq] at hx
    rcases List.mem_append.1 hx with hx | hx
    · exact hne x hx
    · rcases List.mem_cons.1 hx with rfl | hx
      · exact absurd hbuilding (hchange r)
      · exact hr ▸ ((List.pairwise_cons.1 hfirst).1 x hx hbuilding).symm

end RollupCatalog

namespace Service

open RollupCatalog (Attended attended_of_not_building Calmer forall₂_modify)
open Work (Pause Answers)

variable {α : Type} {table id : String} {s : State}

theorem isRunning_takeClaim {key : String} :
    (takeClaim table id s).claims.isRunning key = true ↔
      rollupKey table id = key ∨ s.claims.isRunning key = true := by
  simp [takeClaim, Claims.isRunning, @eq_comm _ key]

theorem isRunning_releaseClaim_iff {key : String} :
    (releaseClaim table id s).claims.isRunning key = true ↔
      key ≠ rollupKey table id ∧ s.claims.isRunning key = true := by
  simp [releaseClaim, Claims.isRunning_release, and_comm]

theorem elsewhere_takeClaim (table id : String) (s : State) :
    Elsewhere table s (takeClaim table id s) :=
  ⟨fun _ => rfl, fun _ _ => rfl, rfl⟩

theorem elsewhere_releaseClaim (table id : String) (s : State) :
    Elsewhere table s (releaseClaim table id s) :=
  ⟨fun _ => rfl, fun _ _ => rfl, rfl⟩

/-! ## What calls do to the rollups of all tables -/

/-- The rollups after an edit, which leaves them alone if it fails. -/
def edited (edit : RollupCatalog → Except Error (α × RollupCatalog))
    (rollups : List RollupDefinition) : List RollupDefinition :=
  match edit ⟨rollups⟩ with
  | .ok (_, c) => c.rollups
  | .error _ => rollups

theorem loadRollups_editCatalog (edit : RollupCatalog → Except Error (α × RollupCatalog))
    (s : State) : (after (editCatalog table edit) s).store.loadRollups table =
      (s.store.loadRollups table).map (edited edit) := by
  rw [after, editCatalog_run]
  cases hload : s.store.loadRollups table with
  | error e => exact hload
  | ok rollups =>
    simp only [Except.map, edited]
    cases edit ⟨rollups⟩ with
    | error e => exact hload
    | ok result => exact loadRollups_withRollups hload

theorem elsewhere_loadRegistry_bind {f : Registry → Act α}
    (h : ∀ r, Elsewhere table s (after (f r) s)) :
    Elsewhere table s (after (loadRegistry table >>= f) s) := by
  rw [after, loadRegistry_bind_run]
  split
  · exact h _
  · exact .refl table s

theorem elsewhere_createRollup (definition : RollupDefinition) (s : State) :
    Elsewhere table s (after (createRollup table definition) s) :=
  elsewhere_loadRegistry_bind fun r => elsewhere_editCatalog (·.create r s.now definition) s

theorem elsewhere_updateRollup (id : String) (change : RollupUpdate) (s : State) :
    Elsewhere table s (after (updateRollup table id change) s) :=
  elsewhere_loadRegistry_bind fun r => elsewhere_editCatalog (·.update r s.now id change) s

theorem after_updateBaseMetric (service : Service) (table : String) (m : BaseMetric) (s : State) :
    after (service.updateBaseMetric table m) s =
      match ((editRegistry table (·.updateBaseMetric service.dialect m)).run s).1 with
      | .ok _ => after (editCatalog table fun c => .ok (c.markStaleForMetrics [m.id]))
          (after (editRegistry table (·.updateBaseMetric service.dialect m)) s)
      | .error _ => after (editRegistry table (·.updateBaseMetric service.dialect m)) s := by
  simp only [after, Service.updateBaseMetric, Action.run_bind]
  rcases (editRegistry table (·.updateBaseMetric service.dialect m)).run s with ⟨result, s'⟩
  cases result with
  | error e => rfl
  | ok outcome =>
    simp only
    rcases (editCatalog table fun c => .ok (c.markStaleForMetrics [m.id])).run s' with ⟨marked, s''⟩
    cases marked <;> rfl

theorem loadRollups_updateBaseMetric_of_ne (service : Service) {other : String}
    (h : other ≠ table) (m : BaseMetric) (s : State) :
    (after (service.updateBaseMetric table m) s).store.loadRollups other =
      s.store.loadRollups other := by
  have hsame := sameRollups_editRegistry table other (·.updateBaseMetric service.dialect m) s
  rw [after_updateBaseMetric]
  split
  · rw [(elsewhere_editCatalog _ _).rollups other h]
    exact hsame.rollups
  · exact hsame.rollups

/-- A refresh under way. -/
structure Call where
  table : String
  id : String
  pause : Pause State RollupDefinition

def Call.key (call : Call) : String := rollupKey call.table call.id

/-- The state, and the refresh that each caller waits for. -/
structure Traffic where
  state : State
  calls : Nat → Option Call := fun _ => none

namespace Traffic

/-- What may happen to the rollups of all tables. -/
inductive Event where
  | createRollup (table : String) (definition : RollupDefinition)
  | updateRollup (table id : String) (change : RollupUpdate)
  | deleteRollup (table id : String)
  | updateBaseMetric (table : String) (m : BaseMetric)
  /-- The clock shows another time. -/
  | tick (now : Timestamp)
  /-- A caller that waits for no refresh begins one. -/
  | start (caller : Nat) (table id : String)
  /-- The refresh of a caller gets the answer that it waits for. -/
  | reply (caller : Nat) (answers : Answers)
  | cancel (caller : Nat)

/-- A new rollup does not claim to be building. -/
def Event.IsFresh : Event → Prop
  | .createRollup _ definition => definition.build.status ≠ .building
  | _ => True

instance Event.decidableIsFresh : ∀ e : Event, Decidable e.IsFresh
  | .createRollup _ definition => inferInstanceAs (Decidable (definition.build.status ≠ .building))
  | .updateRollup .. | .deleteRollup .. | .updateBaseMetric .. | .tick _ | .start .. | .reply ..
  | .cancel _ => .isTrue trivial

variable (service : Service)

/-- A refresh has gone on as far as it gets without an answer. -/
def settle (c : Traffic) (caller : Nat) (call : Call) (s : State) : Traffic :=
  ⟨s, Function.update c.calls caller (if call.pause.hasEnded then none else some call)⟩

def step (c : Traffic) : Event → Traffic
  | .createRollup table definition =>
    { c with state := after (createRollup table definition) c.state }
  | .updateRollup table id change =>
    { c with state := after (updateRollup table id change) c.state }
  | .deleteRollup table id => { c with state := after (deleteRollup table id) c.state }
  | .updateBaseMetric table m =>
    { c with state := after (service.updateBaseMetric table m) c.state }
  | .tick now => { c with state := { c.state with now } }
  | .start caller table id =>
    match c.calls caller with
    | some _ => c
    | none =>
      let (pause, s) := (service.refreshRollup table id).advance [] c.state
      c.settle caller { table, id, pause } s
  | .reply caller answers =>
    match c.calls caller with
    | none => c
    | some call =>
      let (pause, s) := call.pause.resume answers c.state
      c.settle caller { call with pause } s
  | .cancel caller =>
    match c.calls caller with
    | none => c
    | some call => ⟨call.pause.drop c.state, Function.update c.calls caller none⟩

def run (c : Traffic) (events : List Event) : Traffic := events.foldl (step service) c

/-- A refresh of that rollup is under way. -/
def Refreshes (c : Traffic) (table id : String) : Prop :=
  ∃ caller call, c.calls caller = some call ∧ call.table = table ∧ call.id = id

variable {service} {c : Traffic} {table id : String} {caller : Nat} {call : Call} {s : State}

/-! ## The steps of a refresh -/

/-- A refresh ends before it asks anything, and no rollup has changed. -/
structure EndsAtOnce (c : Traffic) (table : String) (s : State) : Prop where
  rollups : s.store.loadRollups table = c.state.store.loadRollups table
  claims : ∀ key, s.claims.isRunning key = c.state.claims.isRunning key
  elsewhere : Elsewhere table c.state s

theorem EndsAtOnce.loadRollups (h : c.EndsAtOnce table s) (other : String) :
    s.store.loadRollups other = c.state.store.loadRollups other := by
  by_cases hother : other = table
  · exact hother ▸ h.rollups
  · exact h.elsewhere.rollups other hother

/-- A refresh has marked the stored rollup `definition`, one of `rollups`, and waits
for the warehouse. -/
structure Begins (c : Traffic) (table id : String) (definition : RollupDefinition)
    (rollups : List RollupDefinition) (pause : Pause State RollupDefinition) : Prop where
  load : c.state.store.loadRollups table = .ok rollups
  find : RollupCatalog.find? ⟨rollups⟩ id = some definition
  refreshing : Refreshing table id definition pause
  free : c.state.claims.isRunning (rollupKey table id) = false

theorem step_start_of_some (h : c.calls caller = some call) (table id : String) :
    c.step service (.start caller table id) = c := by
  simp only [step, h]

theorem step_start_cases (service : Service) (h : c.calls caller = none) (table id : String) :
    (∃ s, c.step service (.start caller table id) = { c with state := s } ∧
      c.EndsAtOnce table s) ∨
    ∃ definition rollups pause, c.Begins table id definition rollups pause ∧
      c.step service (.start caller table id) =
        ⟨withRollups table (RollupCatalog.modify ⟨rollups⟩ id markBuilding).rollups
          (takeClaim table id c.state),
          Function.update c.calls caller (some { table, id, pause })⟩ := by
  simp only [step, h]
  rcases refreshRollup_cases service table id c.state with
    ⟨result, s, heq, hrollups, hclaims, helse⟩ |
      ⟨definition, p, rollups, hload, hfind, hp, hfree, heq⟩
  · refine .inl ⟨s, ?_, hrollups, hclaims, helse⟩
    rw [heq, settle]
    simp only [Pause.hasEnded, if_true]
    rw [← h, Function.update_eq_self]
  · refine .inr ⟨definition, rollups, p, ⟨hload, hfind, hp, hfree⟩, ?_⟩
    simp only [heq, settle, hp.hasEnded_eq_false]
    rfl

theorem step_reply_of_none (h : c.calls caller = none) (answers : Answers) :
    c.step service (.reply caller answers) = c := by
  simp only [step, h]

/-- With an answer a refresh goes on to wait for the next, or it records how the
build has ended. -/
theorem step_reply_cases {definition : RollupDefinition} (service : Service)
    (h : c.calls caller = some call)
    (hp : Refreshing call.table call.id definition call.pause) (answers : Answers) :
    (∃ pause, Refreshing call.table call.id definition pause ∧
      c.step service (.reply caller answers) =
        ⟨c.state, Function.update c.calls caller (some { call with pause })⟩) ∨
    ∃ result : Except Error TableStats, c.step service (.reply caller answers) =
      ⟨releaseClaim call.table call.id (after (recordStep call.table
          (definition.recordRefresh c.state.now result).2) c.state),
        Function.update c.calls caller none⟩ := by
  simp only [step, h]
  rcases hp.resume_cases answers c.state with ⟨pause, heq, hp'⟩ | ⟨result, heq⟩
  · refine .inl ⟨pause, hp', ?_⟩
    simp only [heq, settle, hp'.hasEnded_eq_false]
    rfl
  · refine .inr ⟨result, ?_⟩
    simp only [heq, settle]
    rfl

theorem step_cancel_of_none (h : c.calls caller = none) :
    c.step service (.cancel caller) = c := by
  simp only [step, h]

theorem step_cancel_eq {definition : RollupDefinition} (h : c.calls caller = some call)
    (hp : Refreshing call.table call.id definition call.pause) :
    c.step service (.cancel caller) =
      ⟨releaseClaim call.table call.id (after (restoreStep call.table call.id definition.build)
        c.state), Function.update c.calls caller none⟩ := by
  simp only [step, h, hp.drop_eq]

/-! ## What holds in all traffic -/

/-- Claims belong to refreshes under way, one to each, and so do rollups that are
building. -/
structure Valid (c : Traffic) : Prop where
  unique : ∀ {caller caller' call call'}, c.calls caller = some call →
    c.calls caller' = some call' → call.key = call'.key → caller = caller'
  claimed : ∀ key, c.state.claims.isRunning key = true ↔
    ∃ caller call, c.calls caller = some call ∧ call.key = key
  refreshing : ∀ {caller call}, c.calls caller = some call → ∃ definition : RollupDefinition,
    definition.id = call.id ∧ definition.build.status ≠ .building ∧
      Refreshing call.table call.id definition call.pause
  attended : ∀ table rollups, c.state.store.loadRollups table = .ok rollups →
    Attended (c.Refreshes table) rollups

theorem valid_start (hidle : s.claims.running = [])
    (hquiet : ∀ table rollups, s.store.loadRollups table = .ok rollups →
      ∀ r ∈ rollups, r.build.status ≠ .building) : Valid { state := s } where
  unique h := by cases h
  claimed key := by simp [Claims.isRunning, hidle]
  refreshing h := by cases h
  attended table rollups hload := attended_of_not_building (hquiet table rollups hload)

/-- A call that waits for nothing, and keeps rollups attended to. -/
theorem Valid.of_changes {change : List RollupDefinition → List RollupDefinition → Prop}
    (h : c.Valid) (hs : Changes table change c.state s)
    (helse : ∀ other, other ≠ table → s.store.loadRollups other = c.state.store.loadRollups other)
    (hchange : ∀ {busy : String → Prop} {old new}, change old new → Attended busy old →
      Attended busy new) :
    Valid { c with state := s } where
  unique := h.unique
  claimed key := by
    rw [hs.claims]
    exact h.claimed key
  refreshing := h.refreshing
  attended other rollups hload := by
    by_cases hother : other = table
    · subst hother
      rcases hs.rollups with heq | ⟨old, new, hold, hnew, hc⟩
      · exact h.attended other rollups (heq ▸ hload)
      · obtain rfl := Except.ok.inj (hnew.symm.trans hload)
        exact hchange hc (h.attended other old hold)
    · exact h.attended other rollups (helse other hother ▸ hload)

theorem update_eq_some_iff {β : Type} {f : Nat → Option β} {n m : Nat} {v : Option β} {y : β} :
    Function.update f n v m = some y ↔ m = n ∧ v = some y ∨ m ≠ n ∧ f m = some y := by
  by_cases hm : m = n
  · simp [hm]
  · simp [hm]

/-- What is in a table of which one entry is put in its place. -/
theorem exists_update_iff {β : Type} (f : Nat → Option β) (n : Nat) (v : Option β)
    (P : β → Prop) : (∃ m y, Function.update f n v m = some y ∧ P y) ↔
      (∃ y, v = some y ∧ P y) ∨ ∃ m y, m ≠ n ∧ f m = some y ∧ P y := by
  simp only [update_eq_some_iff, or_and_right, exists_or, and_assoc]
  refine or_congr_left ?_
  constructor
  · rintro ⟨_, y, -, hy, hP⟩
    exact ⟨y, hy, hP⟩
  · rintro ⟨y, hy, hP⟩
    exact ⟨n, y, rfl, hy, hP⟩

theorem exists_call_iff (f : Nat → Option Call) (n : Nat) (P : Call → Prop) :
    (∃ m y, f m = some y ∧ P y) ↔
      (∃ y, f n = some y ∧ P y) ∨ ∃ m y, m ≠ n ∧ f m = some y ∧ P y := by
  rw [← exists_update_iff, Function.update_eq_self]

theorem Valid.key_ne (h : c.Valid) (hcall : c.calls caller = some call) {other : Nat}
    {call' : Call} (hother : c.calls other = some call') (hne : other ≠ caller) :
    call'.key ≠ call.key :=
  fun hkey => hne (h.unique hother hcall hkey)

/-- A refresh that begins holds its claim from then on. -/
theorem Valid.of_begins {definition : RollupDefinition} {rollups : List RollupDefinition}
    {pause : Pause State RollupDefinition} (h : c.Valid) (hfree : c.calls caller = none)
    (hb : c.Begins table id definition rollups pause) :
    Valid ⟨withRollups table (RollupCatalog.modify ⟨rollups⟩ id markBuilding).rollups
      (takeClaim table id c.state), Function.update c.calls caller (some { table, id, pause })⟩ := by
  have hnone : ¬ ∃ n call, c.calls n = some call ∧ call.key = rollupKey table id := by
    rw [← h.claimed, hb.free]
    exact Bool.false_ne_true
  have hexists (P : Call → Prop) : (∃ n call, Function.update c.calls caller
      (some { table, id, pause }) n = some call ∧ P call) ↔
        P { table, id, pause } ∨ ∃ n call, c.calls n = some call ∧ P call := by
    rw [exists_update_iff, exists_call_iff c.calls caller]
    simp [hfree]
  have helse : Elsewhere table c.state
      (withRollups table (RollupCatalog.modify ⟨rollups⟩ id markBuilding).rollups
        (takeClaim table id c.state)) :=
    (elsewhere_takeClaim table id c.state).trans (elsewhere_withRollups ..)
  refine ⟨?_, fun key => ?_, ?_, fun other new hload => ?_⟩
  · intro m n call call' hm hn hkey
    rcases update_eq_some_iff.1 hm with ⟨hmc, hnew⟩ | ⟨-, hm⟩ <;>
      rcases update_eq_some_iff.1 hn with ⟨hnc, hnew'⟩ | ⟨-, hn⟩
    · rw [hmc, hnc]
    · obtain rfl := Option.some.inj hnew
      exact absurd ⟨n, call', hn, hkey.symm⟩ hnone
    · obtain rfl := Option.some.inj hnew'
      exact absurd ⟨m, call, hm, hkey⟩ hnone
    · exact h.unique hm hn hkey
  · rw [hexists, ← h.claimed]
    exact isRunning_takeClaim
  · intro n call hn
    rcases update_eq_some_iff.1 hn with ⟨rfl, hnew⟩ | ⟨-, hn⟩
    · obtain rfl := Option.some.inj hnew
      have hid : definition.id = id := by simpa using List.find?_some hb.find
      refine ⟨definition, hid, fun hbuilding => ?_, hb.refreshing⟩
      -- a rollup that is building already has its claim taken
      obtain ⟨m, call, hm, rfl, hcall⟩ := (h.attended table rollups hb.load).busy definition
        (List.mem_of_find?_eq_some hb.find) hbuilding
      exact hnone ⟨m, call, hm, by rw [Call.key, hcall, hid]⟩
    · exact h.refreshing hn
  · by_cases hother : other = table
    · subst hother
      obtain rfl := Except.ok.inj ((loadRollups_withRollups hb.load).symm.trans hload)
      have hmark (r : RollupDefinition) : (markBuilding r).id = r.id := rfl
      refine ((h.attended other rollups hb.load).begin hmark).mono fun x hx => ?_
      rw [Refreshes, hexists]
      rcases hx with hx | rfl
      · exact .inr hx
      · exact .inl ⟨rfl, rfl⟩
    · have hold := h.attended other new (helse.rollups other hother ▸ hload)
      exact hold.mono fun x hx => (hexists _).2 (.inr hx)

/-- A refresh that waits for another answer. -/
theorem Valid.of_waits {definition : RollupDefinition} {pause : Pause State RollupDefinition}
    (h : c.Valid) (hcall : c.calls caller = some call) (hid : definition.id = call.id)
    (hstatus : definition.build.status ≠ .building)
    (hp : Refreshing call.table call.id definition pause) :
    Valid ⟨c.state, Function.update c.calls caller (some { call with pause })⟩ := by
  have hexists {P : Call → Prop} (hP : P { call with pause } ↔ P call) :
      (∃ n call', Function.update c.calls caller (some { call with pause }) n = some call' ∧
        P call') ↔ ∃ n call, c.calls n = some call ∧ P call := by
    rw [exists_update_iff, exists_call_iff c.calls caller]
    simp [hcall, hP]
  have hcases {n : Nat} {call' : Call}
      (hn : Function.update c.calls caller (some { call with pause }) n = some call') :
      ∃ old, c.calls n = some old ∧ old.key = call'.key := by
    rcases update_eq_some_iff.1 hn with ⟨rfl, hnew⟩ | ⟨-, hn⟩
    · obtain rfl := Option.some.inj hnew
      exact ⟨call, hcall, rfl⟩
    · exact ⟨call', hn, rfl⟩
  refine ⟨?_, fun key => ?_, ?_, fun table rollups hload => ?_⟩
  · intro m n _ _ hm hn hkey
    obtain ⟨old, hold, hm⟩ := hcases hm
    obtain ⟨old', hold', hn⟩ := hcases hn
    exact h.unique hold hold' (hm.trans (hkey.trans hn.symm))
  · rw [hexists Iff.rfl]
    exact h.claimed key
  · intro n call' hn
    rcases update_eq_some_iff.1 hn with ⟨rfl, hnew⟩ | ⟨-, hn⟩
    · obtain rfl := Option.some.inj hnew
      exact ⟨definition, hid, hstatus, hp⟩
    · exact h.refreshing hn
  · exact (h.attended table rollups hload).mono fun x hx => (hexists Iff.rfl).2 hx

/-- A refresh that ends, with a build state that is not `building`, gives its claim
back. -/
theorem Valid.of_ended {change : RollupDefinition → RollupDefinition} (h : c.Valid)
    (hcall : c.calls caller = some call) (hid : ∀ r, (change r).id = r.id)
    (hchange : ∀ r, (change r).build.status ≠ .building) :
    Valid ⟨releaseClaim call.table call.id (after (editCatalog call.table fun c =>
      .ok ((), c.modify call.id change)) c.state), Function.update c.calls caller none⟩ := by
  have hexists (P : Call → Prop) :
      (∃ n call', Function.update c.calls caller none n = some call' ∧ P call') ↔
        ∃ n call', n ≠ caller ∧ c.calls n = some call' ∧ P call' := by
    rw [exists_update_iff]
    simp
  have hold {n : Nat} {call' : Call} (hn : Function.update c.calls caller none n = some call') :
      n ≠ caller ∧ c.calls n = some call' := by
    simpa [update_eq_some_iff] using hn
  have helse : Elsewhere call.table c.state _ :=
    elsewhere_editCatalog (fun c => .ok ((), c.modify call.id change)) c.state
  have hclaims : (after (editCatalog call.table fun c => .ok ((), c.modify call.id change))
      c.state).claims = c.state.claims := by
    rw [after, editCatalog_run]
    cases c.state.store.loadRollups call.table <;> rfl
  refine ⟨fun hm hn => h.unique (hold hm).2 (hold hn).2, fun key => ?_,
    fun hn => h.refreshing (hold hn).2, fun other new hload => ?_⟩
  · rw [isRunning_releaseClaim_iff, hclaims, h.claimed, hexists]
    constructor
    · rintro ⟨hkey, n, call', hn, rfl⟩
      refine ⟨n, call', ?_, hn, rfl⟩
      rintro rfl
      exact hkey (by rw [Option.some.inj (hn.symm.trans hcall)]; rfl)
    · rintro ⟨n, call', hnc, hn, rfl⟩
      exact ⟨h.key_ne hcall hn hnc, n, call', hn, rfl⟩
  · by_cases hother : other = call.table
    · subst hother
      change (after _ c.state).store.loadRollups _ = _ at hload
      rw [loadRollups_editCatalog] at hload
      cases hrollups : c.state.store.loadRollups call.table with
      | error e =>
        rw [hrollups] at hload
        cases hload
      | ok rollups =>
        rw [hrollups] at hload
        obtain rfl := Except.ok.inj hload
        refine ((h.attended call.table rollups hrollups).ended hid hchange).mono fun x hx => ?_
        obtain ⟨⟨n, call', hn, htable, rfl⟩, hne⟩ := hx
        refine (hexists _).2 ⟨n, call', ?_, hn, htable, rfl⟩
        rintro rfl
        exact hne (by rw [Option.some.inj (hn.symm.trans hcall)])
    · have hattended := h.attended other new (helse.rollups other hother ▸ hload)
      refine hattended.mono fun x hx => ?_
      obtain ⟨n, call', hn, rfl, rfl⟩ := hx
      refine (hexists _).2 ⟨n, call', ?_, hn, rfl, rfl⟩
      rintro rfl
      exact hother (by rw [Option.some.inj (hn.symm.trans hcall)])

theorem recordRefresh_status_ne (definition : RollupDefinition) (now : Timestamp)
    (result : Except Error TableStats) :
    (definition.recordRefresh now result).2.build.status ≠ .building := by
  cases result <;> exact fun h => by cases h

theorem markStale_status_ne (b : BuildState) : b.markStale.status ≠ .building := by
  rcases status_markStale b with h | h <;> simp [h]

theorem calmer_markStale (r : RollupDefinition) :
    Calmer r { r with build := r.build.markStale } :=
  ⟨rfl, fun h => absurd h (markStale_status_ne r.build)⟩

theorem calmer_updated (r : RollupDefinition) (change : RollupUpdate) (now : Timestamp) :
    Calmer r (RollupCatalog.updated r change now) := by
  refine ⟨rfl, fun h => ?_⟩
  simp only [RollupCatalog.updated] at h
  split at h
  · exact absurd h (markStale_status_ne r.build)
  · exact h

theorem Valid.start (h : c.Valid) (service : Service) (caller : Nat) (table id : String) :
    (c.step service (.start caller table id)).Valid := by
  cases hcall : c.calls caller with
  | some call => exact (step_start_of_some hcall table id).symm ▸ h
  | none =>
    rcases step_start_cases service hcall table id with
      ⟨s, heq, hends⟩ | ⟨definition, rollups, pause, hbegins, heq⟩
    · rw [heq]
      refine ⟨h.unique, fun key => ?_, h.refreshing, fun other new hload => ?_⟩
      · rw [hends.claims]
        exact h.claimed key
      · exact h.attended other new (hends.loadRollups other ▸ hload)
    · rw [heq]
      exact h.of_begins hcall hbegins

theorem Valid.reply (h : c.Valid) (service : Service) (caller : Nat) (answers : Answers) :
    (c.step service (.reply caller answers)).Valid := by
  cases hcall : c.calls caller with
  | none => exact (step_reply_of_none hcall answers).symm ▸ h
  | some call =>
    obtain ⟨definition, hid, hstatus, hp⟩ := h.refreshing hcall
    rcases step_reply_cases service hcall hp answers with ⟨pause, hp', heq⟩ | ⟨result, heq⟩
    · rw [heq]
      exact h.of_waits hcall hid hstatus hp'
    · rw [heq]
      have hbuilt : (definition.recordRefresh c.state.now result).2.id = call.id :=
        (recordRefresh_id ..).trans hid
      simp only [recordStep, recordBuild, hbuilt]
      refine h.of_ended hcall (fun r => rfl) fun r => ?_
      dsimp only
      split
      · exact recordRefresh_status_ne definition c.state.now result
      · exact markStale_status_ne _

theorem Valid.cancel (h : c.Valid) (service : Service) (caller : Nat) :
    (c.step service (.cancel caller)).Valid := by
  cases hcall : c.calls caller with
  | none => exact (step_cancel_of_none hcall).symm ▸ h
  | some call =>
    obtain ⟨definition, hid, hstatus, hp⟩ := h.refreshing hcall
    rw [step_cancel_eq hcall hp]
    refine h.of_ended hcall (fun r => ?_) fun r => ?_
    · split <;> rfl
    · split
      · exact hstatus
      · assumption

theorem Valid.step (h : c.Valid) {e : Event} (he : e.IsFresh) : (c.step service e).Valid := by
  cases e with
  | createRollup table definition =>
    refine h.of_changes (changes_createRollup definition c.state)
      (elsewhere_createRollup definition c.state).rollups ?_
    rintro busy old new ⟨created, -, hbuild, -, rfl⟩ hold
    exact hold.append (by rw [hbuild]; exact he)
  | updateRollup table id change =>
    refine h.of_changes (changes_updateRollup id change c.state)
      (elsewhere_updateRollup id change c.state).rollups ?_
    rintro busy old new ⟨now, rfl⟩ hold
    exact hold.of_calmer (forall₂_modify (fun r => ⟨rfl, fun h => h⟩)
      (fun r => calmer_updated r change now) old)
  | deleteRollup table id =>
    refine h.of_changes (changes_deleteRollup id c.state)
      (elsewhere_editCatalog (·.delete id) c.state).rollups ?_
    rintro busy old new rfl hold
    exact hold.sublist (RollupCatalog.removeFirst_sublist id old)
  | updateBaseMetric table m =>
    refine h.of_changes (changes_updateBaseMetric service m c.state)
      (fun other hother => loadRollups_updateBaseMetric_of_ne service hother m c.state) ?_
    rintro busy old new rfl hold
    refine hold.of_calmer (List.forall₂_map_right_iff.2 (List.forall₂_same.2 fun r _ => ?_))
    split
    · exact calmer_markStale r
    · exact ⟨rfl, fun h => h⟩
  | tick now => exact ⟨h.unique, h.claimed, h.refreshing, h.attended⟩
  | start caller table id => exact h.start service caller table id
  | reply caller answers => exact h.reply service caller answers
  | cancel caller => exact h.cancel service caller

theorem Valid.run (h : c.Valid) {events : List Event} (hfresh : ∀ e ∈ events, e.IsFresh) :
    (c.run service events).Valid := by
  induction events generalizing c with
  | nil => exact h
  | cons e rest ih =>
    obtain ⟨he, hrest⟩ := List.forall_mem_cons.1 hfresh
    exact ih (h.step he) hrest

end Traffic

end Service

end MetricLayer
