import MetricLayer.Proofs.Service.Plans
import MetricLayer.Proofs.SortedSet
import MetricLayer.Proofs.Sql.Columns
import MetricLayer.Proofs.Sql.Keys
import MetricLayer.Proofs.Sql.Written
import MetricLayer.Proofs.Time.Date
import MetricLayer.Proofs.Warehouse.Execution

/-!
# Adding the dates that an optimized table lacks

A refresh asks which dates of the source the optimized table lacks, and adds the rows
of these dates. If the partition column is one of dates (`IsDateColumn`), and the source
has gained rows of dates that it did not have when the table was built of it (`Gains`),
the dates that are told are those of the new rows (`mem_dates_iff`), in whatever order
and how often they are told. So no row of the table is added again, and the table has
the rows that it would have if it were built anew (`append_same`).

`runs_refresh_ok` says what a refresh that succeeds has executed, and
`refresh_incremental_of_gains` puts both together.
-/

namespace MetricLayer

open scoped List
open Sql (Engine Expr Select Statement Table Tables Value Warehouse)

/-! ## Columns of dates -/

/-- The days of the type `DATE` in SQL are those of the years 1 to 9999. A warehouse that
has other days too does not write them as `YYYY-MM-DD`, which is what `partitionDate`
takes, and nothing is said of them here. -/
def Date.IsSqlDate (d : Date) : Prop := 1 ≤ d.year ∧ d.year ≤ 9999

instance (d : Date) : Decidable d.IsSqlDate :=
  inferInstanceAs (Decidable (1 ≤ d.year ∧ d.year ≤ 9999))

theorem Date.IsSqlDate.hasPlainYear {d : Date} (h : d.IsSqlDate) : d.HasPlainYear :=
  ⟨Int.le_trans (by decide) h.1, h.2⟩

/-- A warehouse writes dates as they are read, and tells them apart. -/
structure Sql.Engine.Dated (engine : Engine) : Prop where
  date_ne_null : ∀ d, engine.date d ≠ none
  date_inj : ∀ d d', engine.date d = engine.date d' → d = d'
  text : ∀ d : Date, d.IsSqlDate →
    engine.call .castToString [engine.date d] = some (.text d.text)

/-- The dates that are answered are read one by one and put in order. -/
theorem Service.missingDates_eq_ok {reply : QueryResult} {dates : List Date}
    (h : missingDates reply = .ok dates) :
    ∃ ds, (reply.texts "partition_date").map partitionDate = ds.map .ok ∧ dates = sortedSet ds := by
  cases hread : (reply.texts "partition_date").mapM partitionDate with
  | error e =>
    rw [missingDates, hread] at h
    cases h
  | ok ds =>
    rw [missingDates, hread] at h
    exact ⟨ds, map_eq_map_of_forall₂ (Except.mapM_eq_ok.1 hread) fun _ _ => id,
      (Except.ok.inj h).symm⟩

/-- Exact arithmetic and the functions of texts, with dates written as they are read. -/
def Sql.Engine.calendar : Engine :=
  { Engine.texts with
    call := fun
      | .castToString, [some (.day n)] => (Date.ofOrder? n).map fun d => .text d.text
      | function, values => Engine.texts.call function values }

theorem Sql.Engine.dated_calendar : Engine.calendar.Dated where
  date_ne_null _ h := by cases h
  date_inj _ _ h := Date.order_inj (Sql.Datum.day.inj (Option.some.inj h))
  text d _ := by
    change (Date.ofOrder? d.order).map _ = _
    rw [Date.ofOrder?_order]
    rfl

namespace Sql.Warehouse

variable {w : Warehouse} {source target before now built : Table} {name : String}

/-- A column of the type `DATE`: days and nulls. -/
structure IsDateColumn (w : Warehouse) (t : Table) (name : String) : Prop where
  hasColumn : w.HasColumn t.columns name
  date : ∀ v ∈ w.column t name, v = none ∨ ∃ d : Date, d.IsSqlDate ∧ v = w.engine.date d

/-- What is read of the dates told are the dates that one table has more. -/
theorem mem_missingDates (hw : w.engine.Dated) (hsource : w.IsDateColumn source name)
    {reply : QueryResult} (htexts : ∀ text, text ∈ reply.texts "partition_date" ↔
      text ∈ w.missingTexts source target name) {dates : List Date}
    (h : Service.missingDates reply = .ok dates) (d : Date) :
    d ∈ dates ↔ w.engine.date d ∈ w.missing source target name := by
  have hvalue {v : Value} (hv : v ∈ w.missing source target name) :
      ∃ d : Date, d.IsSqlDate ∧ v = w.engine.date d := by
    rw [mem_missing] at hv
    exact (hsource.date v hv.1).resolve_left hv.2.1
  have hmem (text : String) : text ∈ w.missingTexts source target name ↔
      ∃ d : Date, d.IsSqlDate ∧ w.engine.date d ∈ w.missing source target name ∧
        text = d.text := by
    rw [missingTexts, List.mem_filterMap]
    constructor
    · rintro ⟨v, hv, htext⟩
      obtain ⟨d, hd, rfl⟩ := hvalue hv
      rw [hw.text d hd] at htext
      exact ⟨d, hd, hv, (Option.some.inj htext).symm⟩
    · rintro ⟨d, hd, hv, rfl⟩
      exact ⟨_, hv, by rw [hw.text d hd]⟩
  obtain ⟨ds, hread, rfl⟩ := Service.missingDates_eq_ok h
  have hds : d ∈ ds ↔ ∃ text ∈ reply.texts "partition_date", partitionDate text = .ok d := by
    rw [← List.mem_map, hread, List.mem_map_of_injective fun _ _ => Except.ok.inj]
  rw [mem_sortedSet, hds]
  constructor
  · rintro ⟨text, htext, hd⟩
    obtain ⟨d', hd', hmissing, rfl⟩ := (hmem text).1 ((htexts text).1 htext)
    rw [Date.partitionDate_text hd'.hasPlainYear] at hd
    exact Except.ok.inj hd ▸ hmissing
  · intro hmissing
    obtain ⟨d', hd', heq⟩ := hvalue hmissing
    obtain rfl := hw.date_inj d d' heq
    exact ⟨d.text, (htexts _).2 ((hmem _).2 ⟨d, hd', hmissing, rfl⟩),
      Date.partitionDate_text hd'.hasPlainYear⟩

/-! ## Sources that gain rows -/

/-- The rows `added` are new, at dates that the table had no rows of. -/
structure Gains (w : Warehouse) (name : String) (before now : Table) (added : List (List Value)) :
    Prop where
  columns : now.columns = before.columns
  rows : now.rows.Perm (before.rows ++ added)
  ne_null : ∀ values ∈ added, w.row now.columns values name ≠ none
  new : ∀ values ∈ added, w.row now.columns values name ∉ w.column before name

variable {added : List (List Value)}

/-- The dates that were not there are those of the new rows. -/
theorem Gains.mem_missing_iff (h : w.Gains name before now added)
    (htarget : ∀ v, v ∈ w.column target name ↔ v ∈ w.column before name) {v : Value} :
    v ∈ w.missing now target name ↔ ∃ values ∈ added, w.row now.columns values name = v := by
  have hcolumn : v ∈ w.column now name ↔
      v ∈ w.column before name ∨ ∃ values ∈ added, w.row now.columns values name = v := by
    rw [column, (h.rows.map _).mem_iff, List.map_append, List.mem_append, column, h.columns]
    exact or_congr_right List.mem_map
  rw [mem_missing, htarget, hcolumn]
  constructor
  · rintro ⟨hold | hnew, -, hnot⟩
    · exact absurd hold hnot
    · exact hnew
  · rintro ⟨values, hvalues, rfl⟩
    exact ⟨.inr ⟨values, hvalues, rfl⟩, h.ne_null values hvalues, h.new values hvalues⟩

theorem Gains.exists_date (h : w.Gains name before now added) (hdate : w.IsDateColumn now name) :
    ∀ values ∈ added, ∃ d, w.row now.columns values name = w.engine.date d := by
  intro values hvalues
  have hrow : values ∈ now.rows := h.rows.mem_iff.2 (List.mem_append_right _ hvalues)
  obtain ⟨d, -, hd⟩ := (hdate.date _ (List.mem_map_of_mem hrow)).resolve_left
    (h.ne_null values hvalues)
  exact ⟨d, hd⟩

end Sql.Warehouse

/-! ## Tables that are built of a source -/

namespace OptimizedSource

variable {o : OptimizedSource} {w : Warehouse} {source built : Table}

/-- A row of the optimized table: that of the source, and the keys behind it. -/
def extend (o : OptimizedSource) (w : Warehouse) (columns : List String) (values : List Value) :
    List Value :=
  values ++ o.keyMappings.map fun m =>
    (Expr.compositeKey m.sourceColumns).eval w.engine (w.row columns values).scope

/-- Rows of some dates only. -/
def ofDates (o : OptimizedSource) (dates : List Date) : Select :=
  { o.query with
    filters := [.inList (.ofColumn o.partitionColumn) (dates.map .date) false] }

theorem incremental?_eq (o : OptimizedSource) (dates : List Date) :
    o.incremental? dates =
      if dates.isEmpty then none else some (.insert o.optimizedTable (o.ofDates dates)) := rfl

/-- Whatever its filters are, the query copies rows and adds keys to them. -/
theorem answer_query (o : OptimizedSource) (w : Warehouse) (filters : List Expr) (source : Table) :
    let q : Select := { o.query with filters }
    (q.answer w source).columns = source.columns ++ o.keyMappings.map (·.keyColumnName) ∧
      (q.answer w source).rows =
        (source.rows.filter (q.keeps w source.columns)).map (o.extend w source.columns) := by
  intro q
  have hkey (columns : List String) : ∀ node ∈ (Expr.compositeKey columns).nodes,
      node.isAggregate = false := by
    refine Sql.forall_nodes_compositeKey rfl rfl fun column => ?_
    simp [Expr.keyPart, Expr.replaceAll, Expr.ofText, Expr.ofColumn, Expr.nodes, Expr.nodesOf,
      Expr.isAggregate]
  have haggregates : q.aggregates = false := by
    simp only [Select.aggregates, Bool.or_eq_false_iff]
    refine ⟨rfl, List.any_eq_false.2 fun item hitem hany => ?_⟩
    obtain ⟨node, hnode, haggregate⟩ := List.any_eq_true.1 hany
    rcases List.mem_cons.1 hitem with rfl | hitem
    · obtain rfl := List.mem_singleton.1 hnode
      cases haggregate
    · obtain ⟨m, -, rfl⟩ := List.mem_map.1 hitem
      rw [hkey m.sourceColumns node hnode] at haggregate
      cases haggregate
  obtain ⟨hcolumns, hrows⟩ := Select.answer_eq (w := w) haggregates rfl source
  have hitems : q.items = { expr := .wildcard } :: o.keyMappings.map fun m =>
      { expr := .compositeKey m.sourceColumns, label := some m.keyColumnName } := rfl
  refine ⟨?_, hrows.trans (congrArg (fun f => List.map f _) (funext fun values => ?_))⟩
  · rw [hcolumns, hitems, List.flatMap_cons, List.flatMap_map]
    exact congrArg (source.columns ++ ·) List.map_eq_flatMap.symm
  · rw [Select.project, hitems, List.flatMap_cons, List.flatMap_map]
    exact congrArg (values ++ ·) List.map_eq_flatMap.symm

variable {before now : Table} {dates : List Date} {added : List (List Value)}

theorem keeps_ofDates (hw : w.engine.Dated) (columns : List String) (values : List Value) :
    (o.ofDates dates).keeps w columns values = true ↔
      ∃ d ∈ dates, w.engine.date d = w.row columns values o.partitionColumn := by
  have hfilter : (o.ofDates dates).keeps w columns values =
      ((w.row columns values o.partitionColumn).isIn (dates.map w.engine.date) false).holds := by
    simp [Select.keeps, ofDates, Expr.eval, Expr.evalAll_eq_map, Expr.ofColumn, Sql.Row.scope,
      Function.comp_def]
  rw [hfilter, Value.holds_isIn, List.mem_map]
  refine and_iff_right_of_imp ?_
  rintro ⟨d, -, hd⟩ hnull
  exact hw.date_ne_null d (hd.trans hnull)

theorem columns_query (o : OptimizedSource) (w : Warehouse) (source : Table) :
    (o.query.answer w source).columns =
      source.columns ++ o.keyMappings.map (·.keyColumnName) :=
  (o.answer_query w [] source).1

theorem rows_query (o : OptimizedSource) (w : Warehouse) (source : Table) :
    (o.query.answer w source).rows = source.rows.map (o.extend w source.columns) := by
  have hkeeps : source.rows.filter (o.query.keeps w source.columns) = source.rows :=
    List.filter_eq_self.2 fun _ _ => rfl
  exact (o.answer_query w [] source).2.trans (congrArg (List.map _) hkeeps)

/-- The optimized table has the dates of its source. -/
theorem mem_column_of_same (hbuilt : built.Same (o.query.answer w source)) {name : String}
    (hname : w.HasColumn source.columns name) (v : Value) :
    v ∈ w.column built name ↔ v ∈ w.column source name := by
  have hrow : ∀ values ∈ source.rows, w.row built.columns (o.extend w source.columns values) name =
      w.row source.columns values name := by
    intro values hvalues
    rw [hbuilt.1, columns_query]
    exact Warehouse.row_append (source.width values hvalues) hname _ _
  rw [Warehouse.column, (hbuilt.2.map _).mem_iff, rows_query, List.map_map, Warehouse.column,
    ← List.map_congr_left hrow]
  rfl

/-- The table of the source as it was, with the rows of the new dates, is the table of
the source as it is. -/
theorem append_same (hw : w.engine.Dated) (hgain : w.Gains o.partitionColumn before now added)
    (hbuilt : built.Same (o.query.answer w before))
    (hdates : ∀ d, d ∈ dates ↔
      ∃ values ∈ added, w.row now.columns values o.partitionColumn = w.engine.date d)
    (hadded : ∀ values ∈ added, ∃ d, w.row now.columns values o.partitionColumn = w.engine.date d)
    {new : Table} (hcolumns : new.columns = built.columns)
    (hrows : new.rows.Perm (built.rows ++ ((o.ofDates dates).answer w now).rows)) :
    new.Same (o.query.answer w now) := by
  have hold : before.rows.filter ((o.ofDates dates).keeps w now.columns) = [] := by
    refine List.filter_eq_nil_iff.2 fun values hvalues hkept => ?_
    obtain ⟨d, hd, heq⟩ := (keeps_ofDates hw _ _).1 hkept
    obtain ⟨others, hothers, hother⟩ := (hdates d).1 hd
    refine hgain.new others hothers ?_
    rw [hother, heq, hgain.columns]
    exact List.mem_map_of_mem hvalues
  have hnew : added.filter ((o.ofDates dates).keeps w now.columns) = added := by
    refine List.filter_eq_self.2 fun values hvalues => ?_
    obtain ⟨d, hd⟩ := hadded values hvalues
    exact (keeps_ofDates hw _ _).2 ⟨d, (hdates d).2 ⟨values, hvalues, hd⟩, hd.symm⟩
  have hkept : (now.rows.filter ((o.ofDates dates).keeps w now.columns)).Perm added := by
    have hperm := hgain.rows.filter ((o.ofDates dates).keeps w now.columns)
    rwa [List.filter_append, hold, hnew, List.nil_append] at hperm
  constructor
  · rw [hcolumns, hbuilt.1, columns_query, columns_query, hgain.columns]
  · calc new.rows
      _ ~ built.rows ++ ((o.ofDates dates).answer w now).rows := hrows
      _ ~ before.rows.map (o.extend w now.columns) ++ added.map (o.extend w now.columns) := by
        refine List.Perm.append ?_ ?_
        · rw [hgain.columns, ← rows_query]
          exact hbuilt.2
        · rw [ofDates, (o.answer_query w _ now).2]
          exact hkept.map _
      _ ~ (o.query.answer w now).rows := by
        rw [← List.map_append, rows_query]
        exact (hgain.rows.map _).symm

/-! ## Runs -/

variable {σ : Type}

/-- What is left of a refresh when it is known how it ends. -/
def recording (o : OptimizedSource) (clock : σ → Timestamp)
    (result : Except Error (RefreshSummary × TableStats)) :
    Work σ (Except Error RefreshSummary × OptimizedSource) :=
  .read fun s => .done (.ok (o.recordRefresh (clock s) result))

/-- What is left of it when the rows are there. -/
def sizing (o : OptimizedSource) (clock : σ → Timestamp) (dates : List Date) :
    Work σ (Except Error RefreshSummary × OptimizedSource) :=
  .ask (.execute (.rowCount o.optimizedTable)) fun reply =>
    o.recording clock (reply.map fun answer =>
      (⟨.incremental, dates, (Service.statsOf answer).rowCount⟩, Service.statsOf answer))

/-- What is left of it when it is known which dates the table lacks. -/
def adding (o : OptimizedSource) (clock : σ → Timestamp) (dates : List Date) :
    Work σ (Except Error RefreshSummary × OptimizedSource) :=
  if dates.isEmpty then o.sizing clock dates
  else .ask (.execute (.insert o.optimizedTable (o.ofDates dates))) fun
    | .error e => o.recording clock (.error e)
    | .ok _ => o.sizing clock dates

/-- What is left of it when the answer is read. -/
def comparing (o : OptimizedSource) (clock : σ → Timestamp) :
    Except Error (List Date) → Work σ (Except Error RefreshSummary × OptimizedSource)
  | .error e => o.recording clock (.error e)
  | .ok dates => o.adding clock dates

/-- The rows of the dates are added, and the dates are the answer. -/
def adds (o : OptimizedSource) (dates : List Date) : Work σ (List Date) :=
  match o.incremental? dates with
  | none => .done (.ok dates)
  | some statement => (Work.execute statement).bind fun _ => .done (.ok dates)

theorem refresh_incremental_eq (hready : o.build.isReady = true) (clock : σ → Timestamp) :
    o.refresh clock .incremental =
      .ask (.execute (.missingPartitions o.sourceTable o.optimizedTable o.partitionColumn))
        fun reply => o.comparing clock (reply.bind Service.missingDates) := by
  have hmode : o.effectiveMode .incremental = .incremental := by rw [effectiveMode, if_pos hready]
  have hrebuild : o.rebuild (σ := σ) .incremental =
      (Work.missingPartitions o.sourceTable o.optimizedTable o.partitionColumn).bind o.adds := rfl
  have hrun : o.runRefresh (σ := σ) .incremental =
      (o.rebuild .incremental).bind fun added =>
        (Work.tableStats o.optimizedTable).bind fun stats =>
          .done (.ok (⟨.incremental, added, stats.rowCount⟩, stats)) := rfl
  have hrefresh : o.refresh clock .incremental =
      (o.runRefresh (o.effectiveMode .incremental)).attempt.bind fun result =>
        (Work.view clock).bind fun now => .done (.ok (o.recordRefresh now result)) := rfl
  rw [hrefresh, hmode, hrun, hrebuild, Service.missingPartitions_eq]
  simp only [Work.bind, Work.attempt, Work.andThen_assoc]
  refine congrArg (Work.ask _) (funext fun reply => ?_)
  dsimp only
  generalize reply.bind Service.missingDates = dates
  cases dates with
  | error e => rfl
  | ok dates =>
    simp only [Work.andThen, adds, incremental?_eq, comparing, adding]
    cases dates with
    | nil =>
      refine congrArg (Work.ask _) (funext fun reply => ?_)
      cases reply <;> rfl
    | cons d dates =>
      refine congrArg (Work.ask _) (funext fun reply => ?_)
      cases reply with
      | error e => rfl
      | ok _ =>
        refine congrArg (Work.ask _) (funext fun reply => ?_)
        cases reply <;> rfl

variable {clock : σ → Timestamp} {s : σ} {tables after : Tables} {log : List Statement}
  {outcome : Except Error (Except Error RefreshSummary × OptimizedSource)}

theorem runs_recording {result : Except Error (RefreshSummary × TableStats)}
    (h : (o.recording clock result).Runs w s tables log outcome after) :
    log = [] ∧ after = tables ∧ outcome = .ok (o.recordRefresh (clock s) result) := by
  simp only [Work.Runs, recording, Work.advance] at h
  cases h
  exact ⟨rfl, rfl, rfl⟩

/-- The size of the table is asked for, and nothing is changed. -/
theorem runs_sizing (h : (o.sizing clock dates).Runs w s tables log outcome after) :
    log = [.rowCount o.optimizedTable] ∧ after = tables ∧
      ∃ now result, outcome = .ok (o.recordRefresh now result) ∧
        ∀ summary stats, result = .ok (summary, stats) →
          summary.mode = .incremental ∧ summary.partitionsAdded = dates := by
  simp only [Work.Runs, sizing, Work.advance] at h
  cases h with
  | execute s hreply hrest =>
    obtain ⟨rfl, rfl, rfl⟩ := runs_recording hrest
    cases hreply with
    | failed statement e => exact ⟨rfl, rfl, _, _, rfl, fun _ _ h => by cases h⟩
    | rowCount table reply =>
      refine ⟨rfl, rfl, _, _, rfl, fun summary stats h => ?_⟩
      cases h
      exact ⟨rfl, rfl⟩

theorem recordRefresh_eq_ok {now : Timestamp} {result : Except Error (RefreshSummary × TableStats)}
    {summary : RefreshSummary} {o' : OptimizedSource}
    (h : o.recordRefresh now result = (.ok summary, o')) :
    ∃ stats, result = .ok (summary, stats) ∧
      o' = { o with build := o.build.markReady stats now } := by
  cases result with
  | error e => cases h
  | ok result =>
    obtain ⟨hsummary, rfl⟩ := Prod.mk.inj h
    obtain rfl := Except.ok.inj hsummary
    exact ⟨result.2, rfl, rfl⟩

/-- A refresh is told which dates the table lacks, and goes on with them. -/
theorem runs_refresh (hready : o.build.isReady = true)
    (h : (o.refresh clock .incremental).Runs w s tables log outcome after) :
    ∃ reply rest,
      w.Executes tables (.missingPartitions o.sourceTable o.optimizedTable o.partitionColumn) reply
        tables ∧
      log = .missingPartitions o.sourceTable o.optimizedTable o.partitionColumn :: rest ∧
      ((∃ e s, (o.recording clock (.error e)).Runs w s tables rest outcome after) ∨
        ∃ dates s, reply.bind Service.missingDates = .ok dates ∧
          (o.adding clock dates).Runs w s tables rest outcome after) := by
  rw [refresh_incremental_eq hready] at h
  simp only [Work.Runs, Work.advance] at h
  cases h with
  | @execute _ _ _ _ tables' _ reply rest _ s hreply hrest =>
    obtain rfl : tables' = tables := by cases hreply <;> rfl
    refine ⟨reply, rest, hreply, rfl, ?_⟩
    dsimp only at hrest
    cases hdates : reply.bind Service.missingDates with
    | error e =>
      rw [hdates] at hrest
      exact .inl ⟨e, s, hrest⟩
    | ok dates =>
      rw [hdates] at hrest
      exact .inr ⟨dates, s, rfl, hrest⟩

/-- Rows are added only if there are dates to add the rows of. -/
theorem runs_adding (h : (o.adding clock dates).Runs w s tables log outcome after) :
    (dates = [] ∧ (o.sizing clock dates).Runs w s tables log outcome after) ∨
    dates ≠ [] ∧ ∃ reply tables' rest s,
      w.Executes tables (.insert o.optimizedTable (o.ofDates dates)) reply tables' ∧
      ((∃ e, (o.recording clock (.error e)).Runs w s tables' rest outcome after) ∨
        (∃ answer, reply = .ok answer) ∧ (o.sizing clock dates).Runs w s tables' rest outcome after) := by
  cases dates with
  | nil => exact .inl ⟨rfl, h⟩
  | cons d dates =>
    rw [adding, if_neg (by simp)] at h
    simp only [Work.Runs, Work.advance] at h
    cases h with
    | @execute _ _ _ _ tables' _ reply rest _ s hreply hrest =>
      refine .inr ⟨List.cons_ne_nil _ _, reply, tables', rest, s, hreply, ?_⟩
      cases reply with
      | error e => exact .inl ⟨e, hrest⟩
      | ok answer => exact .inr ⟨⟨answer, rfl⟩, hrest⟩

/-- A refresh that succeeds has added the rows of the dates it was told of, and says
so. -/
theorem runs_refresh_ok (hready : o.build.isReady = true) {summary : RefreshSummary}
    {o' : OptimizedSource}
    (h : (o.refresh clock .incremental).Runs w s tables log (.ok (.ok summary, o')) after) :
    ∃ reply, w.Executes tables
        (.missingPartitions o.sourceTable o.optimizedTable o.partitionColumn) (.ok reply) tables ∧
      Service.missingDates reply = .ok summary.partitionsAdded ∧ summary.mode = .incremental ∧
      (∃ stats now, o' = { o with build := o.build.markReady stats now }) ∧
      (summary.partitionsAdded = [] ∧ after = tables ∨
        ∃ answer, w.Executes tables (.insert o.optimizedTable (o.ofDates summary.partitionsAdded))
          (.ok answer) after) := by
  have hfailed {e : Error} {s : σ} {tables after : Tables} {log : List Statement} :
      ¬(o.recording clock (.error e)).Runs w s tables log (.ok (.ok summary, o')) after := by
    intro hrecord
    obtain ⟨-, -, houtcome⟩ := runs_recording hrecord
    obtain ⟨_, h, -⟩ := recordRefresh_eq_ok (Except.ok.inj houtcome).symm
    cases h
  have hsized {dates : List Date} {s : σ} {tables after : Tables} {log : List Statement}
      (hsize : (o.sizing clock dates).Runs w s tables log (.ok (.ok summary, o')) after) :
      after = tables ∧ summary.mode = .incremental ∧ summary.partitionsAdded = dates ∧
        ∃ stats now, o' = { o with build := o.build.markReady stats now } := by
    obtain ⟨-, hafter, now, result, houtcome, hresult⟩ := runs_sizing hsize
    obtain ⟨stats, hstats, ho'⟩ := recordRefresh_eq_ok (Except.ok.inj houtcome).symm
    obtain ⟨hmode, hdates⟩ := hresult summary stats hstats
    exact ⟨hafter, hmode, hdates, stats, now, ho'⟩
  obtain ⟨reply, rest, hreply, -, ⟨e, s, hrest⟩ | ⟨dates, s, hdates, hrest⟩⟩ := runs_refresh hready h
  · exact absurd hrest hfailed
  cases reply with
  | error e => cases hdates
  | ok reply =>
    rcases runs_adding hrest with
      ⟨rfl, hsize⟩ | ⟨hne, _, tables', _, s', hinsert, ⟨e, hrest⟩ | ⟨⟨answer, rfl⟩, hsize⟩⟩
    · obtain ⟨rfl, hmode, hadded, ho'⟩ := hsized hsize
      exact ⟨reply, hreply, hadded ▸ hdates, hmode, ho', .inl ⟨hadded, rfl⟩⟩
    · exact absurd hrest hfailed
    · obtain ⟨rfl, hmode, hadded, ho'⟩ := hsized hsize
      exact ⟨reply, hreply, hadded ▸ hdates, hmode, ho', .inr ⟨answer, hadded ▸ hinsert⟩⟩

/-- Without dates no rows are added. -/
theorem not_insert_of_runs (hready : o.build.isReady = true)
    (h : (o.refresh clock .incremental).Runs w s tables log outcome after)
    (hnone : ∀ reply dates, w.Executes tables
        (.missingPartitions o.sourceTable o.optimizedTable o.partitionColumn) (.ok reply) tables →
      Service.missingDates reply = .ok dates → dates = []) (target : String) (query : Select) :
    .insert target query ∉ log := by
  obtain ⟨reply, rest, hreply, rfl, ⟨e, s, hrest⟩ | ⟨dates, s, hdates, hrest⟩⟩ := runs_refresh hready h
  · obtain ⟨rfl, -⟩ := runs_recording hrest
    simp
  · cases reply with
    | error e => cases hdates
    | ok reply =>
      rcases runs_adding hrest with ⟨-, hsize⟩ | ⟨hne, -⟩
      · obtain ⟨rfl, -⟩ := runs_sizing hsize
        simp
      · exact absurd (hnone reply dates hreply hdates) hne

/-! ## Refreshes of a source that has gained rows -/

theorem executes_fullRefresh {full : Tables} {reply : QueryResult}
    (hsource : tables o.sourceTable = some source)
    (h : w.Executes tables o.fullRefresh (.ok reply) full) :
    ∃ built, full o.optimizedTable = some built ∧ built.Same (o.query.answer w source) := by
  rw [fullRefresh] at h
  cases h with
  | createTable reply hother hbuilt =>
    obtain rfl := Option.some.inj (hsource.symm.trans hother)
    exact ⟨_, Function.update_self .., hbuilt⟩

theorem rows_ofDates_nil (hw : w.engine.Dated) (source : Table) :
    ((o.ofDates []).answer w source).rows = [] := by
  have hnone : source.rows.filter ((o.ofDates []).keeps w source.columns) = [] := by
    refine List.filter_eq_nil_iff.2 fun values _ hkept => ?_
    obtain ⟨d, hd, -⟩ := (keeps_ofDates hw _ _).1 hkept
    cases hd
  exact (o.answer_query w _ source).2.trans (congrArg (List.map _) hnone)

/-- The dates that are told are those of the new rows. -/
theorem mem_dates_iff (hw : w.engine.Dated) (hsource : tables o.sourceTable = some now)
    (htable : tables o.optimizedTable = some built) (hdate : w.IsDateColumn now o.partitionColumn)
    (hgain : w.Gains o.partitionColumn before now added)
    (hbuilt : built.Same (o.query.answer w before)) {reply : QueryResult}
    (hreply : w.Executes tables
      (.missingPartitions o.sourceTable o.optimizedTable o.partitionColumn) (.ok reply) tables)
    (hdates : Service.missingDates reply = .ok dates) (d : Date) :
    d ∈ dates ↔ ∃ values ∈ added, w.row now.columns values o.partitionColumn = w.engine.date d := by
  cases hreply with
  | missingPartitions hhas hlacks htexts =>
    obtain rfl := Option.some.inj (hsource.symm.trans hhas)
    obtain rfl := Option.some.inj (htable.symm.trans hlacks)
    rw [Warehouse.mem_missingDates hw hdate htexts hdates, hgain.mem_missing_iff]
    exact mem_column_of_same hbuilt (hgain.columns ▸ hdate.hasColumn)

/-- A table that is built of the source lacks no dates of it. -/
theorem dates_eq_nil_of_same (hw : w.engine.Dated) (hsource : tables o.sourceTable = some source)
    (htable : tables o.optimizedTable = some built) (hdate : w.IsDateColumn source o.partitionColumn)
    (hbuilt : built.Same (o.query.answer w source)) {reply : QueryResult}
    (hreply : w.Executes tables
      (.missingPartitions o.sourceTable o.optimizedTable o.partitionColumn) (.ok reply) tables)
    (hdates : Service.missingDates reply = .ok dates) : dates = [] := by
  cases hreply with
  | missingPartitions hhas hlacks htexts =>
    obtain rfl := Option.some.inj (hsource.symm.trans hhas)
    obtain rfl := Option.some.inj (htable.symm.trans hlacks)
    refine List.eq_nil_iff_forall_not_mem.2 fun d hd => ?_
    obtain ⟨hhas, -, hlacks⟩ := Warehouse.mem_missing.1
      ((Warehouse.mem_missingDates hw hdate htexts hdates d).1 hd)
    exact hlacks ((mem_column_of_same hbuilt hdate.hasColumn _).2 hhas)

/-- After a source has gained rows of new dates, adding what the optimized table lacks
leaves it as it would be if it were built of the source again. The dates are told in
order, and a second refresh adds nothing. -/
theorem refresh_incremental_of_gains (hw : w.engine.Dated) (hready : o.build.isReady = true)
    {tables₀ tables₁ : Tables} {reply₀ : QueryResult} (hbefore : tables₀ o.sourceTable = some before)
    (hbuild : w.Executes tables₀ o.fullRefresh (.ok reply₀) tables₁)
    (htable : tables o.optimizedTable = tables₁ o.optimizedTable)
    (hsource : tables o.sourceTable = some now) (hdate : w.IsDateColumn now o.partitionColumn)
    (hgain : w.Gains o.partitionColumn before now added) {summary : RefreshSummary}
    {o' : OptimizedSource}
    (hrun : (o.refresh clock .incremental).Runs w s tables log (.ok (.ok summary, o')) after) :
    (∃ built, after o.optimizedTable = some built ∧
      ∀ reply full, w.Executes tables o.fullRefresh (.ok reply) full →
        ∃ other, full o.optimizedTable = some other ∧ built.Same other) ∧
    (summary.mode = .incremental ∧ summary.partitionsAdded.Pairwise (· < ·) ∧
      ∀ d, d ∈ summary.partitionsAdded ↔
        ∃ values ∈ added, w.row now.columns values o.partitionColumn = w.engine.date d) ∧
    ∀ (clock' : σ → Timestamp) (s' : σ) (again after' : Tables) (log' : List Statement)
      (outcome' : Except Error (Except Error RefreshSummary × OptimizedSource)),
      again o.sourceTable = some now → again o.optimizedTable = after o.optimizedTable →
      (o'.refresh clock' .incremental).Runs w s' again log' outcome' after' →
      ∀ target query, .insert target query ∉ log' := by
  obtain ⟨built, hbuilt, hsame⟩ := executes_fullRefresh hbefore hbuild
  obtain ⟨reply, hreply, hdates, hmode, ⟨stats, time, rfl⟩, hadd⟩ := runs_refresh_ok hready hrun
  have hmem := mem_dates_iff hw hsource (htable.trans hbuilt) hdate hgain hsame hreply hdates
  have hadded := hgain.exists_date hdate
  -- what the table is after the refresh
  obtain ⟨new, hnew, hafter⟩ : ∃ new, after o.optimizedTable = some new ∧
      new.Same (o.query.answer w now) := by
    rcases hadd with ⟨hnone, rfl⟩ | ⟨answer, hinsert⟩
    · refine ⟨built, htable.trans hbuilt, append_same hw hgain hsame hmem hadded rfl ?_⟩
      rw [hnone, rows_ofDates_nil hw, List.append_nil]
    · cases hinsert with
      | insert answer hother hold hcolumns hrows =>
        obtain rfl := Option.some.inj (hsource.symm.trans hother)
        obtain rfl := Option.some.inj ((htable.trans hbuilt).symm.trans hold)
        exact ⟨_, Function.update_self .., append_same hw hgain hsame hmem hadded hcolumns hrows⟩
  have hsorted : summary.partitionsAdded.Pairwise (· < ·) := by
    obtain ⟨ds, -, hsorted⟩ := Service.missingDates_eq_ok hdates
    exact hsorted ▸ pairwise_sortedSet ds
  refine ⟨⟨new, hnew, fun reply full hfull => ?_⟩, ⟨hmode, hsorted, hmem⟩, ?_⟩
  · obtain ⟨other, hother, hsame⟩ := executes_fullRefresh hsource hfull
    exact ⟨other, hother, hafter.trans hsame.symm⟩
  · intro clock' s' again after' log' outcome' hagain hkept hrun'
    exact not_insert_of_runs rfl hrun' fun _ _ hreply hdates =>
      dates_eq_nil_of_same hw hagain (hkept.trans hnew) hdate hafter hreply hdates

/-! ## A refresh that succeeds -/

/-- Rows can be added to a table that was built by the plan. -/
theorem exists_insert (hsource : tables o.sourceTable = some now)
    (htable : tables o.optimizedTable = some built)
    (hcolumns : built.columns = (o.query.answer w now).columns) (dates : List Date)
    (answer : QueryResult) :
    ∃ after, w.Executes tables (.insert o.optimizedTable (o.ofDates dates)) (.ok answer) after := by
  have hwidth : ∀ values ∈ built.rows ++ ((o.ofDates dates).answer w now).rows,
      values.length = built.columns.length := by
    intro values hvalues
    rcases List.mem_append.1 hvalues with hvalues | hvalues
    · exact built.width values hvalues
    · have hanswer : ((o.ofDates dates).answer w now).columns = built.columns := by
        rw [hcolumns, columns_query]
        exact (o.answer_query w _ now).1
      exact hanswer ▸ ((o.ofDates dates).answer w now).width values hvalues
  let new : Table := ⟨built.columns, _, hwidth⟩
  have hnew : new.columns = built.columns := rfl
  exact ⟨_, .insert answer hsource htable hnew (List.Perm.refl _)⟩

theorem runs_refresh_of_executes (hready : o.build.isReady = true) (clock : σ → Timestamp) (s : σ)
    {reply answer : QueryResult} (hreply : w.Executes tables
      (.missingPartitions o.sourceTable o.optimizedTable o.partitionColumn) (.ok reply) tables)
    (hdates : Service.missingDates reply = .ok dates) (hne : dates ≠ [])
    (hinsert : w.Executes tables (.insert o.optimizedTable (o.ofDates dates)) (.ok answer) after)
    (count : QueryResult) :
    (o.refresh clock .incremental).Runs w s tables
      [.missingPartitions o.sourceTable o.optimizedTable o.partitionColumn,
        .insert o.optimizedTable (o.ofDates dates), .rowCount o.optimizedTable]
      (.ok (.ok ⟨.incremental, dates, (Service.statsOf count).rowCount⟩,
        { o with build := o.build.markReady (Service.statsOf count) (clock s) })) after := by
  have hadding : o.adding clock dates =
      .ask (.execute (.insert o.optimizedTable (o.ofDates dates))) fun
        | .error e => o.recording clock (.error e)
        | .ok _ => o.sizing clock dates := by
    rw [adding, if_neg (by simpa using hne)]
  have hnext : (Except.ok reply : Except Error QueryResult).bind Service.missingDates = .ok dates :=
    hdates
  rw [refresh_incremental_eq hready]
  refine .execute s hreply ?_
  rw [hnext, comparing, hadding]
  exact .execute s hinsert (.execute s (.rowCount _ count) (.ended _ _))

/-! ## Orders of three days -/

def dayOrders : OptimizedSource :=
  { sourceTable := "orders"
    optimizedTable := "orders_optimized"
    partitionColumn := "day"
    keyMappings := [⟨"_key_buyer_shop", ["buyer", "shop"], ["baskets"]⟩]
    build := { status := .ready } }

/-- A warehouse that does not heed the case of ASCII letters in names. -/
def shopWarehouse : Warehouse := ⟨.calendar, Text.equalsIgnoringCase⟩

def march (day : Nat) (h : isDate 2024 3 day = true) : Date := ⟨2024, 3, day, h⟩

def orderOf (day : Value) (shop buyer : String) : List Value :=
  [day, some (.text shop), some (.text buyer)]

/-- Orders of one day, and one without a day. -/
def firstOrders : Table where
  columns := ["Day", "shop", "buyer"]
  rows := [orderOf (Engine.calendar.date (march 1 rfl)) "a" "x", orderOf none "b" "y"]
  width := by decide

def newOrders : List (List Value) :=
  [orderOf (Engine.calendar.date (march 3 rfl)) "b" "x",
    orderOf (Engine.calendar.date (march 2 rfl)) "a" "y",
    orderOf (Engine.calendar.date (march 3 rfl)) "a" "z"]

def allOrders : Table where
  columns := ["Day", "shop", "buyer"]
  rows := newOrders ++ firstOrders.rows
  width := by decide

/-- The optimized table was built of the first orders, and the source is `source` now. -/
def ordersOf (source : Table) : Tables :=
  Function.update (fun _ => some (dayOrders.query.answer shopWarehouse firstOrders))
    dayOrders.sourceTable (some source)

theorem refresh_incremental_dayOrders : ∃ answer log o' after,
    (dayOrders.refresh (fun s : Timestamp => s) .incremental).Runs shopWarehouse ⟨0, 0⟩
      (ordersOf allOrders) log
      (.ok (.ok ⟨.incremental, [march 2 rfl, march 3 rfl], (Service.statsOf answer).rowCount⟩, o'))
      after ∧
    ∃ built, after dayOrders.optimizedTable = some built ∧
      ∀ reply full, shopWarehouse.Executes (ordersOf allOrders) dayOrders.fullRefresh (.ok reply) full →
        ∃ other, full dayOrders.optimizedTable = some other ∧ built.Same other := by
  have hsource : ordersOf allOrders dayOrders.sourceTable = some allOrders := Function.update_self ..
  have htable (source : Table) : ordersOf source dayOrders.optimizedTable =
      some (dayOrders.query.answer shopWarehouse firstOrders) :=
    Function.update_of_ne (by decide) ..
  have hbuild : shopWarehouse.Executes (ordersOf firstOrders) dayOrders.fullRefresh (.ok {})
      (Function.update (ordersOf firstOrders) dayOrders.optimizedTable
        (some (dayOrders.query.answer shopWarehouse firstOrders))) :=
    .createTable {} (Function.update_self ..) ⟨rfl, List.Perm.refl _⟩
  have hcolumn : shopWarehouse.column allOrders dayOrders.partitionColumn =
      [Engine.calendar.date (march 3 rfl), Engine.calendar.date (march 2 rfl),
        Engine.calendar.date (march 3 rfl), Engine.calendar.date (march 1 rfl), none] := by
    decide +kernel
  have hdate : shopWarehouse.IsDateColumn allOrders dayOrders.partitionColumn := by
    refine ⟨⟨"Day", by decide, by decide⟩, ?_⟩
    rw [hcolumn]
    simp only [List.forall_mem_cons]
    exact ⟨.inr ⟨_, by decide, rfl⟩, .inr ⟨_, by decide, rfl⟩, .inr ⟨_, by decide, rfl⟩,
      .inr ⟨_, by decide, rfl⟩, .inl trivial, fun _ h => by cases h⟩
  have hgain : shopWarehouse.Gains dayOrders.partitionColumn firstOrders allOrders newOrders :=
    { columns := rfl
      rows := List.perm_append_comm
      ne_null := by decide +kernel
      new := by decide +kernel }
  -- the warehouse tells the days in the order of the rows
  let reply : QueryResult :=
    ⟨["partition_date"], [[.text "2024-03-03"], [.text "2024-03-02"], [.text "2024-03-03"]]⟩
  have htexts : reply.texts "partition_date" = shopWarehouse.missingTexts allOrders
      (dayOrders.query.answer shopWarehouse firstOrders) dayOrders.partitionColumn := by
    decide +kernel
  have hreply : shopWarehouse.Executes (ordersOf allOrders) (.missingPartitions dayOrders.sourceTable
      dayOrders.optimizedTable dayOrders.partitionColumn) (.ok reply) (ordersOf allOrders) :=
    .missingPartitions hsource (htable _) fun text => by rw [htexts]
  have hdates : Service.missingDates reply = .ok [march 2 rfl, march 3 rfl] := by decide +kernel
  obtain ⟨after, hinsert⟩ := exists_insert (w := shopWarehouse) hsource (htable _)
    (by rw [columns_query, columns_query]; rfl) [march 2 rfl, march 3 rfl] {}
  have hruns := runs_refresh_of_executes (o := dayOrders) rfl (fun s : Timestamp => s) ⟨0, 0⟩ hreply
    hdates (List.cons_ne_nil _ _) hinsert {}
  exact ⟨_, _, _, after, hruns, (refresh_incremental_of_gains Engine.dated_calendar rfl
    (Function.update_self ..) hbuild (by rw [htable, Function.update_self]) hsource hdate hgain
    hruns).1⟩

end OptimizedSource

end MetricLayer
