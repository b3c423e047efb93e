import Mathlib.Data.List.Sort
import MetricLayer.Proofs.FirstOccurrences
import MetricLayer.Proofs.Registry.Acceptance
import MetricLayer.Proofs.RowExpression
import MetricLayer.Proofs.Service.Refreshes
import MetricLayer.Service.Columns

/-!
# Checks of the columns that a schema names

`validateColumns` looks for the columns that a schema names among those of its table and
lists the ones it misses, each once, in the order in which they are named first
(`lacks_iff`). For a calculated dimension it looks at the list of columns that is stored
with the expression, not at the expression. So a check answers for the columns that
expressions refer to just where the stored lists add the same missing columns to those of
other entities (`checksColumns_iff`). They do if they are what the expressions compile to,
and operations keep them so (`Registry.RecordsColumns.foldl_run`); but a document need not
have them (`exists_unchecked_column`).
-/

namespace MetricLayer

/-! ## Missing columns -/

/-- The columns that are wanted of a table and that it does not have, each once, in the
order in which they are wanted. -/
structure Lacks (columns : TableColumns) (wanted missing : List String) : Prop where
  mem_iff : ∀ name, name ∈ missing ↔ name ∈ wanted ∧ columns.has name = false
  nodup : missing.Nodup
  ordered : missing.Pairwise fun x y => wanted.idxOf x < wanted.idxOf y

def TableColumns.missing (columns : TableColumns) (wanted : List String) : List String :=
  (wanted.filter fun name => !columns.has name).eraseDups

variable {columns : TableColumns} {wanted names : List String}

theorem lacks_missing (columns : TableColumns) (wanted : List String) :
    Lacks columns wanted (columns.missing wanted) := by
  have hmem (name : String) : name ∈ columns.missing wanted ↔
      name ∈ wanted ∧ columns.has name = false := by
    rw [TableColumns.missing, List.mem_eraseDups, List.mem_filter, Bool.not_eq_true']
  have hordered : (columns.missing wanted).Pairwise fun x y => wanted.idxOf x < wanted.idxOf y := by
    have hlacks {name : String} (h : name ∈ columns.missing wanted) :
        (!columns.has name) = true := by rw [((hmem name).1 h).2, Bool.not_false]
    refine (pairwise_idxOf_eraseDups _).imp_of_mem fun hx hy hlt => ?_
    exact idxOf_lt_of_filter (hlacks hx) (hlacks hy) hlt
  refine ⟨hmem, hordered.imp fun hlt heq => ?_, hordered⟩
  exact absurd hlt (heq ▸ lt_irrefl _)

theorem lacks_iff : Lacks columns wanted names ↔ names = columns.missing wanted := by
  refine ⟨fun h => ?_, fun h => h ▸ lacks_missing columns wanted⟩
  -- Both lists have the same members in an order that only one list has.
  have : Std.Irrefl fun x y : String => wanted.idxOf x < wanted.idxOf y := ⟨fun _ => lt_irrefl _⟩
  have : Std.Antisymm fun x y : String => wanted.idxOf x < wanted.idxOf y :=
    ⟨fun _ _ hxy hyx => absurd hxy hyx.asymm⟩
  refine h.ordered.eq_of_mem_iff (lacks_missing columns wanted).ordered fun name => ?_
  rw [h.mem_iff, (lacks_missing columns wanted).mem_iff]

theorem missing_eq_nil_iff :
    columns.missing wanted = [] ↔ ∀ name ∈ wanted, columns.has name = true := by
  rw [List.eq_nil_iff_forall_not_mem]
  simp only [(lacks_missing columns wanted).mem_iff, not_and, Bool.not_eq_false]

theorem missing_append (xs ys : List String) : columns.missing (xs ++ ys) =
    columns.missing xs ++ columns.missing (ys.filter fun name => !xs.contains name) := by
  rw [TableColumns.missing, List.filter_append, List.eraseDups_append]
  refine congrArg₂ _ rfl (congrArg _ ?_)
  rw [List.removeAll, List.filter_filter, List.filter_filter]
  refine List.filter_congr fun name _ => ?_
  cases hname : columns.has name <;> simp [hname]

/-- What is to be expected of a check: all columns that are wanted are there, or those that
are not are listed. -/
structure ChecksColumns (columns : TableColumns) (wanted : List String)
    (result : Except Error Unit) : Prop where
  exist : result = .ok () → ∀ name ∈ wanted, columns.has name = true
  lists : ∀ names, result = .error (.unknownReferences names) → Lacks columns wanted names

/-! ## The columns of a schema -/

/-- The columns that the expression refers to, if it compiles. -/
def CalculatedDimension.referredColumns (d : Sql.Dialect) (dim : CalculatedDimension) :
    List String :=
  match RowExpression.compile d dim.sqlExpression, extractReferences dim.sqlExpression with
  | .ok _, .ok references => references.map (·.name)
  | _, _ => []

theorem CalculatedDimension.eraseDups_referredColumns {d : Sql.Dialect}
    {dim : CalculatedDimension} {compiled : RowExpression.Compiled}
    (h : RowExpression.compile d dim.sqlExpression = .ok compiled) :
    (dim.referredColumns d).eraseDups = compiled.dependsOn := by
  obtain ⟨references, haccepts⟩ := RowExpression.exists_accepts h
  rw [referredColumns, h, haccepts.extracted, haccepts.dependsOn_eq, uniqueNames]

namespace Registry

variable {r : Registry} {d : Sql.Dialect}

/-- The columns of dates, base metrics and dimensions. -/
def plainColumns (r : Registry) : List String :=
  r.dateColumn :: (r.baseMetrics.flatMap (·.sourceColumns) ++ r.dimensions.map (·.columnName))

/-- These, and the columns that expressions refer to. -/
def wantedColumns (r : Registry) (d : Sql.Dialect) : List String :=
  r.plainColumns ++ r.calculatedDimensions.flatMap (·.referredColumns d)

/-- The stored lists are what the expressions refer to, each column once. -/
def RecordsColumns (r : Registry) (d : Sql.Dialect) : Prop :=
  ∀ dim ∈ r.calculatedDimensions, dim.dependsOn = (dim.referredColumns d).eraseDups

/-- Of the columns that calculated dimensions name, the ones that are missing and that
nothing else names are the same in the stored lists and in the expressions. -/
def AddsAlike (r : Registry) (d : Sql.Dialect) (columns : TableColumns) : Prop :=
  let added (names : List String) := columns.missing (names.filter (!r.plainColumns.contains ·))
  added (r.calculatedDimensions.flatMap (·.dependsOn)) =
    added (r.calculatedDimensions.flatMap (·.referredColumns d))

theorem namedColumns_eq (r : Registry) :
    r.namedColumns = r.plainColumns ++ r.calculatedDimensions.flatMap (·.dependsOn) := by
  rw [namedColumns, plainColumns, List.cons_append]

theorem missing_namedColumns_iff :
    columns.missing r.namedColumns = columns.missing (r.wantedColumns d) ↔
      r.AddsAlike d columns := by
  rw [namedColumns_eq, wantedColumns, missing_append, missing_append, List.append_right_inj]
  rfl

theorem RecordsColumns.addsAlike (h : r.RecordsColumns d) (columns : TableColumns) :
    r.AddsAlike d columns := by
  have halike : (r.calculatedDimensions.flatMap (·.dependsOn)).eraseDups =
      (r.calculatedDimensions.flatMap (·.referredColumns d)).eraseDups := by
    refine eraseDups_flatMap_congr fun dim hdim => ?_
    rw [h dim hdim, eraseDups_eraseDups]
  simp only [AddsAlike, TableColumns.missing, eraseDups_filter, halike]

/-! ## What operations record -/

theorem dependsOn_revalidateDimension {dim : CalculatedDimension}
    (h : dim.dependsOn = (dim.referredColumns d).eraseDups) :
    (revalidateDimension d dim).1.dependsOn =
      ((revalidateDimension d dim).1.referredColumns d).eraseDups := by
  rw [revalidateDimension]
  cases hcompile : RowExpression.compile d dim.sqlExpression with
  | error e => exact h
  | ok c => exact (CalculatedDimension.eraseDups_referredColumns hcompile).symm

theorem recordsColumns_addCalculatedDimension (h : r.RecordsColumns d) (dim : CalculatedDimension) :
    (r.addCalculatedDimension d dim).2.RecordsColumns d := by
  refine edit_cases (P := fun r' => r'.RecordsColumns d) h fun a r' hr' => ?_
  simp only [bind, Except.bind_eq_ok] at hr'
  obtain ⟨_, -, _, -, c, hcompile, hr'⟩ := hr'
  obtain ⟨-, rfl⟩ := Prod.mk.inj (Except.ok.inj hr')
  intro dim' hdim'
  rcases List.mem_append.1 hdim' with hdim' | hdim'
  · exact h dim' hdim'
  · rw [List.mem_singleton.1 hdim']
    exact (CalculatedDimension.eraseDups_referredColumns hcompile).symm

/-- An operation keeps the lists as the expressions have them. -/
theorem RecordsColumns.run (h : r.RecordsColumns d) (op : Operation) :
    (op.run d r).RecordsColumns d := by
  have hleaves := op.leaves_run d r
  cases op with
  | addCalculatedDimension dim => exact recordsColumns_addCalculatedDimension h dim
  | validateAll =>
    intro dim hdim
    have hrevalidated := hdim
    rw [Operation.run, calculatedDimensions_validateAll] at hrevalidated
    obtain ⟨old, hold, rfl⟩ := List.mem_map.1 hrevalidated
    exact dependsOn_revalidateDimension (h old hold)
  | removeDimension id =>
    generalize Operation.run d r _ = r' at hleaves
    cases hleaves with
    | same | recompiled => exact h
    | removedDimension id => exact fun dim hdim => h dim (List.mem_of_mem_filter hdim)
  | addBaseMetric | updateBaseMetric | addCalculatedMetric | updateCalculatedMetric
  | removeMetric | addDimension | cascade =>
    generalize Operation.run d r _ = r' at hleaves
    cases hleaves <;> exact h

theorem RecordsColumns.foldl_run (h : r.RecordsColumns d) (ops : List Operation) :
    (ops.foldl (Operation.run d) r).RecordsColumns d := by
  induction ops generalizing r with
  | nil => exact h
  | cons op rest ih => exact ih (h.run op)

end Registry

namespace Service

open Work (Answers)

variable {service : Service} {table : String} {answers : Answers} {s : State} {r : Registry}

/-- A check of some columns is one of others just where the same ones are missing. -/
theorem checksColumns_checkMissing (hwarn : service.config.validation.warnOnly = false) :
    ChecksColumns columns wanted (service.checkMissing (columns.missing names)) ↔
      columns.missing names = columns.missing wanted := by
  rw [checkMissing, hwarn, Bool.or_false]
  cases hnames : columns.missing names with
  | nil =>
    rw [(eq_comm.trans missing_eq_nil_iff : [] = columns.missing wanted ↔ _)]
    exact ⟨fun h => h.exist rfl, fun h => ⟨fun _ => h, nofun⟩⟩
  | cons name rest =>
    rw [← lacks_iff]
    refine ⟨fun h => h.lists _ rfl, fun h => ⟨nofun, ?_⟩⟩
    rintro _ ⟨⟩
    exact h

theorem checkMissing_cases (missing : List String) :
    service.checkMissing missing = .ok () ∨
      ∃ names, service.checkMissing missing = .error (.unknownReferences names) := by
  rw [checkMissing]
  split
  · exact .inl rfl
  · exact .inr ⟨missing, rfl⟩

/-- The columns of a table, kept ones if there are any, else as the warehouse answers. -/
def columnsOf (answers : Answers) (s : State) (table : String) : Except Error TableColumns :=
  match s.columns.get? table with
  | some columns => .ok columns
  | none => answers.reply (.columns table)

theorem respond_ensureColumns_bind (answers : Answers) (table : String)
    (f : TableColumns → Except Error Unit) (s : State) :
    ∃ s', ((ensureColumns table).bind fun columns => Work.done (f columns)).respond answers s =
      (.ended ((columnsOf answers s table).bind f), s') := by
  have hensure : (ensureColumns table).bind (fun columns => Work.done (f columns)) =
      .read fun s => (match s.columns.get? table with
        | some columns => Work.done (.ok columns)
        | none => (Work.fetchColumns table).bind fun columns =>
          (Work.change fun s : State =>
            { s with columns := s.columns.insert table columns }).bind fun _ =>
              .done (.ok columns)).bind fun columns => .done (f columns) := rfl
  rw [columnsOf, hensure, Work.respond, Work.advance]
  cases s.columns.get? table with
  | some columns => exact ⟨s, rfl⟩
  | none =>
    cases hreply : answers.reply (.columns table) with
    | error e =>
      refine ⟨s, ?_⟩
      change (Work.Pause.resume answers (.asking _ _ []) s) = _
      rw [Work.Pause.resume, hreply]
      rfl
    | ok columns =>
      refine ⟨{ s with columns := s.columns.insert table columns }, ?_⟩
      change (Work.Pause.resume answers (.asking _ _ []) s) = _
      rw [Work.Pause.resume, hreply]
      rfl

/-- **Checks of columns**: when the columns of its table are known, a check of a schema ends
and answers for the columns that the schema names and that its expressions refer to, just
where the stored lists of calculated dimensions add the same ones that are missing. They
do where they are what the expressions refer to. -/
theorem checksColumns_iff (hr : ((loadRegistry table).run s).1 = .ok r)
    (hcolumns : columnsOf answers s r.sourceTable = .ok columns)
    (hwarn : service.config.validation.warnOnly = false) :
    ∃ result s', (service.validateColumns table).respond answers s = (.ended result, s') ∧
      (result = .ok () ∨ ∃ names, result = .error (.unknownReferences names)) ∧
      (ChecksColumns columns (r.wantedColumns service.dialect) result ↔
        r.AddsAlike service.dialect columns) ∧
      (r.RecordsColumns service.dialect →
        ChecksColumns columns (r.wantedColumns service.dialect) result) := by
  have hvalidate : service.validateColumns table = (Work.act (loadRegistry table)).bind fun r =>
      (ensureColumns r.sourceTable).bind fun columns =>
        Work.done (service.checkMissing (columns.missing r.namedColumns)) := rfl
  obtain ⟨s', hrespond⟩ := respond_ensureColumns_bind answers r.sourceTable
    (fun columns => service.checkMissing (columns.missing r.namedColumns)) s
  rw [hcolumns] at hrespond
  have hiff : ChecksColumns columns (r.wantedColumns service.dialect)
      (service.checkMissing (columns.missing r.namedColumns)) ↔
        r.AddsAlike service.dialect columns :=
    (checksColumns_checkMissing hwarn).trans Registry.missing_namedColumns_iff
  refine ⟨_, s', ?_, checkMissing_cases _, hiff, fun h => hiff.2 (h.addsAlike columns)⟩
  rw [hvalidate, respond_loadRegistry_bind, hr]
  exact hrespond

/-! ## An expression over a column that is not there -/

/-- A schema of visits with a calculated dimension over the page that led to them. -/
def visits (dependsOn : List String) : SchemaDocument where
  table := "visits"
  sourceTable := "raw.visits"
  baseMetrics := [{ id := "clicks", sourceColumns := ["clicks"], aggregation := .sum }]
  dimensions := [{ id := "country", columnName := "country" }]
  calculatedDimensions :=
    [{ id := "origin", sqlExpression := "COALESCE(UPPER({referrer}), {country})", dependsOn }]

def visitsState (dependsOn : List String) : State where
  store := ⟨[("visits", { schema := some (.saved (visits dependsOn)) })]⟩
  now := ⟨0, 0⟩

/-- Every table has these columns. -/
def withColumns (names : List String) : Answers where
  reply
    | .execute _ => .ok {}
    | .dryRun _ => .ok ()
    | .columns _ => .ok ⟨names⟩
  counts queries := .ok (queries.map fun _ => 0)

/-- With the columns that its expression was compiled to, a schema is checked in full. -/
theorem checksColumns_visits :
    let r : Registry := ⟨visits ["referrer", "country"]⟩
    ∃ s', (({} : Service).validateColumns "visits").respond (withColumns ["DATE", "clicks"])
        (visitsState ["referrer", "country"]) =
          (.ended (.error (.unknownReferences ["country", "referrer"])), s') ∧
      ChecksColumns ⟨["DATE", "clicks"]⟩ (r.wantedColumns .bigQuery)
        (.error (.unknownReferences ["country", "referrer"])) := by
  intro r
  have hrecords : r.RecordsColumns .bigQuery := by
    intro dim hdim
    rw [List.mem_singleton.1 hdim]
    decide +kernel
  have hr : ((loadRegistry "visits").run (visitsState ["referrer", "country"])).1 = .ok r := rfl
  have hcolumns : columnsOf (withColumns ["DATE", "clicks"]) (visitsState ["referrer", "country"])
      r.sourceTable = .ok ⟨["DATE", "clicks"]⟩ := rfl
  have hwarn : ({} : Service).config.validation.warnOnly = false := rfl
  obtain ⟨result, s', hrespond, -, -, hchecks⟩ := checksColumns_iff hr hcolumns hwarn
  obtain ⟨s'', hrun⟩ : ∃ s'', (({} : Service).validateColumns "visits").respond
      (withColumns ["DATE", "clicks"]) (visitsState ["referrer", "country"]) =
        (.ended (.error (.unknownReferences ["country", "referrer"])), s'') := ⟨_, rfl⟩
  cases hrun.symm.trans hrespond
  exact ⟨s', hrun, hchecks hrecords⟩

/-- A document need not have the columns of its expressions, and then a check misses one
that is not there. -/
theorem exists_unchecked_column :
    let r : Registry := ⟨visits []⟩
    Registry.ofDocument (visits []) = .ok r ∧
      ∃ s', (({} : Service).validateColumns "visits").respond
          (withColumns ["date", "clicks", "country"]) (visitsState []) = (.ended (.ok ()), s') ∧
        "referrer" ∈ r.wantedColumns .bigQuery ∧
        TableColumns.has ⟨["date", "clicks", "country"]⟩ "referrer" = false := by
  refine ⟨rfl, _, rfl, by decide +kernel, by decide⟩

end Service

end MetricLayer
