import MetricLayer.Proofs.Optimized.KeyNames
import MetricLayer.Proofs.Registry.Editing
import MetricLayer.Proofs.Rollup.Contents
import MetricLayer.Proofs.Sql.Columns
import MetricLayer.Proofs.Sql.Keys
import MetricLayer.Proofs.Sql.Written

/-!
# Rollups from optimized sources

An optimized table has the rows of its source with a key column more for each
mapping (`OptimizedSource.row`). The key of a mapping tells the same rows apart as
the key over the columns that a metric declares, in another order and another case
(`OptimizedSource.identifies_keyColumn`), so a rollup that is built from the
optimized table is the one that is built from the source
(`RollupSource.grouped_query_optimized`).
-/

namespace MetricLayer

open Sql (Engine Expr Row Scope Select SelectItem Value)

/-- The form of a name in which columns are compared. -/
def columnKey (name : String) : String := Text.lowerCase (String.ofList (Text.trim name.toList))

theorem normalizeColumns_eq (columns : List String) :
    normalizeColumns columns = sortedSet (columns.map columnKey) := rfl

/-- Whether `name` is one of `columns`, in any case and with blanks around it. -/
def IsAmong (columns : List String) (name : String) : Prop :=
  columnKey name ∈ columns.map columnKey

instance (columns : List String) (name : String) : Decidable (IsAmong columns name) :=
  inferInstanceAs (Decidable (columnKey name ∈ columns.map columnKey))

/-- The row does not tell the names of a column apart. -/
def Sql.Row.IgnoresCase (row : Row) (columns : List String) : Prop :=
  ∀ name, IsAmong columns name → row (columnKey name) = row name

theorem Sql.Row.ignoresCase_of_columnKey {columns : List String}
    (h : ∀ c ∈ columns, columnKey (columnKey c) = columnKey c) (f : String → Value) :
    Row.IgnoresCase (fun name => f (columnKey name)) columns := by
  intro name hname
  obtain ⟨c, hc, hkey⟩ := List.mem_map.1 hname
  have hfixed : columnKey (columnKey name) = columnKey name := by rw [← hkey, h c hc]
  exact congrArg f hfixed

namespace OptimizedSource

/-- A row of the optimized table: the row of the source, and in each key column the
key of the columns that it stands for. -/
def row (o : OptimizedSource) (engine : Engine) (row : Row) : Row := fun name =>
  match o.keyMappings.find? fun m => columnKey m.keyColumnName == columnKey name with
  | some m => (Expr.compositeKey m.sourceColumns).eval engine row.scope
  | none => row name

/-- The key columns have names of their own, that no column of the source has. -/
structure NamesKeysApart (o : OptimizedSource) (columns : List String) : Prop where
  nodup : (o.keyMappings.map fun m => columnKey m.keyColumnName).Nodup
  disjoint : ∀ m ∈ o.keyMappings, ¬ IsAmong columns m.keyColumnName

variable {o : OptimizedSource} {engine : Engine} {columns : List String} {table : List Row}
  {m : KeyMapping} {text : Sql.Datum → String}

theorem agreesOn_row (h : o.NamesKeysApart columns) (row : Row) :
    (o.row engine row).AgreesOn (IsAmong columns) row := by
  intro name hname
  have hnone :
      o.keyMappings.find? (fun m => columnKey m.keyColumnName == columnKey name) = none := by
    rw [List.find?_eq_none]
    intro m hm heq
    refine h.disjoint m hm ?_
    rwa [IsAmong, eq_of_beq heq]
  rw [OptimizedSource.row, hnone]

theorem row_keyColumnName (h : o.NamesKeysApart columns) (hm : m ∈ o.keyMappings) (row : Row) :
    o.row engine row m.keyColumnName =
      (Expr.compositeKey m.sourceColumns).eval engine row.scope := by
  have hsome : o.keyMappings.find? (fun other =>
      columnKey other.keyColumnName == columnKey m.keyColumnName) = some m :=
    (find?_eq_some_iff_of_nodup h.nodup).2 ⟨hm, rfl⟩
  rw [OptimizedSource.row, hsome]

/-! ## Expressions over the optimized table -/

/-- `e'` is worth on optimized rows what `e` is on the rows of the source. -/
def Serves (o : OptimizedSource) (engine : Engine) (table : List Row) (e' e : Expr) : Prop :=
  ∀ group ⊆ table,
    e'.eval engine (.ofGroup (group.map (o.row engine))) = e.eval engine (.ofGroup group)

/-- `e'` tells optimized rows apart where `e` tells the rows of the source apart, and
it is null where `e` is. -/
structure Identifies (o : OptimizedSource) (engine : Engine) (table : List Row) (e' e : Expr) :
    Prop where
  null : ∀ x ∈ table,
    e'.eval engine (o.row engine x).scope = none ↔ e.eval engine x.scope = none
  eq : ∀ x ∈ table, ∀ y ∈ table,
    e'.eval engine (o.row engine x).scope = e'.eval engine (o.row engine y).scope ↔
      e.eval engine x.scope = e.eval engine y.scope

theorem serves_self (h : o.NamesKeysApart columns) {e : Expr}
    (he : ∀ node ∈ e.nodes, node.ReadsOnly engine (IsAmong columns)) :
    o.Serves engine table e e := fun _ _ =>
  Expr.eval_congr e he (Scope.agreesOn_ofGroup fun row _ => agreesOn_row h row)

theorem Identifies.serves {e' e : Expr} (h : o.Identifies engine table e' e) :
    o.Serves engine table (.aggregate .countDistinct e') (.aggregate .countDistinct e) := by
  intro group hgroup
  rw [Expr.eval, Expr.eval, Scope.ofGroup, Scope.ofGroup, List.map_map]
  exact Aggregation.eval_countDistinct_congr (fun x hx => h.null x (hgroup hx))
    fun x hx y hy => h.eq x (hgroup hx) y (hgroup hy)

/-- Rows for which a condition does not hold are null in both. -/
theorem Identifies.cases (hkeys : o.NamesKeysApart columns) {e' e condition : Expr}
    (h : o.Identifies engine table e' e) (hnull : engine.literal .null = none)
    (hcondition : ∀ node ∈ condition.nodes, node.ReadsOnly engine (IsAmong columns)) :
    o.Identifies engine table (.cases [(condition, e')] (.literal .null))
      (.cases [(condition, e)] (.literal .null)) := by
  have hsame (x : Row) :
      condition.eval engine (o.row engine x).scope = condition.eval engine x.scope :=
    Expr.eval_congr condition hcondition (agreesOn_row hkeys x).scope
  have hvalue (e : Expr) (s : Scope) :
      (Expr.cases [(condition, e)] (.literal .null)).eval engine s =
        if (condition.eval engine s).holds then e.eval engine s else none := by
    rw [Expr.eval, Expr.evalBranches, Expr.evalBranches, Expr.eval, hnull]
    split <;> rfl
  constructor
  · intro x hx
    rw [hvalue, hvalue, hsame]
    split
    · exact h.null x hx
    · rfl
  · intro x hx y hy
    rw [hvalue, hvalue, hvalue, hvalue, hsame, hsame]
    split <;> split
    · exact h.eq x hx y hy
    · exact h.null x hx
    · rw [eq_comm, h.null y hy, eq_comm]
    · rfl

/-- The key of a mapping identifies what the declared columns do. -/
theorem identifies_keyColumn (hkeys : o.NamesKeysApart columns) (htext : engine.Textual text)
    (hrows : ∀ row ∈ table, row.IgnoresCase columns) (hm : m ∈ o.keyMappings)
    {declared : List String} (hcolumns : m.sourceColumns = normalizeColumns declared)
    (hne : declared ≠ []) (hamong : ∀ c ∈ declared, IsAmong columns c) :
    o.Identifies engine table (.ofColumn m.keyColumnName) (.compositeKey declared) := by
  have hnormal : m.sourceColumns ≠ [] := hcolumns ▸ normalizeColumns_ne_nil hne
  have hkey (x : Row) : (Expr.ofColumn m.keyColumnName).eval engine (o.row engine x).scope =
      (Expr.compositeKey m.sourceColumns).eval engine x.scope := row_keyColumnName hkeys hm x
  constructor
  · intro x hx
    rw [hkey, Expr.eval_compositeKey htext _ hnormal, Expr.eval_compositeKey htext _ hne]
    exact iff_of_false (Option.some_ne_none _) (Option.some_ne_none _)
  · intro x hx y hy
    rw [hkey, hkey, Expr.eval_compositeKey_congr_iff htext _ _ hnormal,
      Expr.eval_compositeKey_congr_iff htext _ _ hne, hcolumns]
    simp only [normalizeColumns_eq, mem_sortedSet, List.forall_mem_map]
    refine forall₂_congr fun c hc => ?_
    have hx : x.scope.row (columnKey c) = x.scope.row c := hrows x hx c (hamong c hc)
    have hy : y.scope.row (columnKey c) = y.scope.row c := hrows y hy c (hamong c hc)
    rw [hx, hy]

end OptimizedSource

/-! ## Rollups -/

/-- What can be put beside each element can be put beside the list. -/
theorem exists_forall₂ {α β γ : Type} {R : α → β → Prop} {R' : α → γ → Prop} {S : γ → β → Prop}
    {xs : List α} {ys : List β} (h : List.Forall₂ R xs ys)
    (hstep : ∀ x ∈ xs, ∀ y ∈ ys, R x y → ∃ z, R' x z ∧ S z y) :
    ∃ zs, List.Forall₂ R' xs zs ∧ List.Forall₂ S zs ys := by
  induction h with
  | nil => exact ⟨[], .nil, .nil⟩
  | cons hxy _ ih =>
    obtain ⟨z, hz, hzy⟩ := hstep _ List.mem_cons_self _ List.mem_cons_self hxy
    obtain ⟨zs, hzs, hzys⟩ := ih fun x hx y hy =>
      hstep x (List.mem_cons_of_mem _ hx) y (List.mem_cons_of_mem _ hy)
    exact ⟨z :: zs, .cons hz hzs, .cons hzy hzys⟩

/-- Only distinct values of several columns are counted. -/
theorem BaseMetric.isDistinct_of_validate {m : BaseMetric} (h : m.validate = .ok ())
    (hm : m.isComposite = true) : m.aggregation.isDistinct = true := by
  rw [validate] at h
  split at h <;> [cases h; skip]
  split at h <;> [cases h; skip]
  split at h <;> [cases h; skip]
  rename_i hdistinct
  simpa [hm] using hdistinct

theorem Registry.validate_of_ofDocument {document : SchemaDocument} {r : Registry}
    (h : ofDocument document = .ok r) {m : BaseMetric} (hm : m ∈ r.baseMetrics) :
    m.validate = .ok () := by
  simp only [ofDocument, bind, Except.bind_eq_ok, checkMetrics] at h
  obtain ⟨_, ⟨ids, hbase, -⟩, _, -, h⟩ := h
  obtain rfl := Except.ok.inj h
  exact Except.mapError_eq_ok.1 ((foldlM_claimId hbase).1 m hm)

namespace RollupSource

variable {r : Registry} {d : Sql.Dialect} {o : OptimizedSource} {engine : Engine}
  {columns : List String} {table : List Row} {text : Sql.Datum → String}

/-- A metric is counted over its own input or over the key column of its columns. -/
theorem metricInput_eq_or (ready : o.build.isReady = true) (base : BaseMetric) :
    (ofRegistry r d (some o)).metricInput base = base.input ∨
      base.isComposite = true ∧ ∃ m ∈ o.keyMappings,
        m.sourceColumns = normalizeColumns base.sourceColumns ∧
        (ofRegistry r d (some o)).metricInput base = .ofColumn m.keyColumnName := by
  have hoptimized : (ofRegistry r d (some o)).optimized = some o := by
    rw [ofRegistry, Option.filter_some, if_pos ready]
  rw [metricInput]
  cases hkey : (ofRegistry r d (some o)).keyColumn? base with
  | none => exact .inl rfl
  | some name =>
    rw [keyColumn?] at hkey
    split at hkey <;> [skip; cases hkey]
    rename_i hcomposite
    rw [hoptimized, Option.bind_some, Option.map_eq_some_iff] at hkey
    obtain ⟨m, hm, rfl⟩ := hkey
    exact .inr ⟨hcomposite, m, List.mem_of_find?_eq_some hm, by simpa using List.find?_some hm, rfl⟩

theorem metricItems_of_baseMetric? {b : RollupSource} (rollupId : String) {m : RollupMetric}
    {base : BaseMetric} (hbase : b.registry.baseMetric? m.metricId = some base) :
    (m.includeConditional = false → b.metricItems rollupId m =
      .ok [⟨.aggregate base.aggregation (b.metricInput base), some m.metricId⟩]) ∧
    (∀ flag, m.includeConditional = true → m.flag? = some flag → b.metricItems rollupId m =
      .ok [⟨.aggregate base.aggregation (b.metricInput base), some m.metricId⟩,
        ⟨flaggedAggregate base.aggregation (b.metricInput base) flag,
          some (flaggedColumn m.metricId)⟩]) := by
  have hid := baseMetric?_id hbase
  constructor
  · intro hplain
    simp [metricItems, hbase, hid, hplain]
  · intro flag hconditional hflag
    simp [metricItems, hbase, hid, hconditional, hflag]

/-- What is counted over the optimized table is worth what is counted over the source,
flagged or not. -/
theorem serves_metricInput {document : SchemaDocument} (hr : Registry.ofDocument document = .ok r)
    (ready : o.build.isReady = true) (hkeys : o.NamesKeysApart columns)
    (htext : engine.Textual text) (hrows : ∀ row ∈ table, row.IgnoresCase columns)
    {base : BaseMetric} (hbase : base ∈ r.baseMetrics)
    (hexact : base.aggregation ≠ .approxCountDistinct)
    (hreads : ∀ node ∈ base.expr.nodes, node.ReadsOnly engine (IsAmong columns)) :
    o.Serves engine table
      (.aggregate base.aggregation ((ofRegistry r d (some o)).metricInput base)) base.expr ∧
    ∀ flag, (∀ node ∈ (flaggedAggregate base.aggregation base.input flag).nodes,
      node.ReadsOnly engine (IsAmong columns)) →
      o.Serves engine table
        (flaggedAggregate base.aggregation ((ofRegistry r d (some o)).metricInput base) flag)
        (flaggedAggregate base.aggregation base.input flag) := by
  rcases metricInput_eq_or (r := r) (d := d) ready base with
    hinput | ⟨hcomposite, m, hm, hcolumns, hinput⟩
  · rw [hinput]
    exact ⟨OptimizedSource.serves_self hkeys hreads,
      fun flag hflag => OptimizedSource.serves_self hkeys hflag⟩
  · have hcount : base.aggregation = .countDistinct := by
      have hdistinct := BaseMetric.isDistinct_of_validate (Registry.validate_of_ofDocument hr hbase)
        hcomposite
      cases hagg : base.aggregation <;> simp_all [Aggregation.isDistinct]
    have hne : base.sourceColumns ≠ [] := by
      intro hnil
      rw [BaseMetric.isComposite, hnil] at hcomposite
      cases hcomposite
    have hkey : base.input = .compositeKey base.sourceColumns := if_pos hcomposite
    have hamong : ∀ c ∈ base.sourceColumns, IsAmong columns c := fun c hc =>
      hreads (.ofColumn c) (List.mem_cons_of_mem _
        (hkey ▸ Sql.ofColumn_mem_nodes_compositeKey hc))
    have hidentifies : o.Identifies engine table (.ofColumn m.keyColumnName) base.input :=
      hkey ▸ OptimizedSource.identifies_keyColumn hkeys htext hrows hm hcolumns hne hamong
    rw [hinput, BaseMetric.expr, hcount]
    refine ⟨hidentifies.serves, fun flag hflag => ?_⟩
    refine (hidentifies.cases hkeys htext.null fun node hnode => hflag node ?_).serves
    change node ∈ (Expr.aggregate .countDistinct (.cases [(_, base.input)] (.literal .null))).nodes
    rw [Expr.nodes, Expr.nodes, Expr.branchNodes]
    simp [hnode]

/-- The columns of a metric, counted over the optimized table. -/
theorem exists_metricItems {document : SchemaDocument} (hr : Registry.ofDocument document = .ok r)
    (ready : o.build.isReady = true) (hkeys : o.NamesKeysApart columns)
    (htext : engine.Textual text) (hrows : ∀ row ∈ table, row.IgnoresCase columns)
    {rollupId : String} {m : RollupMetric}
    (hexact : ∀ base, r.baseMetric? m.metricId = some base →
      base.aggregation ≠ .approxCountDistinct) {items : List SelectItem}
    (h : (ofRegistry r d none).metricItems rollupId m = .ok items)
    (hreads : ∀ item ∈ items, ∀ node ∈ item.expr.nodes,
      node.ReadsOnly engine (IsAmong columns)) :
    ∃ items', (ofRegistry r d (some o)).metricItems rollupId m = .ok items' ∧
      List.Forall₂ (fun item' item => item'.label = item.label ∧
        o.Serves engine table item'.expr item.expr) items' items := by
  obtain ⟨base, hbase, hitems⟩ := metricItems_eq_ok h
  have hserves (hreads) := serves_metricInput (d := d) hr ready hkeys htext hrows
    (List.mem_of_find?_eq_some hbase) (hexact base hbase) hreads
  obtain ⟨hone, htwo⟩ := metricItems_of_baseMetric? (b := ofRegistry r d (some o)) rollupId hbase
  rcases hitems with ⟨hconditional, rfl⟩ | ⟨hconditional, flag, hflag, rfl⟩
  · rw [List.forall_mem_singleton] at hreads
    exact ⟨_, hone hconditional, .cons ⟨rfl, (hserves hreads).1⟩ .nil⟩
  · rw [List.forall_mem_cons, List.forall_mem_singleton] at hreads
    exact ⟨_, htwo flag hconditional hflag,
      .cons ⟨rfl, (hserves hreads.1).1⟩ (.cons ⟨rfl, (hserves hreads.1).2 flag hreads.2⟩ .nil)⟩

theorem query_of_forall₂ {b : RollupSource} {rollup : RollupDefinition} {dimensions : List Expr}
    {metrics : List (List SelectItem)}
    (hdimensions : List.Forall₂ (fun id e => b.dimensionExpr rollup.id id = .ok e)
      rollup.dimensions dimensions)
    (hmetrics : List.Forall₂ (fun m items => b.metricItems rollup.id m = .ok items)
      rollup.metrics metrics) :
    b.query rollup = .ok {
      source := b.table
      items := (dimensions.zip rollup.dimensions).map (fun (expr, id) =>
        { expr, label := some id }) ++ metrics.flatten
      groupBy := dimensions } := by
  simp only [query, bind, Except.bind_eq_ok]
  exact ⟨dimensions, Except.mapM_eq_ok.2 hdimensions, metrics, Except.mapM_eq_ok.2 hmetrics, rfl⟩

/-- **A rollup from an optimized source** is the rollup from its source table: it has
the same columns and the same rows, whatever the source holds in its `columns`. Distinct
values must be counted exactly, as an estimate depends on how keys are written. -/
theorem grouped_query_optimized {document : SchemaDocument}
    (accepted : Registry.ofDocument document = .ok r) {rollup : RollupDefinition} {q : Select}
    (h : (ofRegistry r d none).query rollup = .ok q)
    (exact : ∀ m ∈ rollup.metrics, ∀ base, r.baseMetric? m.metricId = some base →
      base.aggregation ≠ .approxCountDistinct)
    (ready : o.build.isReady = true) (source : o.sourceTable = r.sourceTable)
    (textual : engine.Textual text) (apart : o.NamesKeysApart columns)
    (reads : q.ReadsOnly engine (IsAmong columns)) (tables : String → List Row)
    (rows : ∀ row ∈ tables o.sourceTable, row.IgnoresCase columns)
    (built : tables o.optimizedTable = (tables o.sourceTable).map (o.row engine)) :
    ∃ q', (ofRegistry r d (some o)).query rollup = .ok q' ∧ q'.source = o.optimizedTable ∧
      q'.items.map (·.label) = q.items.map (·.label) ∧
      q'.grouped engine (tables q'.source) = q.grouped engine (tables q.source) := by
  obtain ⟨dimensions, metrics, hdimensions, hmetrics, hq⟩ := query_eq_ok h
  have hsource : q.source = o.sourceTable := by rw [hq, source]; rfl
  have hitems : q.items = (dimensions.zip rollup.dimensions).map (fun (expr, id) =>
      { expr, label := some id }) ++ metrics.flatten := by rw [hq]
  have hreads := reads.items
  rw [hitems, List.forall_mem_append] at hreads
  obtain ⟨metrics', hmetrics', hserves⟩ := exists_forall₂ hmetrics fun m hm items hmem hok =>
    exists_metricItems accepted ready apart textual rows (exact m hm) hok fun item hitem =>
      hreads.2 item (List.mem_flatten.2 ⟨items, hmem, hitem⟩)
  -- dimensions are read from the columns of the source in both tables
  have hall : List.Forall₂ (fun item' item => item'.label = item.label ∧
      o.Serves engine (tables o.sourceTable) item'.expr item.expr)
      ((dimensions.zip rollup.dimensions).map (fun (expr, id) => { expr, label := some id }) ++
        metrics'.flatten) q.items := by
    rw [hitems]
    exact List.rel_append
      (List.forall₂_same.2 fun item hitem =>
        ⟨rfl, OptimizedSource.serves_self apart (hreads.1 item hitem)⟩)
      (List.rel_flatten hserves)
  refine ⟨{ q with source := o.optimizedTable, items := _ }, ?_, rfl,
    map_eq_map_of_forall₂ hall fun _ _ h => h.1, ?_⟩
  · have hoptimized : (ofRegistry r d (some o)).table = o.optimizedTable := by
      rw [table, ofRegistry, Option.filter_some, if_pos ready]
    rw [query_of_forall₂ (b := ofRegistry r d (some o)) hdimensions hmetrics', hoptimized, hq]
  · rw [hsource, built]
    exact Select.grouped_map reads (fun row _ => OptimizedSource.agreesOn_row apart row)
      fun group hgroup => hall.imp fun _ _ h => h.2 group hgroup

/-! ## An example -/

/-- Visits to a site, with the visitors of each city counted. -/
def visitsDocument : SchemaDocument :=
  { table := "visits"
    sourceTable := "raw.visits"
    baseMetrics := [
      { id := "visitors", sourceColumns := ["User ", "city"], aggregation := .countDistinct },
      { id := "cost", sourceColumns := ["cost"], aggregation := .sum }]
    dimensions := [{ id := "day", columnName := "day" }] }

def visitsRollup : RollupDefinition :=
  { id := "daily"
    dimensions := ["day"]
    metrics := [
      { metricId := "visitors", includeConditional := true, flagColumn := some "is_new" },
      { metricId := "cost" }] }

def visitsOptimized : OptimizedSource :=
  { sourceTable := "raw.visits"
    optimizedTable := "raw.visits_optimized"
    partitionColumn := "day"
    keyMappings := [
      { keyColumnName := "_key_city_user", sourceColumns := ["city", "user"],
        metricIds := ["visitors"] }]
    build := { status := .ready } }

def visitsColumns : List String := ["user", "city", "cost", "day", "is_new"]

/-- What a visit has in a column. -/
def visitValue (user city : String) (cost isNew : ℚ) : String → Value
  | "user" => some (.text user)
  | "city" => some (.text city)
  | "cost" => Value.ofRat cost
  | "is_new" => Value.ofRat isNew
  | "day" => some (.text "Monday")
  | _ => none

def visit (user city : String) (cost isNew : ℚ) : Row := fun name =>
  visitValue user city cost isNew (columnKey name)

/-- Two visits of one visitor and one of another. -/
def visits : List Row := [visit "a|b" "c" 3 1, visit "a" "b|c" 2 0, visit "a|b" "c" 2 1]

def visitTables (name : String) : List Row :=
  if name = "raw.visits" then visits else visits.map (visitsOptimized.row Engine.texts)

theorem ignoresCase_of_mem_visits : ∀ row ∈ visits, row.IgnoresCase visitsColumns := by
  have hfixed : ∀ c ∈ visitsColumns, columnKey (columnKey c) = columnKey c := by decide +kernel
  have hvisit (user city : String) (cost isNew : ℚ) :
      (visit user city cost isNew).IgnoresCase visitsColumns :=
    Row.ignoresCase_of_columnKey hfixed (visitValue user city cost isNew)
  simp only [visits, List.forall_mem_cons, List.not_mem_nil, false_implies, implies_true, hvisit,
    and_self]

/-- What `visits` is asked for are its columns. -/
def readsVisits : Expr → Bool
  | .column _ name => decide (IsAmong visitsColumns name)
  | _ => true

theorem readsOnly_of_readsVisits {e : Expr} (h : readsVisits e = true) :
    e.ReadsOnly Engine.texts (IsAmong visitsColumns) := by
  cases e with
  | column table name =>
    rw [readsVisits, decide_eq_true_eq] at h
    rwa [Expr.ReadsOnly]
  | raw sql =>
    rw [Expr.ReadsOnly]
    intro row row' _
    rfl
  | _ => trivial

/-- Two visitors, one of them new, who cost seven. -/
theorem grouped_query_visits :
    ∃ r q q', Registry.ofDocument visitsDocument = .ok r ∧
      (ofRegistry r .bigQuery none).query visitsRollup = .ok q ∧
      (ofRegistry r .bigQuery (some visitsOptimized)).query visitsRollup = .ok q' ∧
      q.grouped Engine.texts visits =
        [[some (.text "Monday"), Value.ofRat 2, Value.ofRat 1, Value.ofRat 7]] ∧
      q'.grouped Engine.texts (visits.map (visitsOptimized.row Engine.texts)) =
        q.grouped Engine.texts visits := by
  obtain ⟨r, hr⟩ := Except.exists_of_toBool (x := Registry.ofDocument visitsDocument)
    (by decide +kernel)
  obtain rfl := Registry.document_of_ofDocument hr
  obtain ⟨q, hq, hvalues⟩ := Except.exists_of_any
    (x := (ofRegistry ⟨visitsDocument⟩ .bigQuery none).query visitsRollup)
    (p := fun q => decide (q.source = "raw.visits" ∧ q.grouped Engine.texts visits =
        [[some (.text "Monday"), Value.ofRat 2, Value.ofRat 1, Value.ofRat 7]] ∧
      (∀ e ∈ q.items.map (·.expr) ++ q.filters ++ q.groupBy, ∀ node ∈ e.nodes,
        readsVisits node = true)))
    (by decide +kernel)
  obtain ⟨hsource, hseven, hreads⟩ := of_decide_eq_true hvalues
  simp only [List.forall_mem_append, List.forall_mem_map] at hreads
  have reads : q.ReadsOnly Engine.texts (IsAmong visitsColumns) :=
    ⟨fun item hitem node hnode => readsOnly_of_readsVisits (hreads.1.1 item hitem node hnode),
      fun e he node hnode => readsOnly_of_readsVisits (hreads.1.2 e he node hnode),
      fun e he node hnode => readsOnly_of_readsVisits (hreads.2 e he node hnode)⟩
  have hvisits : visitTables "raw.visits" = visits := if_pos rfl
  have hbuilt : visitTables visitsOptimized.optimizedTable =
      visits.map (visitsOptimized.row Engine.texts) := if_neg (by decide)
  obtain ⟨q', hq', hsource', -, hgrouped⟩ := grouped_query_optimized (o := visitsOptimized) hr hq
    (by decide +kernel) (by decide) rfl Engine.textual_texts ⟨by decide +kernel, by decide +kernel⟩
    reads visitTables ignoresCase_of_mem_visits hbuilt
  rw [hsource', hbuilt, hsource, hvisits] at hgrouped
  exact ⟨_, q, q', hr, hq, hq', hseven, hgrouped⟩

end RollupSource

end MetricLayer
