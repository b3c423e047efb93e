import Mathlib.Logic.Relation
import MetricLayer.Proofs.Json.RoundTrip
import MetricLayer.Proofs.Registry.Acceptance
import MetricLayer.Store

/-!
# Documents survive being saved and loaded

A value `ReadsBack` if what is written of it has an exact text and is read as the
value. Lists, options and records of such values read back (`readsBack_list`,
`readsBack_option`, `SchemaDocument.readsBack` and so on), and what reads back is
what a stored text gives (`ReadsBack.readStored`). A base metric is checked when it
is read, so a document reads back only if it is accepted; as no operation loses
that, whatever is reached from an accepted document can be stored and loaded
(`stored_documents_read_back`).
-/

namespace MetricLayer

/-! ## Values that read back -/

namespace Json

variable {α : Type} {write : α → Json} {read : Json → Except Fault α} {x : α}

/-- What is written of `x` has an exact text and is read as `x`. -/
structure ReadsBack (write : α → Json) (read : Json → Except Fault α) (x : α) : Prop where
  plain : (write x).IsPlain
  eq : read (write x) = .ok x

/-- A value that reads back survives being stored as a text. -/
theorem ReadsBack.readStored (h : ReadsBack write read x) (rules : Rules) :
    readStored read rules (write x).toText = .ok x := by
  rw [MetricLayer.readStored, read?_toText h.plain]
  change (read (write x)).mapError Error.unreadable = .ok x
  rw [h.eq]
  rfl

theorem readsBack_text (s : String) : ReadsBack .text asText s := ⟨trivial, rfl⟩

theorem readsBack_variant {name : α → String} {ofName? : String → Option α}
    (h : ofName? (name x) = some x) :
    ReadsBack (fun x => .text (name x)) (asVariant ofName?) x where
  plain := trivial
  eq := by simp [asVariant, h]

theorem asIntegerIn_ofNat {n high : Nat} (h : n < high) : asIntegerIn 0 high (ofNat n) = .ok n := by
  have hhigh : (n : Int) < high := by exact_mod_cast h
  rw [ofNat, asIntegerIn, if_pos (by simp [hhigh])]

theorem readsBack_uint8 (n : UInt8) : ReadsBack (fun n => .ofNat n.toNat) asUInt8 n where
  plain := ⟨n.toNat, rfl, n.toNat_lt.trans (by decide)⟩
  eq := by
    rw [asUInt8, asIntegerIn_ofNat n.toNat_lt]
    exact congrArg Except.ok UInt8.ofNat_toNat

theorem readsBack_uint64 (n : UInt64) : ReadsBack (fun n => .ofNat n.toNat) asUInt64 n where
  plain := ⟨n.toNat, rfl, n.toNat_lt⟩
  eq := by
    rw [asUInt64, asIntegerIn_ofNat n.toNat_lt]
    exact congrArg Except.ok UInt64.ofNat_toNat

theorem itemsPlain_map {xs : List α} (h : ∀ x ∈ xs, (write x).IsPlain) :
    ItemsPlain (xs.map write) := by
  induction xs with
  | nil => trivial
  | cons x xs ih =>
    exact ⟨h x List.mem_cons_self, ih fun y hy => h y (List.mem_cons_of_mem x hy)⟩

theorem readsBack_list {xs : List α} (h : ∀ x ∈ xs, ReadsBack write read x) :
    ReadsBack (fun xs => .list (xs.map write)) (asList read) xs where
  plain := itemsPlain_map fun x hx => (h x hx).plain
  eq := by
    have hread : (xs.map write).mapM read = .ok xs := by
      induction xs with
      | nil => rfl
      | cons x xs ih =>
        have hrest := ih fun y hy => h y (List.mem_cons_of_mem x hy)
        rw [List.map_cons, List.mapM_cons, (h x List.mem_cons_self).eq]
        simp [bind, Except.bind, hrest, pure, Except.pure]
    exact hread

theorem readsBack_texts (names : List String) : ReadsBack .texts asTexts names :=
  readsBack_list fun s _ => readsBack_text s

/-- What may be absent is written as null, which nothing else is written as. -/
theorem readsBack_option {o : Option α} (h : ∀ x ∈ o, ReadsBack write read x)
    (hnull : ∀ x, write x ≠ .null) : ReadsBack (.ofOption write) (asOption read) o := by
  cases o with
  | none => exact ⟨trivial, rfl⟩
  | some x =>
    have hx := h x rfl
    refine ⟨hx.plain, ?_⟩
    have hsome : asOption read (write x) = (do let x ← read (write x); .ok (some x)) := by
      cases hw : write x with
      | null => exact absurd hw (hnull x)
      | _ => rfl
    rw [ofOption, hsome, hx.eq]
    rfl

theorem readsBack_optionText (o : Option String) : ReadsBack (.ofOption .text) (asOption asText) o :=
  readsBack_option (fun s _ => readsBack_text s) fun _ h => by cases h

theorem readsBack_optionCount (o : Option UInt64) :
    ReadsBack (.ofOption fun n => .ofNat n.toNat) (asOption asUInt64) o :=
  readsBack_option (fun n _ => readsBack_uint64 n) fun _ h => by cases h

end Json

/-- The text of a timestamp stands for the timestamp. -/
def Timestamp.ReadsBack (t : Timestamp) : Prop := Timestamp.read t.text = .ok t

instance (t : Timestamp) : Decidable t.ReadsBack :=
  inferInstanceAs (Decidable (Timestamp.read t.text = .ok t))

theorem Timestamp.ReadsBack.readsBack {t : Timestamp} (h : t.ReadsBack) :
    Json.ReadsBack Timestamp.toJson Json.asTimestamp t where
  plain := trivial
  eq := by
    rw [toJson, Json.asTimestamp, Json.asText]
    simp only [bind, Except.bind, show Timestamp.read t.text = .ok t from h]

theorem readsBack_optionTimestamp {o : Option Timestamp} (h : ∀ t ∈ o, t.ReadsBack) :
    Json.ReadsBack (.ofOption Timestamp.toJson) (Json.asOption Json.asTimestamp) o :=
  Json.readsBack_option (fun t ht => (h t ht).readsBack) fun _ h => by cases h

open Json (ReadsBack readsBack_texts readsBack_optionText readsBack_optionCount)

/-! ## Definitions -/

theorem Aggregation.readsBack (a : Aggregation) : ReadsBack toJson ofJson a :=
  Json.readsBack_variant a.ofName?_name

theorem MetricFormat.readsBack (f : MetricFormat) : ReadsBack toJson ofJson f :=
  Json.readsBack_variant f.ofName?_name

theorem DataType.readsBack (t : DataType) : ReadsBack toJson ofJson t :=
  Json.readsBack_variant t.ofName?_name

theorem BuildStatus.readsBack (b : BuildStatus) : ReadsBack toJson ofJson b :=
  Json.readsBack_variant b.ofName?_name

theorem BaseMetric.readsBack {m : BaseMetric} (h : m.validate = .ok ()) :
    ReadsBack toJson ofJson m := by
  have hjson : m.toJson = .object [
      ("aggregation", m.aggregation.toJson),
      ("category", .ofOption .text m.category),
      ("decimal_places", .ofOption (fun n => .ofNat n.toNat) m.decimalPlaces),
      ("description", .ofOption .text m.description),
      ("display_name", .ofOption .text m.displayName),
      ("format", m.format.toJson),
      ("id", .text m.id),
      ("source_columns", .texts m.sourceColumns)] := rfl
  have hdecimals := Json.readsBack_option (o := m.decimalPlaces)
    (fun n _ => Json.readsBack_uint8 n) fun _ h => by cases h
  constructor
  · rw [hjson]
    refine ⟨by simp only [List.map_cons, List.map_nil]; decide, trivial, (readsBack_optionText _).plain,
      hdecimals.plain, (readsBack_optionText _).plain, (readsBack_optionText _).plain, trivial,
      trivial, (readsBack_texts _).plain, trivial⟩
  · have hcolumns : Json.asOption Json.asTexts (.texts m.sourceColumns) = .ok (some m.sourceColumns) :=
      (Json.readsBack_option (o := some m.sourceColumns) (fun names _ => readsBack_texts names)
        fun _ h => by cases h).eq
    rw [ofJson, ofJsonUnchecked, hjson]
    simp [Json.asFields, Json.readFields, Draft.read, bind, Except.bind, pure, Except.pure,
      Json.asText, m.aggregation.readsBack.eq, m.format.readsBack.eq, hdecimals.eq,
      (readsBack_optionText _).eq, hcolumns, Json.require, Draft.finish, h, Except.mapError]

theorem CalculatedMetric.readsBack (m : CalculatedMetric) : ReadsBack toJson ofJson m := by
  have hjson : m.toJson = .object [
      ("category", .ofOption .text m.category),
      ("compiled_sql", .text m.compiledSql),
      ("depends_on_base", .texts m.dependsOnBase),
      ("depends_on_calculated", .texts m.dependsOnCalculated),
      ("description", .ofOption .text m.description),
      ("display_name", .ofOption .text m.displayName),
      ("format", m.format.toJson),
      ("formula", .text m.formula),
      ("id", .text m.id)] := rfl
  constructor
  · rw [hjson]
    exact ⟨by simp only [List.map_cons, List.map_nil]; decide, (readsBack_optionText _).plain, trivial,
      (readsBack_texts _).plain, (readsBack_texts _).plain, (readsBack_optionText _).plain,
      (readsBack_optionText _).plain, trivial, trivial, trivial, trivial⟩
  · rw [ofJson, hjson]
    simp [Json.asFields, Json.readFields, readField, bind, Except.bind, pure, Except.pure,
      Json.asText, m.format.readsBack.eq, (readsBack_optionText _).eq, (readsBack_texts _).eq,
      Json.require]

theorem Dimension.readsBack (dim : Dimension) : ReadsBack toJson ofJson dim := by
  have hjson : dim.toJson = .object [
      ("column_name", .text dim.columnName),
      ("data_type", dim.dataType.toJson),
      ("description", .ofOption .text dim.description),
      ("display_name", .ofOption .text dim.displayName),
      ("id", .text dim.id),
      ("is_filterable", .bool dim.isFilterable),
      ("is_groupable", .bool dim.isGroupable)] := rfl
  constructor
  · rw [hjson]
    exact ⟨by simp only [List.map_cons, List.map_nil]; decide, trivial, trivial,
      (readsBack_optionText _).plain, (readsBack_optionText _).plain, trivial, trivial, trivial,
      trivial⟩
  · have hcolumn : Json.asOption Json.asText (.text dim.columnName) = .ok (some dim.columnName) := rfl
    rw [hjson]
    simp [ofJson, Json.asFields, Json.readFields, Draft.read, bind, Except.bind, pure, Except.pure,
      Json.asText, Json.asBool, dim.dataType.readsBack.eq, (readsBack_optionText _).eq, hcolumn,
      Json.require]

theorem CalculatedDimension.readsBack (dim : CalculatedDimension) : ReadsBack toJson ofJson dim := by
  have hjson : dim.toJson = .object [
      ("compiled_sql", .text dim.compiledSql),
      ("data_type", dim.dataType.toJson),
      ("depends_on", .texts dim.dependsOn),
      ("description", .ofOption .text dim.description),
      ("display_name", .ofOption .text dim.displayName),
      ("id", .text dim.id),
      ("is_filterable", .bool dim.isFilterable),
      ("is_groupable", .bool dim.isGroupable),
      ("sql_expression", .text dim.sqlExpression)] := rfl
  constructor
  · rw [hjson]
    exact ⟨by simp only [List.map_cons, List.map_nil]; decide, trivial, trivial, (readsBack_texts _).plain,
      (readsBack_optionText _).plain, (readsBack_optionText _).plain, trivial, trivial, trivial,
      trivial, trivial⟩
  · rw [ofJson, hjson]
    simp [Json.asFields, Json.readFields, readField, bind, Except.bind, pure, Except.pure,
      Json.asText, Json.asBool, dim.dataType.readsBack.eq, (readsBack_optionText _).eq,
      (readsBack_texts _).eq, Json.require]

/-! ## Documents -/

def SchemaDocument.TimesReadBack (s : SchemaDocument) : Prop :=
  (∀ t ∈ s.createdAt, t.ReadsBack) ∧ ∀ t ∈ s.updatedAt, t.ReadsBack

theorem SchemaDocument.readsBack {s : SchemaDocument}
    (hbases : ∀ m ∈ s.baseMetrics, m.validate = .ok ()) (htimes : s.TimesReadBack) :
    ReadsBack toJson ofJson s := by
  have hjson : s.toJson = .object [
      ("base_metrics", .list (s.baseMetrics.map BaseMetric.toJson)),
      ("calculated_dimensions", .list (s.calculatedDimensions.map CalculatedDimension.toJson)),
      ("calculated_metrics", .list (s.calculatedMetrics.map CalculatedMetric.toJson)),
      ("created_at", .ofOption Timestamp.toJson s.createdAt),
      ("date_column", .text s.dateColumn),
      ("dimensions", .list (s.dimensions.map Dimension.toJson)),
      ("source_table", .text s.sourceTable),
      ("table", .text s.table),
      ("updated_at", .ofOption Timestamp.toJson s.updatedAt),
      ("version", .ofNat s.version.toNat)] := rfl
  have hbase := Json.readsBack_list fun m hm => BaseMetric.readsBack (hbases m hm)
  have hcalculated := Json.readsBack_list fun m (_ : m ∈ s.calculatedMetrics) => m.readsBack
  have hdimension := Json.readsBack_list fun dim (_ : dim ∈ s.dimensions) => dim.readsBack
  have hexpression := Json.readsBack_list fun dim (_ : dim ∈ s.calculatedDimensions) => dim.readsBack
  have hcreated := readsBack_optionTimestamp htimes.1
  have hupdated := readsBack_optionTimestamp htimes.2
  have hversion := Json.readsBack_uint64 s.version
  have hread : Json.asUInt64 (.ofNat s.version.toNat) = .ok s.version := hversion.eq
  constructor
  · rw [hjson]
    exact ⟨by simp only [List.map_cons, List.map_nil]; decide, hbase.plain, hexpression.plain,
      hcalculated.plain, hcreated.plain, trivial, hdimension.plain, trivial, trivial,
      hupdated.plain, hversion.plain, trivial⟩
  · rw [ofJson, hjson]
    -- the bound of the version is too large to compute with
    obtain ⟨version, hwritten⟩ : ∃ v, Json.ofNat s.version.toNat = v := ⟨_, rfl⟩
    rw [hwritten] at hread ⊢
    simp [Json.asFields, Json.readFields, readField, bind, Except.bind, pure, Except.pure,
      Json.asText, hbase.eq, hexpression.eq, hcalculated.eq, hcreated.eq, hdimension.eq,
      hupdated.eq, hread, Json.require]

/-! ## Rollups and optimized sources -/

def BuildState.TimesReadBack (b : BuildState) : Prop := ∀ t ∈ b.lastRefreshAt, t.ReadsBack

def RollupDefinition.TimesReadBack (r : RollupDefinition) : Prop :=
  r.build.TimesReadBack ∧ (∀ t ∈ r.createdAt, t.ReadsBack) ∧ ∀ t ∈ r.updatedAt, t.ReadsBack

theorem RollupMetric.readsBack (m : RollupMetric) : ReadsBack toJson ofJson m := by
  have hjson : m.toJson = .object [
      ("flag_column", .ofOption .text m.flagColumn),
      ("include_conditional", .bool m.includeConditional),
      ("metric_id", .text m.metricId)] := rfl
  constructor
  · rw [hjson]
    exact ⟨by simp only [List.map_cons, List.map_nil]; decide, (readsBack_optionText _).plain,
      trivial, trivial, trivial⟩
  · rw [ofJson, hjson]
    simp [Json.asFields, Json.readFields, readField, bind, Except.bind, pure, Except.pure,
      Json.asText, Json.asBool, (readsBack_optionText _).eq, Json.require]

theorem KeyMapping.readsBack (m : KeyMapping) : ReadsBack toJson ofJson m := by
  have hjson : m.toJson = .object [
      ("key_column_name", .text m.keyColumnName),
      ("metric_ids", .texts m.metricIds),
      ("source_columns", .texts m.sourceColumns)] := rfl
  constructor
  · rw [hjson]
    exact ⟨by simp only [List.map_cons, List.map_nil]; decide, trivial, (readsBack_texts _).plain,
      (readsBack_texts _).plain, trivial⟩
  · rw [ofJson, hjson]
    simp [Json.asFields, Json.readFields, readField, bind, Except.bind, pure, Except.pure,
      Json.asText, (readsBack_texts _).eq, Json.require]

theorem RollupDefinition.readsBack {r : RollupDefinition} (htimes : r.TimesReadBack) :
    ReadsBack toJson ofJson r := by
  have hjson : r.toJson = .object [
      ("created_at", .ofOption Timestamp.toJson r.createdAt),
      ("description", .ofOption .text r.description),
      ("dimensions", .texts r.dimensions),
      ("display_name", .ofOption .text r.displayName),
      ("id", .text r.id),
      ("last_refresh_at", .ofOption Timestamp.toJson r.build.lastRefreshAt),
      ("last_refresh_error", .ofOption .text r.build.lastRefreshError),
      ("metrics", .list (r.metrics.map RollupMetric.toJson)),
      ("row_count", .ofOption (fun n => .ofNat n.toNat) r.build.rowCount),
      ("size_bytes", .ofOption (fun n => .ofNat n.toNat) r.build.sizeBytes),
      ("status", r.build.status.toJson),
      ("target_table_name", .text r.targetTableName),
      ("updated_at", .ofOption Timestamp.toJson r.updatedAt)] := rfl
  have hcreated := readsBack_optionTimestamp htimes.2.1
  have hupdated := readsBack_optionTimestamp htimes.2.2
  have hrefreshed := readsBack_optionTimestamp htimes.1
  have hmetrics := Json.readsBack_list fun m (_ : m ∈ r.metrics) => m.readsBack
  constructor
  · rw [hjson]
    exact ⟨by simp only [List.map_cons, List.map_nil]; decide, hcreated.plain,
      (readsBack_optionText _).plain, (readsBack_texts _).plain, (readsBack_optionText _).plain,
      trivial, hrefreshed.plain, (readsBack_optionText _).plain, hmetrics.plain,
      (readsBack_optionCount _).plain, (readsBack_optionCount _).plain, trivial, trivial,
      hupdated.plain, trivial⟩
  · rw [ofJson, hjson]
    simp [Json.asFields, Json.readFields, readField, BuildState.readField, bind, Except.bind, pure,
      Except.pure, Json.asText, hcreated.eq, hupdated.eq, hrefreshed.eq, hmetrics.eq,
      (readsBack_optionText _).eq, (readsBack_texts _).eq, (readsBack_optionCount _).eq,
      r.build.status.readsBack.eq, Json.require]

theorem OptimizedSource.readsBack {s : OptimizedSource} (hbuild : s.build.TimesReadBack) :
    ReadsBack toJson ofJson s := by
  have hjson : s.toJson = .object [
      ("cluster_columns", .texts s.clusterColumns),
      ("key_mappings", .list (s.keyMappings.map KeyMapping.toJson)),
      ("last_refresh_at", .ofOption Timestamp.toJson s.build.lastRefreshAt),
      ("last_refresh_error", .ofOption .text s.build.lastRefreshError),
      ("optimized_table", .text s.optimizedTable),
      ("partition_column", .text s.partitionColumn),
      ("row_count", .ofOption (fun n => .ofNat n.toNat) s.build.rowCount),
      ("size_bytes", .ofOption (fun n => .ofNat n.toNat) s.build.sizeBytes),
      ("source_table", .text s.sourceTable),
      ("status", s.build.status.toJson)] := rfl
  have hrefreshed := readsBack_optionTimestamp hbuild
  have hmappings := Json.readsBack_list fun m (_ : m ∈ s.keyMappings) => m.readsBack
  constructor
  · rw [hjson]
    exact ⟨by simp only [List.map_cons, List.map_nil]; decide, (readsBack_texts _).plain, hmappings.plain,
      hrefreshed.plain, (readsBack_optionText _).plain, trivial, trivial,
      (readsBack_optionCount _).plain, (readsBack_optionCount _).plain, trivial, trivial, trivial⟩
  · rw [ofJson, hjson]
    simp [Json.asFields, Json.readFields, readField, BuildState.readField, bind, Except.bind, pure,
      Except.pure, Json.asText, hrefreshed.eq, hmappings.eq, (readsBack_optionText _).eq,
      (readsBack_texts _).eq, (readsBack_optionCount _).eq, s.build.status.readsBack.eq,
      Json.require]

/-! ## What is reached from a document -/

namespace Registry

/-- An operation, or the outcome of a cascade that is applied. -/
inductive Step : Registry → Registry → Prop where
  | run (d : Sql.Dialect) (op : Operation) (r : Registry) : Step r (op.run d r)
  | applyCascade (outcome : CascadeOutcome) (r : Registry) : Step r (r.applyCascade outcome)

variable {r r' : Registry}

theorem Step.accepted (h : Step r r') (hr : r.Accepted) : r'.Accepted := by
  cases h with
  | run d op => exact hr.run op
  | applyCascade outcome => exact hr.applyCascade outcome

theorem Step.heading_eq (h : Step r r') : r'.document.heading = r.document.heading := by
  cases h with
  | run d op => exact heading_run r op
  | applyCascade outcome => exact heading_applyCascade r outcome

theorem Accepted.reach (h : r.Accepted) (hreach : Relation.ReflTransGen Step r r') :
    r'.Accepted := by
  induction hreach with
  | refl => exact h
  | tail _ hstep ih => exact hstep.accepted ih

theorem heading_reach (hreach : Relation.ReflTransGen Step r r') :
    r'.document.heading = r.document.heading := by
  induction hreach with
  | refl => rfl
  | tail _ hstep ih => exact hstep.heading_eq.trans ih

end Registry

/-- What is reached from an accepted document is read from its text as it was written,
and accepted again. Rollups and optimized sources are read as they were written. -/
theorem stored_documents_read_back :
    (∀ (document : SchemaDocument) (r r' : Registry), Registry.ofDocument document = .ok r →
      document.TimesReadBack → Relation.ReflTransGen Registry.Step r r' → ∀ rules : Json.Rules,
        readStored SchemaDocument.ofJson rules r'.document.toJson.toText = .ok r'.document ∧
        Registry.ofDocument r'.document = .ok r') ∧
    (∀ rollup : RollupDefinition, rollup.TimesReadBack → ∀ rules : Json.Rules,
      readStored RollupDefinition.ofJson rules rollup.toJson.toText = .ok rollup) ∧
    (∀ source : OptimizedSource, source.build.TimesReadBack → ∀ rules : Json.Rules,
      readStored OptimizedSource.ofJson rules source.toJson.toText = .ok source) := by
  refine ⟨fun document r r' hr htimes hreach rules => ?_, fun rollup h rules => ?_,
    fun source h rules => ?_⟩
  · obtain ⟨rfl, haccepted⟩ := Registry.ofDocument_eq_ok_iff.1 hr
    have haccepted' := haccepted.reach hreach
    have hheading := Registry.heading_reach hreach
    have hcreated : r'.document.createdAt = document.createdAt :=
      show r'.document.heading.createdAt = document.heading.createdAt from congrArg _ hheading
    have hupdated : r'.document.updatedAt = document.updatedAt :=
      show r'.document.heading.updatedAt = document.heading.updatedAt from congrArg _ hheading
    have htimes' : r'.document.TimesReadBack := by
      rw [SchemaDocument.TimesReadBack, hcreated, hupdated]
      exact htimes
    exact ⟨(SchemaDocument.readsBack haccepted'.bases htimes').readStored rules,
      Registry.ofDocument_eq_ok_iff.2 ⟨rfl, haccepted'⟩⟩
  · exact (RollupDefinition.readsBack h).readStored rules
  · exact (OptimizedSource.readsBack h).readStored rules

/-- Orders, in a document that was saved twice. -/
def SchemaDocument.orders : SchemaDocument :=
  { table := "orders"
    sourceTable := "raw.orders"
    baseMetrics := [
      { id := "revenue", sourceColumns := ["amount"], aggregation := .sum, format := .currency },
      { id := "baskets", sourceColumns := ["shop", "buyer"], aggregation := .countDistinct,
        decimalPlaces := some 0 }]
    calculatedMetrics := [{ id := "basket_value", formula := "[revenue] / [baskets]" }]
    dimensions := [{ id := "shop", columnName := "shop_id", displayName := some "The \"shop\"" }]
    version := 2
    createdAt := some ⟨1700000000, 0⟩
    updatedAt := some ⟨1700000060, 250000000⟩ }

def RollupDefinition.byShop : RollupDefinition :=
  { id := "by_shop"
    dimensions := ["shop"]
    metrics := [{ metricId := "revenue", includeConditional := true }]
    build := { status := .ready, rowCount := some 12, lastRefreshAt := some ⟨1700000060, 250000000⟩ }
    createdAt := some ⟨1700000000, 0⟩ }

def OptimizedSource.orders : OptimizedSource :=
  { sourceTable := "raw.orders"
    optimizedTable := "raw.orders_optimized"
    partitionColumn := "day"
    build := { status := .error, lastRefreshError := some "no \"day\" in the table" } }

/-- The registry of the orders after a metric was removed. -/
def Registry.orders : Registry := (Operation.removeMetric "basket_value").run .duckDb ⟨.orders⟩

theorem orders_read_back :
    (readStored SchemaDocument.ofJson .strict Registry.orders.document.toJson.toText =
        .ok Registry.orders.document ∧
      Registry.ofDocument Registry.orders.document = .ok Registry.orders) ∧
    readStored RollupDefinition.ofJson .relaxed RollupDefinition.byShop.toJson.toText =
      .ok RollupDefinition.byShop ∧
    readStored OptimizedSource.ofJson .relaxed OptimizedSource.orders.toJson.toText =
      .ok OptimizedSource.orders := by
  have hmade : Timestamp.ReadsBack ⟨1700000000, 0⟩ := by decide +kernel
  have hsaved : Timestamp.ReadsBack ⟨1700000060, 250000000⟩ := by decide +kernel
  obtain ⟨hdocument, hrollup, hsource⟩ := stored_documents_read_back
  refine ⟨hdocument .orders ⟨.orders⟩ _ rfl ⟨?_, ?_⟩ (.single (.run _ _ _)) .strict,
    hrollup .byShop ⟨?_, ?_, ?_⟩ .relaxed, hsource .orders ?_ .relaxed⟩
  all_goals
    intro t ht
    cases ht
  exacts [hmade, hsaved, hsaved, hmade]

end MetricLayer
