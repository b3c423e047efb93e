import MetricLayer.Optimized.Key
import MetricLayer.Proofs.Formula.Occurrences
import MetricLayer.Proofs.Registry.Reordering
import MetricLayer.Proofs.SortedSet

/-!
# The sets of columns that metrics combine

`columnsOfKey?` finds the keys in compiled expressions and nothing else. The key of
a base metric is recognized with the columns of the metric
(`Sql.Expr.columnsOfKey?_compositeKey`), and no formula can write one of its own
(`Formula.keepsKeys`), so that a calculated metric combines the columns that the base
metrics under it combine (`Registry.mem_columnSets_of_lower`). The analysis of a
registry therefore tells for each set of columns which metrics combine it, in the
terms of the graph (`Registry.keyMappings_exact`).
-/

namespace MetricLayer

open Sql (Expr)

namespace Sql.Expr

/-! ## Keys that are recognized -/

theorem columnsOfParts?_keyPart (column : String) (rest : List Expr) :
    columnsOfParts? (keyPart column :: rest) = (columnsOfParts? rest).map (column :: ·) := by
  cases h : columnsOfParts? rest <;>
    simp [keyPart, replaceAll, ofText, ofColumn, columnsOfParts?, wrappedColumn?, h]

theorem columnsOfParts?_keyParts (columns : List String) :
    columnsOfParts? (keyParts columns) = some columns := by
  unfold keyParts
  induction columns with
  | nil => rfl
  | cons column rest ih =>
    cases rest with
    | nil => exact columnsOfParts?_keyPart column []
    | cons next rest =>
      have hbar (parts : List Expr) : columnsOfParts? (ofText "|" :: parts) = columnsOfParts? parts :=
        rfl
      rw [List.map_cons, List.map_cons, List.intersperse_cons_cons, columnsOfParts?_keyPart, hbar,
        ← List.map_cons, ih, Option.map_some]

theorem columnsOfKey?_compositeKey {columns : List String} (h : columns ≠ []) :
    (compositeKey columns).columnsOfKey? = some columns := by
  rw [compositeKey, columnsOfKey?, columnsOfParts?_keyParts]
  cases columns with
  | nil => exact absurd rfl h
  | cons column rest => rfl

theorem columnsOfKey?_call {f : Function} (hf : f ≠ .concat) (es : List Expr) :
    (call f es).columnsOfKey? = none := by
  cases f <;> first | rfl | exact absurd rfl hf

theorem columnsOfKey?_apply (op : ArithOp) (l r : Expr) : (op.apply l r).columnsOfKey? = none := by
  cases op <;> rfl

theorem mem_columnSets {e : Expr} {set : List String} :
    set ∈ e.columnSets ↔ 2 ≤ set.length ∧ ∃ node ∈ e.nodes, ∃ columns,
      node.columnsOfKey? = some columns ∧ normalizeColumns columns = set := by
  simp [columnSets, and_comm]

end Sql.Expr

namespace BaseMetric

/-- The metric counts the combinations of two or more columns, which are the given
ones when normalized. -/
def Combines (m : BaseMetric) (columns : List String) : Prop :=
  m.isComposite = true ∧ normalizeColumns m.sourceColumns = columns ∧ 2 ≤ columns.length

theorem columnsOfKey?_of_mem_nodes {m : BaseMetric} {node : Expr} {columns : List String}
    (hnode : node ∈ m.expr.nodes) (h : node.columnsOfKey? = some columns) :
    m.isComposite = true ∧ m.sourceColumns = columns := by
  rw [expr, Expr.nodes, List.mem_cons] at hnode
  rcases hnode with rfl | hnode
  · cases h
  rw [input] at hnode
  split at hnode
  · rename_i hcomposite
    refine ⟨hcomposite, ?_⟩
    have hne := sourceColumns_ne_nil hcomposite
    revert h
    refine Sql.forall_nodes_compositeKey
      (P := fun node => node.columnsOfKey? = some columns → m.sourceColumns = columns)
      (fun h => ?_) (fun h => by cases h) (fun column => ?_) node hnode
    · exact Option.some.inj ((Expr.columnsOfKey?_compositeKey hne).symm.trans h)
    · simp [Expr.keyPart, Expr.replaceAll, Expr.ofColumn, Expr.ofText, Expr.nodes, Expr.nodesOf,
        Expr.columnsOfKey?]
  · obtain rfl : node = .ofColumn (m.sourceColumns.head?.getD "") := by
      simpa [Expr.ofColumn, Expr.nodes] using hnode
    cases h

theorem mem_columnSets_expr {m : BaseMetric} {set : List String} :
    set ∈ m.expr.columnSets ↔ m.Combines set := by
  rw [Expr.mem_columnSets]
  constructor
  · rintro ⟨hlength, node, hnode, columns, hkey, hset⟩
    obtain ⟨hcomposite, rfl⟩ := columnsOfKey?_of_mem_nodes hnode hkey
    exact ⟨hcomposite, hset, hlength⟩
  · rintro ⟨hcomposite, hset, hlength⟩
    refine ⟨hlength, .compositeKey m.sourceColumns, ?_, m.sourceColumns,
      Expr.columnsOfKey?_compositeKey (sourceColumns_ne_nil hcomposite), hset⟩
    rw [expr, input, if_pos hcomposite, Expr.nodes]
    exact List.mem_cons_of_mem _ (Expr.self_mem_nodes _)

end BaseMetric

theorem SystemMetric.columnsOfKey?_of_mem_nodes {m : SystemMetric} {dateColumn : String} {node : Expr}
    (hnode : node ∈ (m.expr dateColumn).nodes) : node.columnsOfKey? = none := by
  revert node
  cases m
  simp [expr, Expr.ofColumn, Expr.ofInt, Expr.nodes, Expr.nodesOf, Expr.columnsOfKey?]

/-! ## Keys in formulas -/

namespace Formula

theorem ne_concat_of_ofFormulaName? {name : String} {f : Sql.Function}
    (h : Sql.Function.ofFormulaName? name = some f) : f ≠ .concat := by
  unfold Sql.Function.ofFormulaName? at h
  split at h <;> cases h <;> decide

/-- A key in the expression of a formula comes with one of its references. -/
theorem keepsKeys {resolve : String → Except Error Expr} : KeptByLowering resolve fun f e =>
    ∀ node ∈ e.nodes, node.columnsOfKey? ≠ none →
      ∃ id ∈ f.references, ∃ e', resolve id = .ok e' ∧ node ∈ e'.nodes where
  number _ := by simp [Expr.nodes, Expr.columnsOfKey?]
  literal _ := by simp [Expr.ofText, Expr.nodes, Expr.columnsOfKey?]
  negate _ _ _ h := List.forall_mem_cons.2 ⟨fun hkey => absurd rfl hkey, h⟩
  group _ _ h := List.forall_mem_cons.2 ⟨fun hkey => absurd rfl hkey, h⟩
  binary op l r L R hl hr := by
    rw [Expr.nodes_apply, List.forall_mem_cons, List.forall_mem_append]
    refine ⟨fun hkey => absurd (Expr.columnsOfKey?_apply op L R) hkey, fun node hnode hkey => ?_,
      fun node hnode hkey => ?_⟩
    · obtain ⟨id, hid, hfound⟩ := hl node hnode hkey
      exact ⟨id, List.mem_append_left _ hid, hfound⟩
    · obtain ⟨id, hid, hfound⟩ := hr node hnode hkey
      exact ⟨id, List.mem_append_right _ hid, hfound⟩
  call _ function fs es hf harity h := by
    rw [Expr.nodes, List.forall_mem_cons]
    refine ⟨fun hkey => absurd (Expr.columnsOfKey?_call (ne_concat_of_ofFormulaName? hf) es) hkey, ?_⟩
    rw [references]
    clear hf harity
    induction h with
    | nil => simp [Expr.nodesOf]
    | cons hhead _ ih =>
      rw [Expr.nodesOf, List.forall_mem_append, referencesOf]
      refine ⟨fun node hnode hkey => ?_, fun node hnode hkey => ?_⟩
      · obtain ⟨id, hid, hfound⟩ := hhead node hnode hkey
        exact ⟨id, List.mem_append_left _ hid, hfound⟩
      · obtain ⟨id, hid, hfound⟩ := ih node hnode hkey
        exact ⟨id, List.mem_append_right _ hid, hfound⟩

end Formula

namespace Registry

open DependencyGraph (ofRegistry)

variable {r r' : Registry} {d : Sql.Dialect} {visiting : List String} {f : Formula} {e : Expr}
  {set : List String} {id : String}

/-- A key in the expression of a formula is that of a base metric to which the
formula leads. -/
theorem exists_base_of_key (h : f.lower (r.expand visiting) = .ok e) :
    ∀ node ∈ e.nodes, node.columnsOfKey? ≠ none →
      ∃ id b, r.baseMetric? id = some b ∧ r.LeadsTo f id ∧ node ∈ b.expr.nodes := by
  refine holds_of_lower (P := fun f e => ∀ node ∈ e.nodes, node.columnsOfKey? ≠ none →
    ∃ id b, r.baseMetric? id = some b ∧ r.LeadsTo f id ∧ node ∈ b.expr.nodes) ?_ h
  intro resolve f e h hresolve node hnode hkey
  have hkept := Formula.keepsKeys.holds f
    (fun id hid e he node hnode _ => ⟨id, List.mem_singleton_self id, e, he, hnode⟩) e h
  obtain ⟨id, hid, e', he', hnode'⟩ := hkept node hnode hkey
  cases hresolve id e' he' with
  | base known => exact ⟨id, _, metric?_eq_base_iff.1 known, ⟨f, .self f, hid⟩, hnode'⟩
  | calculated known parsed hinner =>
    rw [Expr.nodes, List.mem_cons] at hnode'
    rcases hnode' with rfl | hnode'
    · exact absurd rfl hkey
    · obtain ⟨name, b, hb, hleads, hnode'⟩ := hinner node hnode' hkey
      exact ⟨name, b, hb, hleads.through hid known parsed, hnode'⟩
  | system known => exact absurd (SystemMetric.columnsOfKey?_of_mem_nodes hnode') hkey

/-- The sets of columns in the expression of a formula are those of the base metrics
to which the formula leads. -/
theorem mem_columnSets_of_lower (h : f.lower (r.expand visiting) = .ok e) :
    set ∈ e.columnSets ↔
      ∃ id b, r.baseMetric? id = some b ∧ r.LeadsTo f id ∧ b.Combines set := by
  constructor
  · intro hset
    obtain ⟨hlength, node, hnode, columns, hkey, hnormalized⟩ := Expr.mem_columnSets.1 hset
    obtain ⟨id, b, hb, hleads, hnode'⟩ := exists_base_of_key h node hnode (by simp [hkey])
    exact ⟨id, b, hb, hleads, BaseMetric.mem_columnSets_expr.1
      (Expr.mem_columnSets.2 ⟨hlength, node, hnode', columns, hkey, hnormalized⟩)⟩
  · rintro ⟨id, b, hb, hleads, hcombines⟩
    have hstands := (standsFor_iff_leadsTo h hb).2 hleads
    obtain ⟨hlength, node, hnode, hkey⟩ :=
      Expr.mem_columnSets.1 (BaseMetric.mem_columnSets_expr.2 hcombines)
    exact Expr.mem_columnSets.2 ⟨hlength, node, hstands.nodes_subset hnode, hkey⟩

/-! ## The analysis of a registry -/

/-- The metric `id` combines the set of columns: it is a base metric that does, or a
calculated metric that compiles and rests on one. -/
def Combines (r : Registry) (d : Sql.Dialect) (set : List String) (id : String) : Prop :=
  (∃ b ∈ r.baseMetrics, b.id = id ∧ b.Combines set) ∨
    ∃ m ∈ r.calculatedMetrics, m.id = id ∧ (∃ c, r.compile d m.formula (some m.id) = .ok c) ∧
      ∃ b ∈ r.baseMetrics, b.id ∈ (ofRegistry r).transitiveBases m.id ∧ b.Combines set

theorem mem_combinations {x : List String × String} :
    x ∈ r.combinations d ↔
      (∃ b ∈ r.baseMetrics, b.id = x.2 ∧ x.1 ∈ b.expr.columnSets) ∨
        ∃ m ∈ r.calculatedMetrics, m.id = x.2 ∧
          ∃ c, r.compile d m.formula (some m.id) = .ok c ∧ x.1 ∈ c.expr.columnSets := by
  have hsets {e : Expr} {id : String} :
      (x ∈ e.columnSets.map fun set => (set, id)) ↔ id = x.2 ∧ x.1 ∈ e.columnSets := by
    rw [List.mem_map]
    constructor
    · rintro ⟨set, hset, rfl⟩
      exact ⟨rfl, hset⟩
    · rintro ⟨rfl, hset⟩
      exact ⟨x.1, hset, rfl⟩
  rw [combinations, List.mem_append, List.mem_flatMap, List.mem_flatMap]
  refine or_congr (exists_congr fun b => and_congr_right fun _ => hsets)
    (exists_congr fun m => and_congr_right fun _ => ?_)
  cases hc : r.compile d m.formula (some m.id) with
  | ok c => simp [hsets]
  | error fault => simp

theorem mem_combinations_iff (hr : r.WellFormed) :
    (set, id) ∈ r.combinations d ↔ r.Combines d set id := by
  rw [mem_combinations, Combines]
  refine or_congr (exists_congr fun b => ?_) (exists_congr fun m => ?_)
  · rw [BaseMetric.mem_columnSets_expr]
  · refine and_congr_right fun hm => and_congr_right fun _ => ?_
    rw [← exists_and_right]
    refine exists_congr fun c => and_congr_right fun hc => ?_
    obtain ⟨_, f, hcompiled⟩ := compile_eq_ok_iff.1 hc
    rw [mem_columnSets_of_lower hcompiled.lowered]
    constructor
    · rintro ⟨name, b, hb, hleads, hcombines⟩
      obtain ⟨hmem, rfl⟩ := hr.baseMetric?_eq_some_iff.1 hb
      exact ⟨b, hmem, (mem_transitiveBases_iff hr hm hcompiled.parsed hcompiled.lowered).2
        ⟨b, hb, hleads⟩, hcombines⟩
    · rintro ⟨b, hb, hrests, hcombines⟩
      obtain ⟨-, -, hleads⟩ :=
        (mem_transitiveBases_iff hr hm hcompiled.parsed hcompiled.lowered).1 hrests
      exact ⟨b.id, b, hr.baseMetric?_eq_some_iff.2 ⟨hb, rfl⟩, hleads, hcombines⟩

/-- Whatever combines a set, some base metric does. -/
theorem exists_combines_iff : (∃ id, r.Combines d set id) ↔ ∃ b ∈ r.baseMetrics, b.Combines set := by
  constructor
  · rintro ⟨id, ⟨b, hb, -, hcombines⟩ | ⟨m, -, -, -, b, hb, -, hcombines⟩⟩
    · exact ⟨b, hb, hcombines⟩
    · exact ⟨b, hb, hcombines⟩
  · rintro ⟨b, hb, hcombines⟩
    exact ⟨b.id, .inl ⟨b, hb, rfl, hcombines⟩⟩

theorem Reordered.mem_combinations (h : r.Reordered r') (hr : r.WellFormed)
    (x : List String × String) : x ∈ r.combinations d ↔ x ∈ r'.combinations d := by
  simp only [Registry.mem_combinations, h.base.mem_iff, h.calculated.mem_iff,
    h.compile_eq_ok_iff hr]

theorem keyMappings_congr (h : ∀ x, x ∈ r.combinations d ↔ x ∈ r'.combinations d)
    (prefixText : String) : r.keyMappings d prefixText = r'.keyMappings d prefixText := by
  have hsets : sortedSet ((r.combinations d).map (·.1)) =
      sortedSet ((r'.combinations d).map (·.1)) :=
    sortedSet_eq_iff.2 fun set => by simp only [List.mem_map, h]
  have hids (set : List String) :
      sortedSet (((r.combinations d).filter (·.1 == set)).map (·.2)) =
        sortedSet (((r'.combinations d).filter (·.1 == set)).map (·.2)) :=
    sortedSet_eq_iff.2 fun id => by simp only [List.mem_map, List.mem_filter, h]
  simp only [keyMappings, hsets, hids]

section Mappings

variable {prefixText : String} {k : KeyMapping}

theorem map_sourceColumns_keyMappings (r : Registry) (d : Sql.Dialect) (prefixText : String) :
    (r.keyMappings d prefixText).map (·.sourceColumns) =
      sortedSet ((r.combinations d).map (·.1)) := by
  rw [keyMappings, List.map_map]
  exact List.map_id _

theorem mem_sourceColumns_keyMappings (hr : r.WellFormed) :
    set ∈ (r.keyMappings d prefixText).map (·.sourceColumns) ↔
      ∃ b ∈ r.baseMetrics, b.Combines set := by
  rw [map_sourceColumns_keyMappings, mem_sortedSet, List.mem_map,
    ← exists_combines_iff (r := r) (d := d)]
  constructor
  · rintro ⟨x, hx, rfl⟩
    exact ⟨x.2, (mem_combinations_iff hr).1 hx⟩
  · rintro ⟨id, hid⟩
    exact ⟨(set, id), (mem_combinations_iff hr).2 hid, rfl⟩

theorem metricIds_of_mem_keyMappings (hk : k ∈ r.keyMappings d prefixText) :
    k.keyColumnName = keyColumnName prefixText k.sourceColumns ∧
      k.metricIds =
        sortedSet (((r.combinations d).filter (·.1 == k.sourceColumns)).map (·.2)) := by
  obtain ⟨set, -, rfl⟩ := List.mem_map.1 hk
  exact ⟨rfl, rfl⟩

/-- The mapping for the columns of a metric is found. -/
theorem find?_keyMappings (hset : normalizeColumns set ∈
    (r.keyMappings d prefixText).map (·.sourceColumns)) :
    ∃ k ∈ r.keyMappings d prefixText, k.sourceColumns = normalizeColumns set ∧
      KeyMapping.find? (r.keyMappings d prefixText) set = some k := by
  obtain ⟨k, hk, hcolumns⟩ := List.mem_map.1 hset
  refine ⟨k, hk, hcolumns, (find?_eq_some_iff_of_nodup ?_).2 ⟨hk, hcolumns⟩⟩
  rw [map_sourceColumns_keyMappings]
  exact nodup_sortedSet _

end Mappings

/-- **The analysis of keys is exact.** There is one mapping for each set of two or
more columns that a base metric combines, in the order of the sets; a mapping lists
the metrics that combine its set, which are the base metrics with the set and the
calculated metrics that compile and rest on one of them; every such base metric finds
its mapping; and the order of declarations makes no difference. -/
theorem keyMappings_exact {document : SchemaDocument} (accepted : ofDocument document = .ok r)
    (d : Sql.Dialect) (prefixText : String) :
    ((r.keyMappings d prefixText).map (·.sourceColumns)).Pairwise (· < ·) ∧
    (∀ set, set ∈ (r.keyMappings d prefixText).map (·.sourceColumns) ↔
      ∃ b ∈ r.baseMetrics, b.Combines set) ∧
    (∀ k ∈ r.keyMappings d prefixText,
      k.keyColumnName = keyColumnName prefixText k.sourceColumns ∧
      k.metricIds.Pairwise (· < ·) ∧
      ∀ id, id ∈ k.metricIds ↔ r.Combines d k.sourceColumns id) ∧
    (∀ b ∈ r.baseMetrics, b.isComposite = true → 2 ≤ (normalizeColumns b.sourceColumns).length →
      ∃ k ∈ r.keyMappings d prefixText, k.sourceColumns = normalizeColumns b.sourceColumns ∧
        KeyMapping.find? (r.keyMappings d prefixText) b.sourceColumns = some k) ∧
    ∀ r', r.Reordered r' → r'.keyMappings d prefixText = r.keyMappings d prefixText := by
  have hr := wellFormed_ofDocument accepted
  refine ⟨?_, fun _ => mem_sourceColumns_keyMappings hr, fun k hk => ?_,
    fun b hb hcomposite hlength => ?_, fun r' h => ?_⟩
  · rw [map_sourceColumns_keyMappings]
    exact pairwise_sortedSet _
  · obtain ⟨hname, hids⟩ := metricIds_of_mem_keyMappings hk
    refine ⟨hname, hids ▸ pairwise_sortedSet _, fun id => ?_⟩
    rw [hids, mem_sortedSet, ← mem_combinations_iff hr]
    simp
  · exact find?_keyMappings
      ((mem_sourceColumns_keyMappings hr).2 ⟨b, hb, hcomposite, rfl, hlength⟩)
  · exact (keyMappings_congr (h.mem_combinations hr) prefixText).symm

/-- Two metrics over the same columns, one of them written otherwise, with metrics
that rest on the first. -/
def visitsDocument : SchemaDocument where
  table := "visits"
  sourceTable := "raw.visits"
  baseMetrics := [
    { id := "rows", sourceColumns := ["id"], aggregation := .count },
    { id := "visits", sourceColumns := ["User", "day"], aggregation := .countDistinct },
    { id := "days", sourceColumns := ["day ", "user"], aggregation := .approxCountDistinct }]
  calculatedMetrics := [
    { id := "twice", formula := "{rate} * 2" },
    { id := "rate", formula := "{visits} / {rows}" },
    { id := "draft", formula := "{visits} +" }]

/-- A metric two steps away from a key is in the mapping, one that does not compile
is not. -/
theorem keyMappings_exact_of_visits :
    ∃ r, ofDocument visitsDocument = .ok r ∧
      r.keyMappings .duckDb "_key_" =
        [⟨"_key_day_user", ["day", "user"], ["days", "rate", "twice", "visits"]⟩] ∧
      r.Combines .duckDb ["day", "user"] "twice" ∧ ¬ r.Combines .duckDb ["day", "user"] "draft" := by
  obtain ⟨r, hr⟩ := Except.exists_of_toBool (x := ofDocument visitsDocument) (by decide +kernel)
  obtain ⟨-, -, hids, -, -⟩ := keyMappings_exact hr .duckDb "_key_"
  obtain rfl := document_of_ofDocument hr
  have hmappings : (⟨visitsDocument⟩ : Registry).keyMappings .duckDb "_key_" =
      [⟨"_key_day_user", ["day", "user"], ["days", "rate", "twice", "visits"]⟩] := by
    decide +kernel
  obtain ⟨-, -, hids⟩ := hids _ (hmappings ▸ List.mem_singleton_self _)
  exact ⟨_, hr, hmappings, (hids "twice").1 (by decide), fun h => absurd ((hids "draft").2 h)
    (by decide)⟩

end Registry

end MetricLayer
