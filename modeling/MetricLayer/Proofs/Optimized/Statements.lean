import MetricLayer.Proofs.Optimized.Incremental
import MetricLayer.Proofs.Sql.Names

/-!
# The statements of equal plans

Plans are compared by all that makes a table but for the table that it is a copy of
(`OptimizedSource.samePlan_iff`). So equal plans build their tables by the same
statements, and add to them by the same, just where they copy the same table
(`OptimizedSource.statements_eq_iff_of_samePlan`): a query names its table once, and
names are told apart in every dialect.
-/

namespace MetricLayer

namespace Sql

/-- A query over another table is another text. -/
theorem Select.render_source_inj (d : Dialect) (q : Select) {source source' : String} :
    ({ q with source } : Select).render d = ({ q with source := source' } : Select).render d ↔
      source = source' := by
  simp only [render, String.append_left_inj, String.append_right_inj,
    (Dialect.quoteTable_injective d).eq_iff]

theorem Dialect.createTable_inj (d : Dialect) (target : String) (partitionBy : Option String)
    (clusterBy : List String) {select select' : String} :
    d.createTable target select partitionBy clusterBy =
      d.createTable target select' partitionBy clusterBy ↔ select = select' :=
  String.append_right_inj _

end Sql

namespace OptimizedSource

variable {a b : OptimizedSource}

theorem samePlan_iff : a.samePlan b = true ↔
    a.optimizedTable = b.optimizedTable ∧ a.partitionColumn = b.partitionColumn ∧
      a.clusterColumns = b.clusterColumns ∧ a.keyMappings = b.keyMappings := by
  simp only [samePlan, Bool.and_eq_true, beq_iff_eq, and_assoc]

/-- A plan that is equal to another may copy another table, and its table may have been
built at another time. -/
theorem exists_eq_of_samePlan (h : a.samePlan b = true) :
    ∃ sourceTable build, b = { a with sourceTable, build } := by
  obtain ⟨htable, hpartition, hclusters, hkeys⟩ := samePlan_iff.1 h
  exact ⟨b.sourceTable, b.build, by rw [htable, hpartition, hclusters, hkeys]⟩

theorem render_fullRefresh (d : Sql.Dialect) (s : OptimizedSource) : s.fullRefresh.render d =
    d.createTable s.optimizedTable (s.query.render d) (some s.partitionColumn) s.clusterColumns :=
  rfl

theorem render_fullRefresh_inj (d : Sql.Dialect) (s : OptimizedSource) {sourceTable : String}
    {build : BuildState} :
    s.fullRefresh.render d =
      ({ s with sourceTable, build } : OptimizedSource).fullRefresh.render d ↔
        s.sourceTable = sourceTable := by
  rw [render_fullRefresh, render_fullRefresh, Sql.Dialect.createTable_inj]
  exact Sql.Select.render_source_inj d s.query

theorem render_incremental? (d : Sql.Dialect) (s : OptimizedSource) {missing : List Date}
    (h : missing ≠ []) : (s.incremental? missing).map (·.render d) =
      some ("INSERT INTO " ++ d.quoteTable s.optimizedTable ++ " " ++
        (s.ofDates missing).render d) := by
  rw [incremental?_eq, if_neg (by simpa using h)]
  rfl

theorem render_incremental?_inj (d : Sql.Dialect) (s : OptimizedSource) {sourceTable : String}
    {build : BuildState} {missing : List Date} (h : missing ≠ []) :
    (s.incremental? missing).map (·.render d) =
      (({ s with sourceTable, build } : OptimizedSource).incremental? missing).map (·.render d) ↔
      s.sourceTable = sourceTable := by
  rw [render_incremental? d _ h, render_incremental? d _ h, Option.some_inj,
    String.append_right_inj]
  exact Sql.Select.render_source_inj d (s.ofDates missing)

/-- **Statements of equal plans**: they build their tables by the same statement just
where they copy the same table, and so they add the rows of dates. -/
theorem statements_eq_iff_of_samePlan (h : a.samePlan b = true) (d : Sql.Dialect) :
    (a.fullRefresh.render d = b.fullRefresh.render d ↔ a.sourceTable = b.sourceTable) ∧
    ∀ missing, (a.incremental? missing).map (·.render d) =
      (b.incremental? missing).map (·.render d) ↔ missing = [] ∨ a.sourceTable = b.sourceTable := by
  obtain ⟨sourceTable, build, rfl⟩ := exists_eq_of_samePlan h
  refine ⟨render_fullRefresh_inj d a, fun missing => ?_⟩
  by_cases hmissing : missing = []
  · subst hmissing
    exact iff_of_true rfl (.inl rfl)
  · rw [render_incremental?_inj d a hmissing]
    exact (or_iff_right hmissing).symm

/-- A copy of searches with a key over two columns, in partitions and clusters. -/
def searches : OptimizedSource where
  sourceTable := "raw.search"
  optimizedTable := "raw.search_optimized"
  partitionColumn := "date"
  clusterColumns := ["country"]
  keyMappings := [⟨"_key_query_visit_id", ["query", "visit_id"], ["unique_searches"]⟩]

/-- The plan of a table that is stale is still that of its statements. -/
theorem statements_eq_of_stale :
    let stale := { searches with build := { status := .stale } }
    searches.samePlan stale = true ∧
      searches.fullRefresh.render .bigQuery = stale.fullRefresh.render .bigQuery ∧
      ∀ missing, (searches.incremental? missing).map (·.render .bigQuery) =
        (stale.incremental? missing).map (·.render .bigQuery) := by
  intro stale
  have hsame : searches.samePlan stale = true := by decide +kernel
  obtain ⟨hfull, hincremental⟩ := statements_eq_iff_of_samePlan hsame .bigQuery
  exact ⟨hsame, hfull.2 rfl, fun missing => (hincremental missing).2 (.inr rfl)⟩

/-- Copies of two tables in one place are equal plans, and are built by different
statements. -/
theorem exists_samePlan_statements_ne :
    let other := { searches with sourceTable := "raw.search_v2" }
    searches.samePlan other = true ∧ ∀ d ∈ [Sql.Dialect.bigQuery, .duckDb],
      searches.fullRefresh.render d ≠ other.fullRefresh.render d ∧
      (searches.incremental? [⟨2024, 3, 1, by decide⟩]).map (·.render d) ≠
        (other.incremental? [⟨2024, 3, 1, by decide⟩]).map (·.render d) := by
  decide +kernel

end OptimizedSource

end MetricLayer
