import MetricLayer.Proofs.Sql.Tables
import MetricLayer.Proofs.Warehouse.Interleaving

/-!
# What statements do to tables

A warehouse executes statements one after the other (`Warehouse.Executes`). A
statement that fails changes nothing. Rows are in no order, and the dates that one
table has more than another are told in any order and any number of times.

Work runs against the tables from question to question (`Work.Runs`), while its
state may be changed by others at each.
-/

namespace MetricLayer

namespace Sql

/-- The tables of a warehouse, by name. -/
abbrev Tables := String → Option Table

namespace Warehouse

variable (w : Warehouse)

/-- The values of a column that are in one table and not in the other. -/
def missing (source target : Table) (name : String) : List Value :=
  (w.column source name).filter fun v => v.isSome &&
    (v.isIn ((w.column target name).filter Option.isSome) true).holds

def missingTexts (source target : Table) (name : String) : List String :=
  (w.missing source target name).filterMap fun v =>
    match w.engine.call .castToString [v] with
    | some (.text s) => some s
    | _ => none

/-- What a statement may answer, and the tables after it. -/
inductive Executes (tables : Tables) :
    Statement → Except Error QueryResult → Tables → Prop where
  | failed (statement : Statement) (e : Error) : Executes tables statement (.error e) tables
  | createTable {target : String} {query : Select} {partitionBy : Option String}
      {clusterBy : List String} {source built : Table} (reply : QueryResult)
      (hsource : tables query.source = some source) (hbuilt : built.Same (query.answer w source)) :
      Executes tables (.createTable target query partitionBy clusterBy) (.ok reply)
        (Function.update tables target (some built))
  | insert {target : String} {query : Select} {source old new : Table} (reply : QueryResult)
      (hsource : tables query.source = some source) (hold : tables target = some old)
      (hcolumns : new.columns = old.columns)
      (hrows : new.rows.Perm (old.rows ++ (query.answer w source).rows)) :
      Executes tables (.insert target query) (.ok reply) (Function.update tables target (some new))
  | missingPartitions {source target column : String} {has lacks : Table} {reply : QueryResult}
      (hsource : tables source = some has) (htarget : tables target = some lacks)
      (htexts : ∀ text, text ∈ reply.texts "partition_date" ↔
        text ∈ w.missingTexts has lacks column) :
      Executes tables (.missingPartitions source target column) (.ok reply) tables
  -- the answers to other questions are left open
  | maxPartition (table column : String) (reply : QueryResult) :
      Executes tables (.maxPartition table column) (.ok reply) tables
  | rowCount (table : String) (reply : QueryResult) :
      Executes tables (.rowCount table) (.ok reply) tables
  | cardinality (table column : String) (reply : QueryResult) :
      Executes tables (.cardinality table column) (.ok reply) tables
  | probe (table sql : String) (reply : QueryResult) :
      Executes tables (.probe table sql) (.ok reply) tables

variable {w} {source target : Table} {name : String}

theorem mem_missing {v : Value} : v ∈ w.missing source target name ↔
    v ∈ w.column source name ∧ v ≠ none ∧ v ∉ w.column target name := by
  rw [missing, List.mem_filter, Bool.and_eq_true, Value.holds_isIn_negated]
  cases v <;> simp

end Warehouse

end Sql

namespace Work

variable {σ α : Type}

/-- Work goes on to its end, and the statements that it has executed by then. -/
inductive Pause.Runs (w : Sql.Warehouse) : Pause σ α → Sql.Tables → List Sql.Statement →
    Except Error α → Sql.Tables → Prop where
  | ended (result : Except Error α) (tables : Sql.Tables) :
      Runs w (.ended result) tables [] result tables
  | execute {statement : Sql.Statement} {next : Except Error QueryResult → Work σ α}
      {cleanups : List (σ → σ)} {tables tables' after : Sql.Tables}
      {reply : Except Error QueryResult} {log : List Sql.Statement} {result : Except Error α} (s : σ)
      (hreply : w.Executes tables statement reply tables')
      (hrest : Runs w ((next reply).advance cleanups s).1 tables' log result after) :
      Runs w (.asking (.execute statement) next cleanups) tables (statement :: log) result after
  | dryRun {statement : Sql.Statement} {next : Except Error Unit → Work σ α}
      {cleanups : List (σ → σ)} {tables after : Sql.Tables} {log : List Sql.Statement}
      {result : Except Error α} (s : σ) (reply : Except Error Unit)
      (hrest : Runs w ((next reply).advance cleanups s).1 tables log result after) :
      Runs w (.asking (.dryRun statement) next cleanups) tables log result after
  | columns {table : String} {next : Except Error TableColumns → Work σ α}
      {cleanups : List (σ → σ)} {tables after : Sql.Tables} {log : List Sql.Statement}
      {result : Except Error α} (s : σ) (reply : Except Error TableColumns)
      (hrest : Runs w ((next reply).advance cleanups s).1 tables log result after) :
      Runs w (.asking (.columns table) next cleanups) tables log result after
  | counts {queries : List CountQuery} {next : Except Error (List UInt64) → Work σ α}
      {cleanups : List (σ → σ)} {tables after : Sql.Tables} {log : List Sql.Statement}
      {result : Except Error α} (s : σ) (reply : Except Error (List UInt64))
      (hrest : Runs w ((next reply).advance cleanups s).1 tables log result after) :
      Runs w (.counting queries next cleanups) tables (queries.map (·.statement) ++ log) result after

/-- A run of work that begins at `s`. -/
def Runs (w : Sql.Warehouse) (work : Work σ α) (s : σ) (tables : Sql.Tables)
    (log : List Sql.Statement) (result : Except Error α) (after : Sql.Tables) : Prop :=
  (work.advance [] s).1.Runs w tables log result after

end Work

end MetricLayer
