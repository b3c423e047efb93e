import MetricLayer.Warehouse.Work

/-!
# A warehouse that answers from a script

The answers of a scripted warehouse are laid down in advance. It notes each
question in the order in which they come. `Work.runUntil` runs work against it
and stops before the answer to the first statement that contains a given text:
there the work can be resumed or dropped.
-/

namespace MetricLayer

structure Script where
  /-- The columns of every table. -/
  columns : TableColumns := {}
  /-- The answer to a statement is the first whose text the statement contains. -/
  responses : List (String × QueryResult) := []
  /-- A question that contains this text fails. -/
  failOn : Option String := none

/-- A question as it was put to a warehouse. -/
structure Noted where
  verb : String
  subject : String
  deriving DecidableEq, Repr

def Noted.text (n : Noted) : String := n.verb ++ ": " ++ n.subject

def Call.noted (d : Sql.Dialect) : Call → Noted
  | .execute statement => ⟨"execute", statement.render d⟩
  | .dryRun statement => ⟨"dry_run", statement.render d⟩
  | .columns table => ⟨"fetch_schema", table⟩

namespace Script

/-- The text that makes a question fail, if it contains one. -/
def failure? (script : Script) (question : String) : Option String :=
  script.failOn.filter (Text.contains question)

def failureText (part : String) : String := "injected failure on " ++ part

/-- What a statement answers that does not fail. -/
def response (script : Script) (sql : String) : QueryResult :=
  ((script.responses.find? fun r => Text.contains sql r.1).map (·.2)).getD {}

def answer (script : Script) (d : Sql.Dialect) : (call : Call) → Except Error call.Reply
  | .execute statement =>
    let sql := statement.render d
    match script.failure? sql with
    | some part => .error (.warehouse (failureText part))
    | none => .ok (script.response sql)
  | .dryRun statement =>
    match script.failure? (statement.render d) with
    | some part =>
      .error (.schema (.refusedStatement (Error.warehouse (failureText part)).message))
    | none => .ok ()
  | .columns table =>
    match script.failure? ("fetch_schema " ++ table) with
    | some part => .error (.warehouse (failureText part))
    | none => .ok script.columns

end Script

/-- A state beside a scripted warehouse and the questions put to it. -/
structure Stage (σ : Type) where
  state : σ
  script : Script := {}
  /-- The latest question first. -/
  questions : List Noted := []

namespace Stage

def note (s : Stage σ) (d : Sql.Dialect) (call : Call) : Stage σ :=
  { s with questions := call.noted d :: s.questions }

def unwind (s : Stage σ) (cleanups : List (σ → σ)) : Stage σ :=
  { s with state := Work.unwind cleanups s.state }

/-- The number that a query answers. -/
def count (s : Stage σ) (d : Sql.Dialect) (q : CountQuery) : Except Error UInt64 :=
  (s.script.answer d (.execute q.statement)).bind q.read

end Stage

/-- Where a run stands. -/
inductive Progress (σ α : Type) where
  | finished (result : Except Error α)
  /-- Stopped before an answer. -/
  | parked (resume : Stage σ → Except Error α × Stage σ) (drop : Stage σ → Stage σ)

/-- Several numbers, as far as they are known. -/
inductive Counts where
  | known (result : Except Error (List UInt64))
  /-- One number is missing between others. -/
  | waiting (before : List UInt64) (query : CountQuery) (after : List UInt64)

namespace Counts

def cons (n : UInt64) : Counts → Counts
  | .known result => .known (result.map (n :: ·))
  | .waiting before query after => .waiting (n :: before) query after

end Counts

namespace Stage

/-- Put queries one after the other, up to the first that fails. -/
def countAll (d : Sql.Dialect) : List CountQuery → Stage σ → Except Error (List UInt64) × Stage σ
  | [], s => (.ok [], s)
  | q :: queries, s =>
    let s := s.note d (.execute q.statement)
    match s.count d q with
    | .error e => (.error e, s)
    | .ok n =>
      let (result, s) := countAll d queries s
      (result.map (n :: ·), s)

/-- The same, but one query waits for its answer while the others go on. -/
def countUntil (d : Sql.Dialect) (stopAt : String) :
    List CountQuery → Stage σ → Counts × Stage σ
  | [], s => (.known (.ok []), s)
  | q :: queries, s =>
    let s := s.note d (.execute q.statement)
    if Text.contains (q.statement.render d) stopAt then
      match countAll d queries s with
      | (.error e, s) => (.known (.error e), s)
      | (.ok after, s) => (.waiting [] q after, s)
    else match s.count d q with
      | .error e => (.known (.error e), s)
      | .ok n =>
        let (counts, s) := countUntil d stopAt queries s
        (counts.cons n, s)

end Stage

namespace Work

/-- Run to the end. -/
def run (d : Sql.Dialect) : Work σ α → List (σ → σ) → Stage σ → Except Error α × Stage σ
  | .done result, cleanups, s => (result, s.unwind cleanups)
  | .read next, cleanups, s => (next s.state).run d cleanups s
  | .write state rest, cleanups, s => rest.run d cleanups { s with state }
  | .ask call next, cleanups, s =>
    let s := s.note d call
    (next (s.script.answer d call)).run d cleanups s
  | .countAll queries next, cleanups, s =>
    let (reply, s) := s.countAll d queries
    (next reply).run d cleanups s
  | .guarded cleanup rest, cleanups, s => rest.run d (cleanup :: cleanups) s
  | .disarm rest, cleanups, s => rest.run d cleanups.tail s

/-- Run up to the answer to the first statement that contains `stopAt`. -/
def runUntil (d : Sql.Dialect) (stopAt : String) :
    Work σ α → List (σ → σ) → Stage σ → Progress σ α × Stage σ
  | .done result, cleanups, s => (.finished result, s.unwind cleanups)
  | .read next, cleanups, s => (next s.state).runUntil d stopAt cleanups s
  | .write state rest, cleanups, s => rest.runUntil d stopAt cleanups { s with state }
  | .ask (.execute statement) next, cleanups, s =>
    let s := s.note d (.execute statement)
    if Text.contains (statement.render d) stopAt then
      (.parked
        (fun s => (next (s.script.answer d (.execute statement))).run d cleanups s)
        (fun s => s.unwind cleanups), s)
    else (next (s.script.answer d (.execute statement))).runUntil d stopAt cleanups s
  | .ask call next, cleanups, s =>
    let s := s.note d call
    (next (s.script.answer d call)).runUntil d stopAt cleanups s
  | .countAll queries next, cleanups, s =>
    match s.countUntil d stopAt queries with
    | (.known reply, s) => (next reply).runUntil d stopAt cleanups s
    | (.waiting before query after, s) =>
      (.parked
        (fun s =>
          (next ((s.count d query).map fun n => before ++ n :: after)).run d cleanups s)
        (fun s => s.unwind cleanups), s)
  | .guarded cleanup rest, cleanups, s => rest.runUntil d stopAt (cleanup :: cleanups) s
  | .disarm rest, cleanups, s => rest.runUntil d stopAt cleanups.tail s

end Work

end MetricLayer
