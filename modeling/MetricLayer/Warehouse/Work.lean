import MetricLayer.Error
import MetricLayer.Sql.Statement
import MetricLayer.Warehouse.ColumnCache
import MetricLayer.Warehouse.QueryResult

/-!
# Work that waits for a warehouse

A piece of `Work` reads and writes a state of type `σ` and asks a warehouse for
answers. It stops at each question, so other work may run and change the state
before it goes on. Work may be dropped at a question; what it has put under a
cleanup by then is undone, the last cleanup first. The same cleanups run when
the work ends, but for those that it has disarmed.
-/

namespace MetricLayer

/-- A question to a warehouse. -/
inductive Call where
  | execute (statement : Sql.Statement)
  /-- Ask whether a statement would run. -/
  | dryRun (statement : Sql.Statement)
  | columns (table : String)

abbrev Call.Reply : Call → Type
  | .execute _ => QueryResult
  | .dryRun _ => Unit
  | .columns _ => TableColumns

/-- A statement that answers one number, and the error if it does not. -/
structure CountQuery where
  statement : Sql.Statement
  noCount : Error

def CountQuery.read (q : CountQuery) (r : QueryResult) : Except Error UInt64 :=
  match r.count? with
  | some n => .ok n
  | none => .error q.noCount

inductive Work (σ α : Type) where
  | done (result : Except Error α)
  | read (next : σ → Work σ α)
  | write (state : σ) (rest : Work σ α)
  | ask (call : Call) (next : Except Error call.Reply → Work σ α)
  /-- Ask for several numbers at once; the first to fail is the answer. -/
  | countAll (queries : List CountQuery) (next : Except Error (List UInt64) → Work σ α)
  /-- Put what follows under a cleanup. -/
  | guarded (cleanup : σ → σ) (rest : Work σ α)
  /-- Take the last cleanup off. -/
  | disarm (rest : Work σ α)

/-- A step on a state that is not interrupted. A failed step may have changed
the state. -/
abbrev Action (σ : Type) : Type → Type := ExceptT Error (StateM σ)

namespace Work

/-- Go on with the result, be it a value or an error. -/
def andThen (w : Work σ α) (f : Except Error α → Work σ β) : Work σ β :=
  match w with
  | .done result => f result
  | .read next => .read fun s => (next s).andThen f
  | .write s rest => .write s (rest.andThen f)
  | .ask call next => .ask call fun reply => (next reply).andThen f
  | .countAll queries next => .countAll queries fun reply => (next reply).andThen f
  | .guarded cleanup rest => .guarded cleanup (rest.andThen f)
  | .disarm rest => .disarm (rest.andThen f)

def bind (w : Work σ α) (f : α → Work σ β) : Work σ β :=
  w.andThen fun
    | .ok a => f a
    | .error e => .done (.error e)

/-- The work with its error as a value. -/
def attempt (w : Work σ α) : Work σ (Except Error α) := w.andThen fun result => .done (.ok result)

instance : Monad (Work σ) where
  pure a := .done (.ok a)
  bind := bind

instance : MonadExceptOf Error (Work σ) where
  throw e := .done (.error e)
  tryCatch w handle := w.andThen fun
    | .ok a => .done (.ok a)
    | .error e => handle e

instance : MonadLift (Except Error) (Work σ) := ⟨.done⟩

def act (step : Action σ α) : Work σ α :=
  .read fun s => match step.run s with
    | (result, s) => .write s (.done result)

instance : MonadLift (Action σ) (Work σ) := ⟨act⟩

/-- A part of the state. -/
def view (part : σ → α) : Work σ α := .read fun s => .done (.ok (part s))

def change (f : σ → σ) : Work σ Unit := .read fun s => .write (f s) (.done (.ok ()))

def call (c : Call) : Work σ c.Reply := .ask c .done

def execute (statement : Sql.Statement) : Work σ QueryResult := call (.execute statement)

def counts (queries : List CountQuery) : Work σ (List UInt64) := .countAll queries .done

/-- From here to the end `cleanup` is to run, whatever happens. -/
def protect (cleanup : σ → σ) : Work σ Unit := .guarded cleanup (.done (.ok ()))

/-- The last cleanup is not needed any more. -/
def release : Work σ Unit := .disarm (.done (.ok ()))

/-- The state after the cleanups. -/
def unwind (cleanups : List (σ → σ)) (s : σ) : σ := cleanups.foldl (fun s cleanup => cleanup s) s

end Work

end MetricLayer
