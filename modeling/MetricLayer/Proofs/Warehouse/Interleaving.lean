import MetricLayer.Proofs.Outcome
import MetricLayer.Warehouse.Script

/-!
# Work under way

Work that waits for a warehouse goes on from question to question (`advance`,
`Pause.resume`), and other work may change the state in between. Where it waits
it can be dropped, which runs the cleanups put up by then (`Pause.drop`).

- `run_eq_finish`: work run to its end is work taken from question to question.
- `advance_act_bind` and its siblings: how the first step of a task goes.
- `respond`: a task that asks once at most, with the answer.
-/

namespace MetricLayer

namespace Work

variable {σ α β : Type}

/-- Where work stands: at its end, or before an answer, with the cleanups that are
up. -/
inductive Pause (σ α : Type) where
  | ended (result : Except Error α)
  | asking (call : Call) (next : Except Error call.Reply → Work σ α) (cleanups : List (σ → σ))
  | counting (queries : List CountQuery) (next : Except Error (List UInt64) → Work σ α)
      (cleanups : List (σ → σ))

/-- Go on to the next question or to the end. -/
def advance : Work σ α → List (σ → σ) → σ → Pause σ α × σ
  | .done result, cleanups, s => (.ended result, unwind cleanups s)
  | .read next, cleanups, s => (next s).advance cleanups s
  | .write s rest, cleanups, _ => rest.advance cleanups s
  | .ask call next, cleanups, s => (.asking call next cleanups, s)
  | .countAll queries next, cleanups, s => (.counting queries next cleanups, s)
  | .guarded cleanup rest, cleanups, s => rest.advance (cleanup :: cleanups) s
  | .disarm rest, cleanups, s => rest.advance cleanups.tail s

/-- What a warehouse answers. -/
structure Answers where
  reply : (call : Call) → Except Error call.Reply
  counts : List CountQuery → Except Error (List UInt64)

namespace Pause

def hasEnded : Pause σ α → Bool
  | .ended _ => true
  | .asking .. | .counting .. => false

/-- Go on with the answer to the question. -/
def resume (answers : Answers) : Pause σ α → σ → Pause σ α × σ
  | .ended result, s => (.ended result, s)
  | .asking call next cleanups, s => (next (answers.reply call)).advance cleanups s
  | .counting queries next cleanups, s => (next (answers.counts queries)).advance cleanups s

/-- The state after the work is dropped. -/
def drop : Pause σ α → σ → σ
  | .ended _, s => s
  | .asking _ _ cleanups, s | .counting _ _ cleanups, s => unwind cleanups s

/-- Go on to the end with the answers of a script. -/
def finish (d : Sql.Dialect) : Pause σ α → Stage σ → Except Error α × Stage σ
  | .ended result, s => (result, s)
  | .asking call next cleanups, s =>
    (next (s.script.answer d call)).run d cleanups (s.note d call)
  | .counting queries next cleanups, s =>
    (next (s.countAll d queries).1).run d cleanups (s.countAll d queries).2

end Pause

/-- Work with the answer to its first question. -/
def respond (answers : Answers) (w : Work σ α) (s : σ) : Pause σ α × σ :=
  let (p, t) := w.advance [] s
  p.resume answers t

/-- Work run to its end is work taken from question to question. -/
theorem run_eq_finish (d : Sql.Dialect) (w : Work σ α) (cleanups : List (σ → σ)) (s : Stage σ) :
    w.run d cleanups s =
      (w.advance cleanups s.state).1.finish d
        { s with state := (w.advance cleanups s.state).2 } := by
  induction w generalizing cleanups s with
  | done result => rfl
  | read next ih => exact ih s.state cleanups s
  | write state rest ih => exact ih cleanups { s with state }
  | ask call next ih => rfl
  | countAll queries next ih => rfl
  | guarded cleanup rest ih => exact ih (cleanup :: cleanups) s
  | disarm rest ih => exact ih cleanups.tail s

/-! ## The steps of a task -/

variable {cleanups : List (σ → σ)} {s : σ}

theorem advance_act_bind (step : Action σ α) (f : α → Work σ β) :
    ((act step).bind f).advance cleanups s =
      match step.run s with
      | (.ok a, s) => (f a).advance cleanups s
      | (.error e, s) => (.ended (.error e), unwind cleanups s) := by
  simp only [act, Work.bind, andThen, advance]
  rcases step.run s with ⟨result, s'⟩
  cases result <;> rfl

theorem advance_protect_bind (cleanup : σ → σ) (f : Unit → Work σ β) :
    ((protect cleanup).bind f).advance cleanups s = (f ()).advance (cleanup :: cleanups) s := rfl

theorem advance_release_bind (f : Unit → Work σ β) :
    (release.bind f).advance cleanups s = (f ()).advance cleanups.tail s := rfl

theorem advance_done_bind (result : Except Error α) (f : α → Work σ β) :
    ((Work.done result).bind f).advance cleanups s =
      match result with
      | .ok a => (f a).advance cleanups s
      | .error e => (.ended (.error e), unwind cleanups s) := by
  cases result <;> rfl

theorem respond_act (answers : Answers) (step : Action σ α) (s : σ) :
    (act step).respond answers s = (.ended (step.run s).1, (step.run s).2) := by
  rw [respond, act, advance]
  rcases step.run s with ⟨result, s'⟩
  rfl

theorem respond_act_bind (answers : Answers) (step : Action σ α) (f : α → Work σ β) (s : σ) :
    ((act step).bind f).respond answers s =
      match step.run s with
      | (.ok a, s) => (f a).respond answers s
      | (.error e, s) => (.ended (.error e), s) := by
  rw [respond, advance_act_bind]
  rcases step.run s with ⟨result, s'⟩
  cases result <;> rfl

theorem andThen_assoc {γ : Type} (w : Work σ α) (f : Except Error α → Work σ β)
    (g : Except Error β → Work σ γ) :
    (w.andThen f).andThen g = w.andThen fun result => (f result).andThen g := by
  induction w <;> simp_all [andThen]

theorem bind_assoc {γ : Type} (w : Work σ α) (f : α → Work σ β) (g : β → Work σ γ) :
    (w.bind f).bind g = w.bind fun a => (f a).bind g := by
  simp only [Work.bind, andThen_assoc]
  congr 1
  funext result
  cases result <;> rfl

end Work

end MetricLayer
