import MetricLayer.Proofs.Formula.Expansion
import MetricLayer.Proofs.Registry.Cycles

/-!
# Expanding on one stack

The calculated metrics under expansion stand on one stack, which is shared by all
that is expanded: a metric is pushed before its formula is lowered and popped when
this is done, whether it succeeded or not. `Registry.compileIn` compiles in this
way, follows references down to a given depth only, and cuts off there.

Once the depth exceeds the numbers of metrics and of references it is never
reached: whatever is done at the cut-off, the run comes to what `compile` says,
opens no metric inside itself and leaves the stack as it was
(`Registry.yields_compileIn`).
-/

namespace MetricLayer

open Sql (Expr)

/-- A calculated metric is entered for its expansion, or left again. -/
inductive Turn where
  | enter (name : String)
  | leave (name : String)
  deriving DecidableEq, Repr

/-- The metrics that are open after some turns, the innermost last. None may be entered
that is open, and none left but the innermost. -/
def Turn.follow : (stack : List String) → (turns : List Turn) → Option (List String)
  | stack, [] => some stack
  | stack, .enter name :: rest =>
    if name ∈ stack then none else follow (stack ++ [name]) rest
  | stack, .leave name :: rest =>
    if stack.getLast? = some name then follow stack.dropLast rest else none

theorem Turn.follow_append (stack : List String) (turns more : List Turn) :
    follow stack (turns ++ more) = (follow stack turns).bind (follow · more) := by
  induction turns generalizing stack with
  | nil => rfl
  | cons turn rest ih =>
    cases turn with
    | enter name =>
      rw [List.cons_append, follow, follow]
      split
      · rfl
      · exact ih _
    | leave name =>
      rw [List.cons_append, follow, follow]
      split
      · exact ih _
      · rfl

/-- The metrics under expansion, and the turns taken so far. -/
structure Unfolding where
  stack : List String
  turns : List Turn

namespace Unfolding

def enter (s : Unfolding) (name : String) : Unfolding :=
  ⟨s.stack ++ [name], s.turns ++ [.enter name]⟩

def leave (s : Unfolding) (name : String) : Unfolding :=
  ⟨s.stack.dropLast, s.turns ++ [.leave name]⟩

/-- Enter `name`, do what is inside, and leave it whatever comes out. -/
def within {α : Type} (name : String) (inner : Action Unfolding α) : Action Unfolding α :=
  ExceptT.mk fun s =>
    let (result, s) := inner.run (s.enter name)
    (result, s.leave name)

end Unfolding

namespace Formula

variable {σ : Type}

mutual

/-- `lower`, where a reference is resolved by an action. -/
def lowerIn (resolve : String → Action σ Expr) : Formula → Action σ Expr
  | .reference name => resolve name
  | .number digits => pure (.raw digits)
  | .literal value => pure (.ofText value)
  | .negate operand => do
    let e ← operand.lowerIn resolve
    pure (.negate e)
  | .group inner => do
    let e ← inner.lowerIn resolve
    pure (.nested e)
  | .binary op left right => do
    let l ← left.lowerIn resolve
    let r ← right.lowerIn resolve
    pure (op.apply l r)
  | .call name arguments =>
    match Sql.Function.ofFormulaName? name with
    | none => throw (.functionNotAllowed (Text.upperAscii name))
    | some f =>
      if f.arity.admits arguments.length then do
        let es ← lowerAllIn resolve arguments
        pure (.call f es)
      else throw (.wrongArity (Text.upperAscii name) f.arity arguments.length)

def lowerAllIn (resolve : String → Action σ Expr) : List Formula → Action σ (List Expr)
  | [] => pure []
  | f :: rest => do
    let e ← f.lowerIn resolve
    let es ← lowerAllIn resolve rest
    pure (e :: es)

end

end Formula

/-- What is done where references are to be followed no deeper. -/
structure CutOff where
  expand : String → Action Unfolding Expr
  search : List String → String → Option (List String) × List String

/-- `cycleThrough?`, where paths are searched down to a depth. -/
def DependencyGraph.cycleThroughDown? (g : DependencyGraph) (cutOff : CutOff) (depth : Nat)
    (id : String) (dependencies : List String) : Option (List String) :=
  dependencies.findSome? fun dependency =>
    if dependency == id then some [id, id]
    else (g.searchDown id cutOff.search depth [] dependency).1.map (id :: ·)

namespace Registry

variable (r : Registry) (cutOff : CutOff)

/-- `expand` on the shared stack, down to a depth. -/
def expandIn : (depth : Nat) → (name : String) → Action Unfolding Expr
  | 0, name => cutOff.expand name
  | depth + 1, name =>
    match r.baseMetric? name with
    | some m => pure m.expr
    | none =>
      match r.calculatedMetric? name with
      | some m => do
        let s ← get
        if s.stack.contains name then throw (.circularDependency (s.stack ++ [name]))
        else do
          let e ← Unfolding.within name do
            let f ← liftM ((Formula.read m.formula).mapError Error.formula)
            f.lowerIn (expandIn depth)
          pure (.nested e)
      | none =>
        match SystemMetric.ofId? name with
        | some m => pure (m.expr r.dateColumn)
        | none => throw (.unknown name)

/-- `compile` on the shared stack, following references down to a depth. -/
def compileIn (depth : Nat) (d : Sql.Dialect) (formula : String) (current : Option String) :
    Action Unfolding CompiledFormula := do
  let references ← liftM ((extractReferences formula).mapError Error.reference)
  let (dependsOnBase, dependsOnCalculated, unknown) :=
    r.classify current (uniqueNames references)
  if !unknown.isEmpty then throw (.unknownReferences unknown)
  else
    let cycle? := current.bind fun id =>
      (DependencyGraph.ofRegistry r).cycleThroughDown? cutOff depth id dependsOnCalculated
    match cycle? with
    | some cycle => throw (.circularDependency cycle)
    | none => do
      let f ← liftM ((Formula.read formula).mapError Error.formula)
      let expr ← f.lowerIn (r.expandIn cutOff depth)
      let sql := expr.render d
      liftM ((Sql.guardSql sql).mapError Error.guard)
      return { sql, expr, dependsOnBase, dependsOnCalculated }

end Registry

/-! ## What a run yields -/

/-- With `stack` under expansion, the action comes to `result`, and leaves all that it
enters. -/
def Yields {α : Type} (stack : List String) (action : Action Unfolding α)
    (result : Except Error α) : Prop :=
  ∀ turns, ∃ more, Turn.follow stack more = some stack ∧
    action.run ⟨stack, turns⟩ = (result, ⟨stack, turns ++ more⟩)

namespace Yields

variable {α β : Type} {stack : List String}

theorem of_run {action : Action Unfolding α} {result : Except Error α}
    (h : ∀ s, action.run s = (result, s)) : Yields stack action result :=
  fun turns => ⟨[], rfl, by rw [h, List.append_nil]⟩

theorem pure (a : α) : Yields stack (Pure.pure a) (.ok a) := of_run fun _ => rfl

theorem throw (e : Error) : Yields stack (MonadExcept.throw e : Action Unfolding α) (.error e) :=
  of_run fun _ => rfl

theorem lift (result : Except Error α) :
    Yields stack (liftM result : Action Unfolding α) result :=
  of_run fun s => Action.run_lift result s

theorem bind {action : Action Unfolding α} {result : Except Error α}
    {f : α → Action Unfolding β} {g : α → Except Error β} (h : Yields stack action result)
    (hf : ∀ a, Yields stack (f a) (g a)) : Yields stack (action >>= f) (result >>= g) := by
  intro turns
  obtain ⟨more, hmore, hrun⟩ := h turns
  rw [Action.run_bind, hrun]
  cases result with
  | error e => exact ⟨more, hmore, rfl⟩
  | ok a =>
    obtain ⟨rest, hrest, hrun'⟩ := hf a (turns ++ more)
    refine ⟨more ++ rest, ?_, ?_⟩
    · rw [Turn.follow_append, hmore, Option.bind_some, hrest]
    · rw [← List.append_assoc]
      exact hrun'

theorem get {f : Unfolding → Action Unfolding α} {result : Except Error α}
    (h : ∀ turns, Yields stack (f ⟨stack, turns⟩) result) :
    Yields stack (MonadState.get >>= f) result :=
  fun turns => h turns turns

/-- What is entered and was not open is left again. -/
theorem within {name : String} {inner : Action Unfolding α} {result : Except Error α}
    (hname : name ∉ stack) (h : Yields (stack ++ [name]) inner result) :
    Yields stack (Unfolding.within name inner) result := by
  intro turns
  obtain ⟨more, hmore, hrun⟩ := h (turns ++ [.enter name])
  refine ⟨.enter name :: more ++ [.leave name], ?_, ?_⟩
  · rw [List.cons_append, Turn.follow, if_neg hname, Turn.follow_append, hmore]
    simp [Turn.follow]
  · change ((inner.run ⟨stack ++ [name], turns ++ [.enter name]⟩).1,
      (inner.run ⟨stack ++ [name], turns ++ [.enter name]⟩).2.leave name) = _
    rw [hrun, Unfolding.leave]
    simp

end Yields

namespace Formula

variable {stack : List String} {resolveIn : String → Action Unfolding Expr}
  {resolve : String → Except Error Expr}

mutual

/-- A formula is lowered on a stack that its references leave as it is. -/
theorem yields_lowerIn (h : ∀ name, Yields stack (resolveIn name) (resolve name)) :
    (f : Formula) → Yields stack (f.lowerIn resolveIn) (f.lower resolve)
  | .reference name => h name
  | .number _ | .literal _ => .pure _
  | .negate f | .group f => (yields_lowerIn h f).bind fun _ => .pure _
  | .binary _ l r => (yields_lowerIn h l).bind fun _ => (yields_lowerIn h r).bind fun _ => .pure _
  | .call name arguments => by
    rw [lowerIn, lower]
    cases Sql.Function.ofFormulaName? name with
    | none => exact .throw _
    | some f =>
      dsimp only
      by_cases harity : f.arity.admits arguments.length
      · rw [if_pos harity, if_pos harity]
        exact (yields_lowerAllIn h arguments).bind fun _ => .pure _
      · rw [if_neg harity, if_neg harity]
        exact .throw _

theorem yields_lowerAllIn (h : ∀ name, Yields stack (resolveIn name) (resolve name)) :
    (fs : List Formula) → Yields stack (lowerAllIn resolveIn fs) (lowerAll resolve fs)
  | [] => .pure _
  | f :: rest =>
    (yields_lowerIn h f).bind fun _ => (yields_lowerAllIn h rest).bind fun _ => .pure _

end

end Formula

namespace DependencyGraph

theorem cycleThroughDown?_eq (g : DependencyGraph) (cutOff : CutOff) {depth : Nat}
    (hdepth : 2 * g.edges.length + 2 ≤ depth) (id : String) (dependencies : List String) :
    g.cycleThroughDown? cutOff depth id dependencies = g.cycleThrough? id dependencies := by
  simp only [cycleThroughDown?, cycleThrough?, searchDown_eq_path? g _ _ cutOff.search hdepth]

end DependencyGraph

namespace Registry

variable {r : Registry}

/-- Expanding a reference never goes deeper than there are metrics that are not open. -/
theorem yields_expandIn (cutOff : CutOff) {stack : List String} {depth : Nat}
    (hdepth : (r.unvisited stack).length < depth) (name : String) :
    Yields stack (r.expandIn cutOff depth name) (r.expand stack name) := by
  induction depth generalizing stack name with
  | zero => exact absurd hdepth (Nat.not_lt_zero _)
  | succ depth ih =>
    rw [expandIn]
    cases hbase : r.baseMetric? name with
    | some m =>
      rw [expand_of_base hbase]
      exact .pure _
    | none =>
      cases hcalc : r.calculatedMetric? name with
      | none =>
        rw [expand_of_none hbase hcalc]
        cases SystemMetric.ofId? name with
        | some m => exact .pure _
        | none => exact .throw _
      | some m =>
        by_cases hopen : name ∈ stack
        · rw [expand_of_visiting hbase hcalc hopen]
          refine .get fun turns => ?_
          rw [if_pos (by simpa using hopen)]
          exact .throw _
        · have hless := length_unvisited_lt hcalc hopen
          have hexpand : r.expand stack name =
              ((Formula.read m.formula).mapError Error.formula >>= fun f =>
                f.lower (r.expand (stack ++ [name]))) >>= fun e => .ok (.nested e) := by
            rw [expand_of_calculated hbase hcalc hopen, bind_assoc]
            rfl
          rw [hexpand]
          refine .get fun turns => ?_
          rw [if_neg (by simpa using hopen)]
          refine .bind (.within hopen (.bind (.lift _) fun f => ?_)) fun _ => .pure _
          exact f.yields_lowerIn (ih (by omega))

/-- Compiling ends, and opens no metric inside itself: cut off at a depth that exceeds the
numbers of metrics and of references, it comes to the same result whatever is done there. -/
theorem yields_compileIn (r : Registry) (cutOff : CutOff) {depth : Nat}
    (hmetrics : r.calculatedMetrics.length < depth)
    (hedges : 2 * (DependencyGraph.ofRegistry r).edges.length + 2 ≤ depth) (d : Sql.Dialect)
    (formula : String) (current : Option String) :
    Yields current.toList (r.compileIn cutOff depth d formula current)
      (r.compile d formula current) := by
  refine .bind (.lift _) fun references => ?_
  dsimp only
  split
  · exact .throw _
  simp only [DependencyGraph.cycleThroughDown?_eq _ cutOff hedges]
  cases current.bind fun id => (DependencyGraph.ofRegistry r).cycleThrough? id
      (r.classify current (uniqueNames references)).2.1 with
  | some cycle => exact .throw _
  | none =>
    refine .bind (.lift _) fun f => .bind (Formula.yields_lowerIn (fun name => ?_) f) fun expr =>
      .bind (.lift _) fun _ => .pure _
    exact yields_expandIn cutOff ((List.length_filter_le ..).trans_lt hmetrics) name

end Registry

end MetricLayer
