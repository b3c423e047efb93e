import MetricLayer.Proofs.Formula.Expansion
import MetricLayer.Proofs.Formula.Shape
import MetricLayer.Proofs.Sql.Escapes

/-!
# How compiled formulas are spelled

What is true of the text of every formula that is lowered, wherever its metrics
stand. Every function is called with a number of arguments that it can have
(`Registry.callable_of_lower`). The text has the backslashes that its expression
takes, but for those in the names of columns (`Registry.escaped_of_lower`), so
with such a name it is read as something else or not at all
(`Registry.plain_of_read`).
-/

namespace MetricLayer

open Sql (Expr)

theorem BaseMetric.sourceColumns_ne_nil {m : BaseMetric} (h : m.isComposite = true) :
    m.sourceColumns ≠ [] := by
  rintro hnil
  simp [isComposite, hnil] at h

/-- The input of a metric is the key of several columns or one column. -/
theorem BaseMetric.input_cases (m : BaseMetric) :
    (∃ columns, columns ≠ [] ∧ m.input = .compositeKey columns) ∨
      ∃ column, m.input = .ofColumn column := by
  rw [input]
  split
  · rename_i hcomposite
    exact .inl ⟨m.sourceColumns, sourceColumns_ne_nil hcomposite, rfl⟩
  · exact .inr ⟨_, rfl⟩

/-! ## Functions that can be spelled -/

/-- If it is a call, it can be spelled. -/
def Sql.Expr.Callable : Expr → Prop
  | .call f arguments => Sql.Dialect.canCall f arguments.length = true
  | _ => True

theorem Sql.Expr.callable_call {f : Sql.Function} {es : List Expr}
    (hcan : Sql.Dialect.canCall f es.length = true)
    (h : ∀ e ∈ es, ∀ node ∈ e.nodes, node.Callable) :
    ∀ node ∈ (Expr.call f es).nodes, node.Callable := by
  rw [nodes, List.forall_mem_cons]
  refine ⟨hcan, fun node hnode => ?_⟩
  obtain ⟨e, he, hnode⟩ := mem_nodesOf.1 hnode
  exact h e he node hnode

theorem BaseMetric.callable_expr (m : BaseMetric) : ∀ node ∈ m.expr.nodes, node.Callable := by
  rw [expr, Expr.nodes, List.forall_mem_cons]
  refine ⟨trivial, ?_⟩
  rcases m.input_cases with ⟨columns, -, hinput⟩ | ⟨column, hinput⟩
  · rw [hinput]
    refine Sql.forall_nodes_compositeKey rfl trivial fun column => ?_
    simp [Expr.keyPart, Expr.replaceAll, Expr.ofColumn, Expr.ofText, Expr.nodes, Expr.nodesOf,
      Expr.Callable, Sql.Dialect.canCall]
  · simp [hinput, Expr.ofColumn, Expr.nodes, Expr.Callable]

theorem SystemMetric.callable_expr (m : SystemMetric) (dateColumn : String) :
    ∀ node ∈ (m.expr dateColumn).nodes, node.Callable := by
  cases m
  simp [expr, Expr.ofColumn, Expr.ofInt, Expr.nodes, Expr.nodesOf, Expr.Callable,
    Sql.Dialect.canCall]

namespace Formula

theorem ne_of_ofFormulaName? {name : String} {f : Sql.Function}
    (h : Sql.Function.ofFormulaName? name = some f) : f ≠ .castToString ∧ f ≠ .dateDiff := by
  unfold Sql.Function.ofFormulaName? at h
  split at h <;> cases h <;> decide

/-- What the arity of a function admits can be spelled. -/
theorem canCall_of_admits {f : Sql.Function} {n : Nat} (hdate : f ≠ .dateDiff)
    (h : f.arity.admits n = true) : Sql.Dialect.canCall f n = true ∧ 1 ≤ n := by
  simp only [Arity.admits, Bool.and_eq_true, decide_eq_true_eq] at h
  constructor
  · cases f <;> simp_all [Sql.Function.arity, Sql.Dialect.canCall] <;> omega
  · exact Nat.le_trans (by cases f <;> decide) h.1

theorem keepsCallable {resolve : String → Except Error Expr} :
    KeptByLowering resolve fun _ e => ∀ node ∈ e.nodes, node.Callable where
  number _ := by simp [Expr.nodes, Expr.Callable]
  literal _ := by simp [Expr.ofText, Expr.nodes, Expr.Callable]
  negate _ _ _ h := List.forall_mem_cons.2 ⟨trivial, h⟩
  group _ _ h := List.forall_mem_cons.2 ⟨trivial, h⟩
  binary op l r L R hl hr := by
    cases op with
    | divide => exact Expr.callable_call rfl (by simpa using ⟨hl, hr⟩)
    | add | subtract | multiply | modulo =>
      exact List.forall_mem_cons.2 ⟨trivial, List.forall_mem_append.2 ⟨hl, hr⟩⟩
  call name f fs es hf harity h := by
    obtain ⟨-, hdate⟩ := ne_of_ofFormulaName? hf
    obtain ⟨hcan, -⟩ := canCall_of_admits hdate (h.length_eq ▸ harity)
    refine Expr.callable_call hcan ?_
    clear hcan harity
    induction h with
    | nil => simp
    | cons hhead _ ih => exact List.forall_mem_cons.2 ⟨hhead, ih⟩

end Formula

/-- No function in what a formula is lowered to has a number of arguments that it
cannot have. -/
theorem Registry.callable_of_lower {r : Registry} {visiting : List String} {f : Formula} {e : Expr}
    (h : f.lower (r.expand visiting) = .ok e) : ∀ node ∈ e.nodes, node.Callable := by
  refine holds_of_lower (P := fun _ e => ∀ node ∈ e.nodes, node.Callable) ?_ h
  intro resolve f e h hresolve
  refine Formula.keepsCallable.holds f (fun name _ e he => ?_) e h
  cases hresolve name e he with
  | base => exact BaseMetric.callable_expr _
  | calculated _ _ hinner => exact List.forall_mem_cons.2 ⟨trivial, hinner⟩
  | system => exact SystemMetric.callable_expr _ _

/-! ## Backslashes -/

theorem BaseMetric.escaped_expr (m : BaseMetric) : m.expr.Escaped := by
  rw [expr]
  refine Expr.Escaped.aggregate ?_ _
  rw [input]
  split
  · refine .call (by decide) (by decide) rfl fun e he => ?_
    rcases Sql.eq_or_mem_of_mem_intersperse he with rfl | he
    · exact Expr.escaped_ofText "|"
    · obtain ⟨column, -, rfl⟩ := List.mem_map.1 he
      exact Expr.escaped_keyPart column
  · exact Expr.escaped_ofColumn _

theorem SystemMetric.escaped_expr (m : SystemMetric) (dateColumn : String) :
    (m.expr dateColumn).Escaped := by
  cases m
  have hcolumn := Expr.escaped_ofColumn dateColumn
  have hone : (Expr.ofInt 1).Escaped := by
    unfold Expr.Escaped
    decide
  exact (Expr.Escaped.dateDiff (hcolumn.aggregate .min) (hcolumn.aggregate .max)).binary hone .add

theorem Formula.keepsEscaped {resolve : String → Except Error Expr} :
    KeptByLowering resolve fun f e => f.Shaped → e.Escaped where
  number
  | _, .number hnumber => Expr.escaped_raw fun h => by
    rcases hnumber.isNumeral _ h with h | h
    · cases h
    · cases h
  literal value _ := Expr.escaped_ofText value
  negate
  | _, _, _, h, .negate hoperand _ => (h hoperand).negate
  group
  | _, _, h, .group hinner => (h hinner).nested
  binary op l r L R hl hr hshaped := by
    obtain ⟨hshapedl, hshapedr⟩ := hshaped.operands
    have hleft := hl hshapedl
    have hright := hr hshapedr
    cases op with
    | divide => exact .call (by decide) (by decide) rfl (by simpa using ⟨hleft, hright⟩)
    | add | subtract | multiply | modulo => exact hleft.binary hright _
  call
  | name, f, fs, es, hf, harity, h, .call harguments => by
    obtain ⟨hcast, hdate⟩ := ne_of_ofFormulaName? hf
    obtain ⟨hcan, -⟩ := canCall_of_admits hdate (h.length_eq ▸ harity)
    refine .call hcast hdate hcan ?_
    clear hcan harity
    induction h with
    | nil => simp
    | cons hhead _ ih =>
      rw [List.forall_mem_cons] at harguments ⊢
      exact ⟨hhead harguments.1, ih harguments.2⟩

namespace Registry

variable {r : Registry} {f : Formula} {e : Expr} {visiting : List String}

/-- The text that a formula is lowered to has the backslashes that it takes, but for
those in the names of columns. -/
theorem escaped_of_lower (h : f.lower (r.expand visiting) = .ok e) (hshaped : f.Shaped) :
    e.Escaped := by
  revert hshaped
  refine holds_of_lower (P := fun f e => f.Shaped → e.Escaped) ?_ h
  intro resolve f e h hresolve hshaped
  refine Formula.keepsEscaped.holds f (fun name _ e he _ => ?_) e h hshaped
  cases hresolve name e he with
  | base => exact BaseMetric.escaped_expr _
  | calculated _ parsed hinner => exact (hinner (Formula.shaped_of_read parsed)).nested
  | system => exact SystemMetric.escaped_expr _ _

/-- What is read back has no backslash in the name of a column. -/
theorem plain_of_read (h : f.lower (r.expand visiting) = .ok e) (hshaped : f.Shaped)
    (hread : Sql.read (e.render .bigQuery) = some e.bare) : ∀ node ∈ e.nodes, node.Plain := by
  have hescaped := escaped_of_lower h hshaped
  have hcount := Sql.escapes_of_read hread
  rw [Expr.escapes, Expr.cost_bare] at hcount
  rw [Expr.Escaped, Expr.escapes] at hescaped
  exact Expr.plain_of_slashes_eq_zero (by omega)

end Registry

end MetricLayer
