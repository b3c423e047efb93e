import MetricLayer.Proofs.Formula.Meaning
import MetricLayer.Proofs.Formula.Spelling
import MetricLayer.Proofs.Registry.Agreement

/-!
# The text of a compiled formula

The text that a formula is compiled to has hardly any parentheses, so whether it
can be read back rests on what stands under what. What a formula is lowered to
binds as tightly as the formula does (`Formula.keepsSettled`,
`Registry.settles_of_lower`), calculated metrics being in parentheses; only a
system metric does not, being a sum. A formula `Involves` itself and the formulas
of the calculated metrics it leads to. Where none of these refers to a system
metric, the text is read as the compiled expression without its parentheses, unless
the name of a column has a backslash (`Registry.read_sql_eq_bare_iff`).
-/

namespace MetricLayer

open Sql (Expr Interpretation Written)

namespace Formula

mutual

/-- `f` and every formula inside it, outer before inner. -/
def nodes (f : Formula) : List Formula :=
  f :: match f with
    | .reference _ | .number _ | .literal _ => []
    | .negate inner | .group inner => inner.nodes
    | .binary _ l r => l.nodes ++ r.nodes
    | .call _ arguments => nodesOf arguments

def nodesOf : List Formula → List Formula
  | [] => []
  | f :: rest => f.nodes ++ nodesOf rest

end

mutual

theorem references_of_mem_nodes : (f : Formula) → ∀ g ∈ f.nodes, ∀ name ∈ g.references,
    name ∈ f.references
  | .reference _, g, hg, name, hn | .number _, g, hg, name, hn | .literal _, g, hg, name, hn => by
    obtain rfl := List.mem_singleton.1 hg
    exact hn
  | .negate f, g, hg, name, hn | .group f, g, hg, name, hn => by
    rcases List.mem_cons.1 hg with rfl | hg
    · exact hn
    · exact references_of_mem_nodes f g hg name hn
  | .binary _ l r, g, hg, name, hn => by
    rcases List.mem_cons.1 hg with rfl | hg
    · exact hn
    · rw [references, List.mem_append]
      exact (List.mem_append.1 hg).imp (fun hg => references_of_mem_nodes l g hg name hn)
        fun hg => references_of_mem_nodes r g hg name hn
  | .call _ arguments, g, hg, name, hn => by
    rcases List.mem_cons.1 hg with rfl | hg
    · exact hn
    · exact references_of_mem_nodesOf arguments g hg name hn

theorem references_of_mem_nodesOf : (fs : List Formula) → ∀ g ∈ nodesOf fs,
    ∀ name ∈ g.references, name ∈ referencesOf fs
  | [], _, hg, _, _ => by simp [nodesOf] at hg
  | f :: rest, g, hg, name, hn => by
    rw [referencesOf, List.mem_append]
    exact (List.mem_append.1 hg).imp (fun hg => references_of_mem_nodes f g hg name hn)
      fun hg => references_of_mem_nodesOf rest g hg name hn

end

end Formula

variable {exact : Prop}

/-! ## Metrics -/

theorem BaseMetric.written_expr (m : BaseMetric) (h : ∀ node ∈ m.expr.nodes, node.Plain) :
    Written exact m.expr 4 := by
  have hplain : ∀ node ∈ m.input.nodes, node.Plain := fun node hnode =>
    h node (List.mem_cons_of_mem _ hnode)
  rw [expr]
  rcases m.input_cases with ⟨columns, hne, hinput⟩ | ⟨column, hinput⟩ <;> rw [hinput] at hplain ⊢
  · exact .aggregate _ (Sql.written_compositeKey hne hplain) (Sql.bare_compositeKey _)
  · exact .aggregate _ (Sql.written_column (hplain _ List.mem_cons_self)) rfl

/-- A sum of the difference between two dates and one. -/
theorem SystemMetric.plain_of_expr {dateColumn : String} {m : SystemMetric}
    (h : ∀ node ∈ (m.expr dateColumn).nodes, node.Plain) : '\\' ∉ dateColumn.toList := by
  cases m
  exact h (.ofColumn dateColumn) (by simp [expr, Expr.ofColumn, Expr.nodes, Expr.nodesOf])

theorem written_dateDiff {dateColumn : String} (h : '\\' ∉ dateColumn.toList) :
    Written exact (.call .dateDiff
      [.aggregate .min (.ofColumn dateColumn), .aggregate .max (.ofColumn dateColumn)]) 4 := by
  have hcolumn := Sql.reads_name h
  exact Sql.written_of_reads
    (Sql.reads_dateDiff (Sql.reads_aggregate .min hcolumn) (Sql.reads_aggregate .max hcolumn)) rfl

/-- A system metric is written as the sum that it is. -/
theorem SystemMetric.written_expr {dateColumn : String} (m : SystemMetric) (hexact : ¬ exact)
    (h : ∀ node ∈ (m.expr dateColumn).nodes, node.Plain) :
    Written exact (m.expr dateColumn) 1 := by
  have hcolumn := plain_of_expr h
  cases m
  exact (written_dateDiff hcolumn).binary (Sql.written_one hexact) (by decide) (by decide)
    (by decide)

/-- A system metric on the right of a sum is read as if it were on the left. -/
theorem SystemMetric.written_add {dateColumn : String} (m : SystemMetric) (hexact : ¬ exact)
    (h : ∀ node ∈ (m.expr dateColumn).nodes, node.Plain) {l : Expr} {n : Nat}
    (hl : Written exact l n) (hn : 1 ≤ n) :
    Written exact (.binary .add l (m.expr dateColumn)) 1 := by
  have hcolumn := plain_of_expr h
  cases m
  refine .add_assoc hexact rfl (.binary (.binary hl (written_dateDiff hcolumn) ?_ hn ?_)
    (Sql.written_one hexact) ?_ ?_ ?_)
  all_goals decide

namespace Registry

variable (r : Registry)

/-- A reference to a system metric. -/
def NamesSystem : Formula → Prop
  | .reference name => ∃ m, r.metric? name = some (.system m)
  | _ => False

/-- A system metric stands where a sum without parentheses is taken apart: after a
sign, at either side of a product or a remainder, or at the right of a
difference. -/
def Misplaces : Formula → Prop
  | .negate f => r.NamesSystem f
  | .binary .subtract _ right => r.NamesSystem right
  | .binary .multiply left right | .binary .modulo left right =>
    r.NamesSystem left ∨ r.NamesSystem right
  | _ => False

instance : DecidablePred r.NamesSystem
  | .reference name =>
    match h : r.metric? name with
    | some (.system m) => isTrue ⟨m, h⟩
    | some (.base _) | some (.calculated _) | none => isFalse (by simp [NamesSystem, h])
  | .number _ | .literal _ | .negate _ | .binary _ _ _ | .call _ _ | .group _ => isFalse id

instance : DecidablePred r.Misplaces
  | .negate f => inferInstanceAs (Decidable (r.NamesSystem f))
  | .binary .subtract _ right => inferInstanceAs (Decidable (r.NamesSystem right))
  | .binary .multiply left right | .binary .modulo left right =>
    inferInstanceAs (Decidable (r.NamesSystem left ∨ r.NamesSystem right))
  | .binary .add _ _ | .binary .divide _ _ | .reference _ | .number _ | .literal _ | .call _ _
  | .group _ => isFalse id

theorem exists_of_misplaces {f : Formula} (h : r.Misplaces f) :
    ∃ name ∈ f.references, r.NamesSystem (.reference name) := by
  have href {g : Formula} (hg : r.NamesSystem g) :
      ∃ name ∈ g.references, r.NamesSystem (.reference name) := by
    cases g with
    | reference name => exact ⟨name, List.mem_singleton_self name, hg⟩
    | _ => exact hg.elim
  have hleft {op : ArithOp} {l rt : Formula} (hl : r.NamesSystem l) :
      ∃ name ∈ (Formula.binary op l rt).references, r.NamesSystem (.reference name) := by
    obtain ⟨name, hname, hsystem⟩ := href hl
    exact ⟨name, List.mem_append_left _ hname, hsystem⟩
  have hright {op : ArithOp} {l rt : Formula} (hr : r.NamesSystem rt) :
      ∃ name ∈ (Formula.binary op l rt).references, r.NamesSystem (.reference name) := by
    obtain ⟨name, hname, hsystem⟩ := href hr
    exact ⟨name, List.mem_append_right _ hname, hsystem⟩
  unfold Misplaces at h
  split at h
  · obtain ⟨name, hname, hsystem⟩ := href h
    exact ⟨name, hname, hsystem⟩
  · exact hright h
  · exact h.elim hleft hright
  · exact h.elim hleft hright
  · exact h.elim

/-- `g` is `f` or the formula of a calculated metric that `f` leads to. -/
inductive Involves : Formula → Formula → Prop where
  | self (f : Formula) : Involves f f
  | through {f g inner : Formula} {name : String} {m : CalculatedMetric}
      (referred : name ∈ f.references) (known : r.metric? name = some (.calculated m))
      (parsed : Formula.read m.formula = .ok inner) (rest : Involves inner g) : Involves f g

/-- What `f` is lowered to is written as tightly as `f` is bound, unless `f` is a
system metric, which is a sum. -/
def Settles (exact : Prop) (f : Formula) (e : Expr) : Prop :=
  Written exact e f.level ∨
    r.NamesSystem f ∧ ¬ exact ∧ ∃ m : SystemMetric, e = m.expr r.dateColumn

variable {r}

theorem forall_involves {f : Formula} {P : Formula → Prop} (hf : P f)
    (hstored : ∀ m ∈ r.calculatedMetrics, ∀ g, Formula.read m.formula = .ok g → P g) :
    ∀ g, r.Involves f g → P g := by
  intro g hg
  induction hg with
  | self => exact hf
  | through _ known parsed _ ih =>
    exact ih (hstored _ (mem_calculatedMetrics_of_metric? known) _ parsed)

theorem Settles.written {f : Formula} {e : Expr} (h : r.Settles exact f e)
    (hplain : ∀ node ∈ e.nodes, node.Plain) : ∃ n, 1 ≤ n ∧ Written exact e n := by
  rcases h with h | ⟨-, hexact, m, rfl⟩
  · exact ⟨f.level, f.level_pos, h⟩
  · exact ⟨1, Nat.le_refl 1, m.written_expr hexact hplain⟩

theorem Settles.level {f : Formula} {e : Expr} (h : r.Settles exact f e)
    (hf : ¬ r.NamesSystem f) : Written exact e f.level :=
  h.resolve_right fun h => hf h.1

end Registry

namespace Formula

variable {r : Registry} {resolve : String → Except Error Expr}

/-- An operation on what its operands are lowered to. -/
theorem settles_binary {op : ArithOp} {l rt : Formula} {L R : Expr}
    (hshaped : (Formula.binary op l rt).Shaped) (hplaced : ¬ r.Misplaces (.binary op l rt))
    (hl : r.Settles exact l L) (hr : r.Settles exact rt R)
    (hL : ∀ node ∈ L.nodes, node.Plain) (hR : ∀ node ∈ R.nodes, node.Plain) :
    r.Settles exact (.binary op l rt) (op.apply L R) := by
  obtain ⟨n, hn, hleft⟩ := hl.written hL
  obtain ⟨m, hm, hright⟩ := hr.written hR
  cases hshaped with
  | binary _ _ hleftLevel hrightLevel =>
    cases op with
    | divide =>
      have hcall : Written exact (.call .safeDivide [L, R]) 4 :=
        .call (by decide) (by decide) rfl (List.cons_ne_nil _ _)
          (by simpa using ⟨⟨n, hleft⟩, ⟨m, hright⟩⟩)
      exact .inl (hcall.mono (Nat.le_of_ble_eq_true rfl))
    | multiply | modulo =>
      rw [Registry.Misplaces, not_or] at hplaced
      exact .inl (.binary (hl.level hplaced.1) (hr.level hplaced.2) (by decide) hleftLevel
        hrightLevel)
    | subtract => exact .inl (.binary hleft (hr.level hplaced) (by decide) hn hrightLevel)
    | add =>
      rcases hr with hr | ⟨-, hexact, m, rfl⟩
      · exact .inl (.binary hleft hr (by decide) hn hrightLevel)
      · exact .inl (m.written_add hexact hR hleft hn)

/-- An operand of a sign is lowered to a negation or stands by itself. -/
theorem isNegation_or_of_lower {f : Formula} {e : Expr} (h : f.lower resolve = .ok e)
    (hlevel : 3 ≤ f.level) : e.isNegation = true ∨ 4 ≤ f.level := by
  cases f with
  | negate f =>
    simp only [lower, bind, Except.bind_eq_ok] at h
    obtain ⟨inner, -, h⟩ := h
    obtain rfl := Except.ok.inj h
    exact .inl rfl
  | binary op l r => exact absurd hlevel (Nat.not_le.2 op.precedence_lt)
  | _ => exact .inr (Nat.le_refl 4)

theorem plain_of_apply {op : ArithOp} {l r : Expr}
    (h : ∀ node ∈ (op.apply l r).nodes, node.Plain) :
    (∀ node ∈ l.nodes, node.Plain) ∧ ∀ node ∈ r.nodes, node.Plain := by
  cases op <;> simp_all [ArithOp.apply, Expr.nodes, Expr.nodesOf, or_imp, forall_and]

/-- Arguments that settle can be read. -/
theorem forall_written_of_forall₂ {fs : List Formula} {es : List Expr}
    (h : List.Forall₂ (fun f e => f.Shaped → (∀ part ∈ f.nodes, ¬ r.Misplaces part) →
      (∀ node ∈ e.nodes, node.Plain) → r.Settles exact f e) fs es)
    (hshaped : ∀ f ∈ fs, f.Shaped) (hplaced : ∀ part ∈ nodesOf fs, ¬ r.Misplaces part)
    (hplain : ∀ node ∈ Expr.nodesOf es, node.Plain) : ∀ e ∈ es, ∃ n, Written exact e n := by
  induction h with
  | nil => simp
  | cons hsettles _ ih =>
    simp only [nodesOf, Expr.nodesOf, List.forall_mem_append] at hplaced hplain
    rw [List.forall_mem_cons] at hshaped ⊢
    obtain ⟨n, -, hwritten⟩ := (hsettles hshaped.1 hplaced.1 hplain.1).written hplain.1
    exact ⟨⟨n, hwritten⟩, ih hshaped.2 hplaced.2 hplain.2⟩

/-- A formula settles if its references do. -/
theorem keepsSettled : KeptByLowering resolve fun f e =>
    f.Shaped → (∀ part ∈ f.nodes, ¬ r.Misplaces part) → (∀ node ∈ e.nodes, node.Plain) →
      r.Settles exact f e where
  number
  | _, .number hnumber, _, _ => .inl (Sql.written_number hnumber)
  literal value _ _ _ := .inl (Sql.written_text value)
  negate
  | f, inner, hinner, h, .negate hoperand hlevel, hplaced, hplain => by
    simp only [nodes, Expr.nodes, List.forall_mem_cons] at hplaced hplain
    have hwritten := (h hoperand hplaced.2 hplain.2).level hplaced.1
    exact .inl (hwritten.negate (isNegation_or_of_lower hinner hlevel))
  group
  | f, inner, h, .group hoperand, hplaced, hplain => by
    simp only [nodes, Expr.nodes, List.forall_mem_cons] at hplaced hplain
    obtain ⟨n, -, hwritten⟩ := (h hoperand hplaced.2 hplain.2).written hplain.2
    exact .inl hwritten.nested
  binary op l rt left right hl hr hshaped hplaced hplain := by
    obtain ⟨hplainl, hplainr⟩ := plain_of_apply hplain
    simp only [nodes, List.forall_mem_cons, List.forall_mem_append] at hplaced
    obtain ⟨hshapedl, hshapedr⟩ := hshaped.operands
    exact settles_binary hshaped hplaced.1 (hl hshapedl hplaced.2.1 hplainl)
      (hr hshapedr hplaced.2.2 hplainr) hplainl hplainr
  call
  | name, f, fs, es, hf, harity, h, .call harguments, hplaced, hplain => by
    simp only [nodes, Expr.nodes, List.forall_mem_cons] at hplaced hplain
    obtain ⟨hcast, hdate⟩ := ne_of_ofFormulaName? hf
    obtain ⟨hcan, hpos⟩ := canCall_of_admits hdate (h.length_eq ▸ harity)
    exact .inl (.call hcast hdate hcan (List.ne_nil_of_length_pos hpos)
      (forall_written_of_forall₂ h harguments hplaced.2 hplain.2))

end Formula

namespace Registry

variable {r : Registry} {formula : String} {current : Option String} {f : Formula}
  {c : CompiledFormula}

/-- A formula settles if no formula that it involves misplaces a system metric. -/
theorem settles_of_lower {visiting : List String} {e : Expr}
    (h : f.lower (r.expand visiting) = .ok e) (hshaped : f.Shaped)
    (hplaced : ∀ g, r.Involves f g → ∀ part ∈ g.nodes, ¬ r.Misplaces part)
    (hexact : exact → ∀ g, r.Involves f g → ∀ name ∈ g.references,
      ¬ r.NamesSystem (.reference name)) (hplain : ∀ node ∈ e.nodes, node.Plain) :
    r.Settles exact f e := by
  revert hshaped hplaced hexact hplain
  refine holds_of_lower (P := fun f e => f.Shaped →
    (∀ g, r.Involves f g → ∀ part ∈ g.nodes, ¬ r.Misplaces part) →
    (exact → ∀ g, r.Involves f g → ∀ name ∈ g.references, ¬ r.NamesSystem (.reference name)) →
    (∀ node ∈ e.nodes, node.Plain) → r.Settles exact f e) ?_ h
  intro resolve f e h hresolve hshaped hplaced hexact hplain
  refine Formula.keepsSettled.holds f ?_ e h hshaped (hplaced f (.self f)) hplain
  intro name hname e he _ _ hplain
  cases hresolve name e he with
  | @base m known => exact .inl (m.written_expr hplain)
  | @calculated m g e known parsed hinner =>
    have hthrough {g' : Formula} (hg : r.Involves g g') : r.Involves f g' :=
      .through hname known parsed hg
    simp only [Expr.nodes, List.forall_mem_cons] at hplain
    have hsettles := hinner (Formula.shaped_of_read parsed)
      (fun g' hg => hplaced g' (hthrough hg)) (fun hx g' hg => hexact hx g' (hthrough hg)) hplain.2
    obtain ⟨n, -, hwritten⟩ := hsettles.written hplain.2
    exact .inl hwritten.nested
  | @system m known =>
    exact .inr ⟨⟨m, known⟩, fun hx => hexact hx f (.self f) name hname ⟨m, known⟩, m, rfl⟩

/-- **Compiled text keeps the tree**: without system metrics, the text of a compiled
formula is read as the expression that it was made from if and only if no column in
it has a backslash in its name, and every function in it can be spelled. -/
theorem read_sql_eq_bare_iff (h : r.compile .bigQuery formula current = .ok c)
    (parsed : Formula.read formula = .ok f)
    (free : ∀ g, r.Involves f g → ∀ name ∈ g.references, ¬ r.NamesSystem (.reference name)) :
    (Sql.read c.sql = some c.expr.bare ↔ ∀ node ∈ c.expr.nodes, node.Plain) ∧
      ∀ node ∈ c.expr.nodes, node.Callable := by
  obtain ⟨references, f', hc⟩ := compile_eq_ok_iff.1 h
  obtain rfl := Except.ok.inj (hc.parsed.symm.trans parsed)
  have hshaped := Formula.shaped_of_read parsed
  refine ⟨⟨fun hread => ?_, fun plain => ?_⟩, callable_of_lower hc.lowered⟩
  · exact plain_of_read hc.lowered hshaped (hc.sql_eq ▸ hread)
  · have hplaced (g : Formula) (hg : r.Involves f' g) : ∀ part ∈ g.nodes, ¬ r.Misplaces part := by
      intro part hpart hmisplaced
      obtain ⟨name, hname, hsystem⟩ := r.exists_of_misplaces hmisplaced
      exact free g hg name (Formula.references_of_mem_nodes g part hpart name hname) hsystem
    have hsettles : r.Settles True f' c.expr :=
      settles_of_lower hc.lowered hshaped hplaced (fun _ => free) plain
    obtain ⟨e, hreads, he, -⟩ := hsettles.resolve_right fun h => h.2.1 trivial
    rw [hc.sql_eq, Sql.read_of_reads hreads, he trivial]

theorem read_sql_of_cpc :
    ∃ c, compile ⟨clicksDocument⟩ .bigQuery "-{cpc} * 2 - ROUND({clicks}, 1)" none = .ok c ∧
      c.sql = "-(SAFE_DIVIDE(SUM(`cost`), SUM(`clicks`))) * 2 - ROUND(SUM(`clicks`), 1)" ∧
      Sql.read c.sql = some c.expr.bare ∧ ∀ node ∈ c.expr.nodes, node.Callable := by
  obtain ⟨c, hc, hsql⟩ := Except.exists_of_any
    (x := compile ⟨clicksDocument⟩ .bigQuery "-{cpc} * 2 - ROUND({clicks}, 1)" none)
    (p := fun c => decide ((∀ node ∈ c.expr.nodes, node.Plain) ∧
      c.sql = "-(SAFE_DIVIDE(SUM(`cost`), SUM(`clicks`))) * 2 - ROUND(SUM(`clicks`), 1)"))
    (by decide +kernel)
  obtain ⟨hplain, hsql⟩ := of_decide_eq_true hsql
  have hread {s : String} (hs : (Formula.read s).toOption.any (fun f => decide
      (∀ name ∈ f.references, ¬ NamesSystem ⟨clicksDocument⟩ (.reference name))) = true) :
      ∃ f, Formula.read s = .ok f ∧
        ∀ name ∈ f.references, ¬ NamesSystem ⟨clicksDocument⟩ (.reference name) := by
    obtain ⟨f, hf, h⟩ := Except.exists_of_any hs
    exact ⟨f, hf, of_decide_eq_true h⟩
  obtain ⟨f, hformula, hf⟩ := hread (s := "-{cpc} * 2 - ROUND({clicks}, 1)") (by decide +kernel)
  obtain ⟨g, hcpc, hg⟩ := hread (s := "{cost} / {clicks}") (by decide +kernel)
  have hfree : ∀ h, Involves ⟨clicksDocument⟩ f h →
      ∀ name ∈ h.references, ¬ NamesSystem ⟨clicksDocument⟩ (.reference name) := by
    refine forall_involves hf fun m hm g' hg' => ?_
    obtain rfl := List.mem_singleton.1 hm
    obtain rfl := Except.ok.inj (hg'.symm.trans hcpc)
    exact hg
  obtain ⟨hiff, hcallable⟩ := read_sql_eq_bare_iff hc hformula hfree
  exact ⟨c, hc, hsql, hiff.2 hplain, hcallable⟩

/-- A base metric over a column whose name ends in a backslash. -/
def backslashDocument : SchemaDocument where
  table := "sales"
  sourceTable := "raw.sales"
  baseMetrics := [{ id := "sales", sourceColumns := ["net\\"], aggregation := .sum }]

/-- The text that refers to such a column is no expression. -/
theorem exists_read_sql_ne :
    ∃ document r, ofDocument document = .ok r ∧ ∃ formula c f,
      r.compile .bigQuery formula none = .ok c ∧ Formula.read formula = .ok f ∧
      (∀ g, r.Involves f g → ∀ name ∈ g.references, ¬ r.NamesSystem (.reference name)) ∧
      Sql.read c.sql ≠ some c.expr.bare := by
  obtain ⟨r, hr⟩ := Except.exists_of_toBool (x := ofDocument backslashDocument) (by decide +kernel)
  obtain rfl := document_of_ofDocument hr
  obtain ⟨c, hc, hnone⟩ := Except.exists_of_any
    (x := compile ⟨backslashDocument⟩ .bigQuery "{sales}" none)
    (p := fun c => (Sql.read c.sql).isNone) (by decide +kernel)
  obtain ⟨f, hread, hf⟩ := Except.exists_of_any (x := Formula.read "{sales}")
    (p := fun f => decide
      (∀ name ∈ f.references, ¬ NamesSystem ⟨backslashDocument⟩ (.reference name)))
    (by decide +kernel)
  refine ⟨_, _, hr, "{sales}", c, f, hc, hread, forall_involves (of_decide_eq_true hf) ?_, ?_⟩
  · intro m hm
    cases hm
  · rw [Option.isNone_iff_eq_none.1 hnone]
    rintro ⟨⟩

end Registry

end MetricLayer
