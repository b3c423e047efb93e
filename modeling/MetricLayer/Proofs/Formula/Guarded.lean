import MetricLayer.Proofs.Formula.Circles
import MetricLayer.Proofs.Formula.Emission
import MetricLayer.Proofs.Sql.Guarding

/-!
# Formulas that one dialect accepts and another does not

A formula is compiled to one expression whatever the dialect (`Registry.draft`), of which
the text is guarded then. What is forbidden is so in both dialects, so that acceptance
differs only where one text balances its parentheses and the other does not
(`Registry.compile_of_dialect`).

The guard takes quotes in the names of columns for quotes of literals, counts parentheses
there, and does not see that a backslash escapes a quote. Where no column has any of
these, the texts of one dialect are balanced whatever literals they hold, and those of
the other if no literal holds a quote (`Registry.level_of_lower`).
-/

namespace MetricLayer

open Sql (Expr)
open Sql.Guard (Balances Level isInert)

variable {d : Sql.Dialect}

/-! ## What the guard makes of metrics -/

theorem level_ofText {value : String} (h : d = .duckDb ∨ '\'' ∉ value.toList) :
    Level ((Expr.ofText value).render d) := Sql.level_quoteText h

theorem level_ofColumn {column : String} (h : ∀ c ∈ column.toList, isInert c = true) :
    Level ((Expr.ofColumn column).render d) := Sql.level_quoteName h

theorem level_binary {l r : Expr} (hl : Level (l.render d)) (hr : Level (r.render d))
    (op : Sql.BinaryOp) : Level ((Expr.binary op l r).render d) := by
  have hblank : Level " " := fun _ _ => rfl
  have hsymbol : Level op.symbol := by cases op <;> exact fun _ _ => rfl
  exact (((hl.append hblank).append hsymbol).append hblank).append (hr.parenthesizedIf _)

theorem level_call {f : Sql.Function} {es : List Expr} (h : ∀ e ∈ es, Level (e.render d)) :
    Level ((Expr.call f es).render d) := by
  rw [Expr.render, Expr.renderList_eq_map]
  exact Sql.level_call (by simpa using h)

theorem level_keyPart {column : String} (h : ∀ c ∈ column.toList, isInert c = true) :
    Level ((Expr.keyPart column).render d) := by
  have hreplace {e : Expr} (he : Level (e.render d)) {part replacement : String}
      (hpart : '\'' ∉ part.toList) (hreplacement : '\'' ∉ replacement.toList) :
      Level ((e.replaceAll part replacement).render d) :=
    level_call (by simpa using ⟨he, level_ofText (.inr hpart), level_ofText (.inr hreplacement)⟩)
  have hcast : Level ((Expr.call .castToString [.ofColumn column]).render d) :=
    level_call (by simpa using level_ofColumn h)
  exact level_call (by
    simpa using ⟨hreplace (hreplace hcast (by decide) (by decide)) (by decide) (by decide),
      level_ofText (.inr (by decide))⟩)

theorem BaseMetric.level_expr {m : BaseMetric}
    (h : ∀ column ∈ m.sourceColumns, ∀ c ∈ column.toList, isInert c = true) :
    Level (m.expr.render d) := by
  refine Sql.level_aggregate ?_ _
  rw [input]
  split
  · refine level_call fun e he => ?_
    rcases Sql.eq_or_mem_of_mem_intersperse he with rfl | he
    · exact level_ofText (.inr (by decide))
    · obtain ⟨column, hcolumn, rfl⟩ := List.mem_map.1 he
      exact level_keyPart (h column hcolumn)
  · refine Sql.level_quoteName fun c hc => ?_
    cases hcolumns : m.sourceColumns with
    | nil => simp [hcolumns] at hc
    | cons column rest => exact h column (by simp [hcolumns]) c (by simpa [hcolumns] using hc)

theorem SystemMetric.level_expr (m : SystemMetric) {dateColumn : String}
    (h : ∀ c ∈ dateColumn.toList, isInert c = true) : Level ((m.expr dateColumn).render d) := by
  cases m
  have hcolumn (a : Aggregation) : Level ((Expr.aggregate a (.ofColumn dateColumn)).render d) :=
    Sql.level_aggregate (level_ofColumn h) a
  have hdays : Level ((Expr.call .dateDiff [.aggregate .min (.ofColumn dateColumn),
      .aggregate .max (.ofColumn dateColumn)]).render d) :=
    level_call (by simpa using ⟨hcolumn .min, hcolumn .max⟩)
  have hone : Level ((Expr.ofInt 1).render d) := by cases d <;> exact fun _ _ => rfl
  exact level_binary hdays hone .add

/-! ## What the guard makes of formulas -/

namespace Formula

variable {resolve : String → Except Error Expr}

/-- The guard leaves a formula as it came if it does so with the references. -/
theorem keepsLevel : KeptByLowering resolve fun f e => f.Shaped →
    (∀ value, .literal value ∈ f.nodes → d = .duckDb ∨ '\'' ∉ value.toList) →
      Level (e.render d) where
  number
  | _, .number hnumber, _ => Sql.Guard.level_of_isInert fun c hc => by
    rcases hnumber.isNumeral c hc with hdigit | rfl
    · exact Sql.isInert_of_isNameChar (by simp [Text.isNameChar, Char.isAlphanum, hdigit])
    · decide
  literal value _ h := level_ofText (h value (by simp [nodes]))
  negate
  | f, e, _, h, .negate hoperand _, htexts => by
    have hinner := h hoperand fun value hmem => htexts value (List.mem_cons_of_mem _ hmem)
    exact Level.append (fun _ _ => rfl) (hinner.parenthesizedIf _)
  group
  | f, e, h, .group hinner, htexts => by
    have hinner := h hinner fun value hmem => htexts value (List.mem_cons_of_mem _ hmem)
    exact hinner.enclose (fun _ _ => rfl) fun _ _ => rfl
  binary op l r L R hl hr hshaped htexts := by
    obtain ⟨hshapedl, hshapedr⟩ := hshaped.operands
    have hleft := hl hshapedl fun value hmem =>
      htexts value (List.mem_cons_of_mem _ (List.mem_append_left _ hmem))
    have hright := hr hshapedr fun value hmem =>
      htexts value (List.mem_cons_of_mem _ (List.mem_append_right _ hmem))
    cases op with
    | divide => exact level_call (by simpa using ⟨hleft, hright⟩)
    | add | subtract | multiply | modulo => exact level_binary hleft hright _
  call
  | name, f, fs, es, _, harity, h, .call harguments, htexts => by
    refine level_call ?_
    replace htexts : ∀ value, .literal value ∈ nodesOf fs → d = .duckDb ∨ '\'' ∉ value.toList :=
      fun value hmem => htexts value (List.mem_cons_of_mem _ hmem)
    clear harity
    induction h with
    | nil => simp
    | cons hhead _ ih =>
      rw [List.forall_mem_cons] at harguments ⊢
      exact ⟨hhead harguments.1 fun value hmem => htexts value (List.mem_append_left _ hmem),
        ih harguments.2 fun value hmem => htexts value (List.mem_append_right _ hmem)⟩

end Formula

namespace Registry

variable {r : Registry} {f : Formula} {e : Expr} {visiting : List String}

/-- No column of a metric has a quote or a parenthesis in its name. -/
def PlainColumns (r : Registry) : Prop :=
  (∀ m ∈ r.baseMetrics, ∀ column ∈ m.sourceColumns, ∀ c ∈ column.toList, isInert c = true) ∧
    ∀ c ∈ r.dateColumn.toList, isInert c = true

/-- No text literal that the formula comes to has a quote in it. -/
def PlainTexts (r : Registry) (f : Formula) : Prop :=
  ∀ g, r.Involves f g → ∀ value, .literal value ∈ g.nodes → '\'' ∉ value.toList

/-- The guard comes out of a formula as it went in. -/
theorem level_of_lower (hcolumns : r.PlainColumns) (h : f.lower (r.expand visiting) = .ok e)
    (hshaped : f.Shaped) (htexts : d = .duckDb ∨ r.PlainTexts f) : Level (e.render d) := by
  revert hshaped htexts
  refine holds_of_lower (P := fun f e => f.Shaped → d = .duckDb ∨ r.PlainTexts f →
    Level (e.render d)) ?_ h
  intro resolve f e h hresolve hshaped htexts
  refine Formula.keepsLevel.holds f (fun name hname e he _ _ => ?_) e h hshaped
    fun value hmem => htexts.imp_right fun hplain => hplain f (.self f) value hmem
  cases hresolve name e he with
  | base known =>
    exact BaseMetric.level_expr (hcolumns.1 _ (List.mem_of_find?_eq_some
      (metric?_eq_base_iff.1 known)))
  | calculated known parsed hinner =>
    have hinner := hinner (Formula.shaped_of_read parsed) (htexts.imp_right fun hplain g hg =>
      hplain g (.through hname known parsed hg))
    exact hinner.enclose (fun _ _ => rfl) fun _ _ => rfl
  | system => exact SystemMetric.level_expr _ hcolumns.2

/-! ## Before and after the text is written -/

variable {formula : String} {current : Option String} {c c' : CompiledFormula}

/-- What compiling comes to without a dialect: the expression, and the base and the
calculated metrics that the formula names. -/
def draft (r : Registry) (formula : String) (current : Option String) :
    Except Error (Expr × List String × List String) := do
  let references ← (extractReferences formula).mapError Error.reference
  let (dependsOnBase, dependsOnCalculated, unknown) :=
    r.classify current (uniqueNames references)
  if !unknown.isEmpty then .error (.unknownReferences unknown)
  else
    let cycle? := current.bind fun id =>
      (DependencyGraph.ofRegistry r).cycleThrough? id dependsOnCalculated
    match cycle? with
    | some cycle => .error (.circularDependency cycle)
    | none => do
      let f ← (Formula.read formula).mapError Error.formula
      let expr ← f.lower (r.expand current.toList)
      .ok (expr, dependsOnBase, dependsOnCalculated)

/-- A draft in the words of a dialect, if the guard lets it pass. -/
def written (d : Sql.Dialect) (draft : Expr × List String × List String) :
    Except Error CompiledFormula := do
  let sql := draft.1.render d
  (Sql.guardSql sql).mapError Error.guard
  .ok { sql, expr := draft.1, dependsOnBase := draft.2.1, dependsOnCalculated := draft.2.2 }

theorem compile_eq_draft (r : Registry) (d : Sql.Dialect) (formula : String)
    (current : Option String) :
    r.compile d formula current = r.draft formula current >>= written d := by
  rw [compile, draft, bind_assoc]
  refine bind_congr fun references => ?_
  dsimp only
  split
  · rfl
  generalize (current.bind fun id => (DependencyGraph.ofRegistry r).cycleThrough? id
    (r.classify current (uniqueNames references)).2.1) = cycle?
  cases cycle? with
  | some cycle => rfl
  | none =>
    simp only [bind_assoc]
    rfl

theorem written_eq_ok_iff {draft : Expr × List String × List String} :
    written d draft = .ok c ↔
      Balances (draft.1.render d) ∧ Sql.Guard.Allowed (draft.1.render d).toList ∧
        c = ⟨draft.1.render d, draft.1, draft.2.1, draft.2.2⟩ := by
  rw [← and_assoc, ← Sql.Guard.guardSql_eq_ok_iff, written]
  simp only [bind, Except.bind_eq_ok, Except.mapError_eq_ok, Except.ok.injEq]
  constructor
  · rintro ⟨_, hguard, hc⟩
    exact ⟨hguard, hc.symm⟩
  · rintro ⟨hguard, hc⟩
    exact ⟨(), hguard, hc.symm⟩

theorem written_eq_error_iff {draft : Expr × List String × List String} {e : Error} :
    written d draft = .error e ↔
      ∃ fault, Sql.guardSql (draft.1.render d) = .error fault ∧ e = .guard fault := by
  simp only [written, bind, Except.bind_eq_error, Except.mapError_eq_error, reduceCtorEq, and_false,
    exists_false, or_false, eq_comm (a := e)]

/-- No reference is refused by the guard. -/
theorem expand_ne_guard {fault : Sql.Guard.Fault} {name : String} :
    r.expand visiting name ≠ .error (.guard fault) := by
  induction visiting, name using expand.induct r with
  | case1 visiting name b hbase => simp [expand_of_base hbase]
  | case2 visiting name hbase m hcalc hv =>
    simp [expand_of_visiting hbase hcalc (List.contains_iff_mem.1 hv)]
  | case3 visiting name hbase m hcalc hv _ ih =>
    rw [expand_of_calculated hbase hcalc (by simpa using hv)]
    simp only [ne_eq, Except.bind_eq_error, Except.mapError_eq_error, reduceCtorEq, and_false,
      exists_false, false_or, or_false, not_exists, not_and]
    intro f _ hlower
    obtain ⟨inner, -, hfails⟩ := (Formula.exists_or_of_lower_eq_error f hlower).resolve_right
      fun hfault => Bool.false_ne_true hfault.2
    exact ih inner hfails
  | case4 visiting name hbase hcalc s hsystem => simp [expand_of_none hbase hcalc, hsystem]
  | case5 visiting name hbase hcalc hsystem =>
    simp [expand_of_none hbase hcalc, hsystem, Error.unknown]

theorem draft_ne_guard {fault : Sql.Guard.Fault} :
    r.draft formula current ≠ .error (.guard fault) := by
  intro h
  simp only [draft, bind, Except.bind_eq_error, Except.mapError_eq_error] at h
  obtain ⟨_, -, h⟩ | ⟨references, -, h⟩ := h
  · cases h
  split at h <;> [cases h; skip]
  split at h <;> [cases h; skip]
  simp only [Except.bind_eq_error, Except.mapError_eq_error, reduceCtorEq, and_false,
    exists_false, false_or, or_false] at h
  obtain ⟨f, -, hlower⟩ := h
  obtain ⟨name, -, hfails⟩ := (Formula.exists_or_of_lower_eq_error f hlower).resolve_right
    fun hfault => Bool.false_ne_true hfault.2
  exact expand_ne_guard hfails

/-- The expression of a draft is what the formula is lowered to. -/
theorem lowered_of_draft {draft : Expr × List String × List String}
    (h : r.draft formula current = .ok draft) :
    ∃ f, Formula.read formula = .ok f ∧ f.lower (r.expand current.toList) = .ok draft.1 := by
  simp only [Registry.draft, bind, Except.bind_eq_ok, Except.mapError_eq_ok] at h
  obtain ⟨references, -, h⟩ := h
  split at h <;> [cases h; skip]
  split at h <;> [cases h; skip]
  simp only [Except.bind_eq_ok, Except.mapError_eq_ok] at h
  obtain ⟨f, hread, expr, hlower, h⟩ := h
  obtain rfl := Except.ok.inj h
  exact ⟨f, hread, hlower⟩

/-! ## The two dialects -/

/-- What compiles in one dialect compiles in another if the text is balanced there, to the
same but for the text. -/
theorem compile_eq_ok_iff_of_dialect (d' : Sql.Dialect) (h : r.compile d formula current = .ok c) :
    r.compile d' formula current = .ok c' ↔
      Balances (c.expr.render d') ∧ c' = { c with sql := c.expr.render d' } := by
  simp only [compile_eq_draft, bind, Except.bind_eq_ok, written_eq_ok_iff] at h ⊢
  obtain ⟨draft, hdraft, -, hallowed, rfl⟩ := h
  have halike : Sql.Guard.Allowed (draft.1.render d').toList :=
    (Sql.alike_render draft.1).allowed.1 hallowed
  constructor
  · rintro ⟨draft', hdraft', hbalances, -, rfl⟩
    obtain rfl := Except.ok.inj (hdraft.symm.trans hdraft')
    exact ⟨hbalances, rfl⟩
  · rintro ⟨hbalances, rfl⟩
    exact ⟨draft, hdraft, hbalances, halike, rfl⟩

theorem compile_eq_error_iff_of_dialect (d d' : Sql.Dialect) {e : Error}
    (hguard : ∀ fault, e ≠ .guard fault) :
    r.compile d formula current = .error e ↔ r.compile d' formula current = .error e := by
  have hdraft (d : Sql.Dialect) :
      r.compile d formula current = .error e ↔ r.draft formula current = .error e := by
    simp only [compile_eq_draft, bind, Except.bind_eq_error, written_eq_error_iff]
    refine or_iff_left ?_
    rintro ⟨_, -, fault, -, he⟩
    exact hguard fault he
  rw [hdraft, hdraft]

/-- Where columns are plain, and literals too if the dialect needs it, parentheses are not
what is wrong with a formula. -/
theorem countsParentheses_eq_false (hcolumns : r.PlainColumns)
    (htexts : d = .duckDb ∨ ∀ f, Formula.read formula = .ok f → r.PlainTexts f)
    {fault : Sql.Guard.Fault} (h : r.compile d formula current = .error (.guard fault)) :
    fault.countsParentheses = false := by
  simp only [compile_eq_draft, bind, Except.bind_eq_error, written_eq_error_iff,
    Error.guard.injEq] at h
  obtain ⟨draft, hdraft, _, hguard, rfl⟩ := h.resolve_left draft_ne_guard
  obtain ⟨f, hread, hlower⟩ := lowered_of_draft hdraft
  have hlevel := level_of_lower (d := d) hcolumns hlower (Formula.shaped_of_read hread)
    (htexts.imp_right fun hplain => hplain f hread)
  exact Sql.Guard.countsParentheses_of_balances hlevel.balances hguard

/-- What is accepted in the one dialect and in the other. Compiled in both, a formula comes
to the same but for its text. If it compiles in one, it does in the other exactly if the
text there balances its parentheses, as the guard counts them. All other errors are the
same. Over plain columns the guard counts them right whatever the literals are in one
dialect, and in the other if no literal has a quote in it. -/
theorem acceptance_of_dialects (r : Registry) (formula : String) (current : Option String) :
    (∀ d d' c, r.compile d formula current = .ok c → ∀ c',
      (r.compile d' formula current = .ok c' ↔
        Balances (c.expr.render d') ∧ c' = { c with sql := c.expr.render d' })) ∧
    (∀ d d' e, (∀ fault, e ≠ .guard fault) →
      (r.compile d formula current = .error e ↔ r.compile d' formula current = .error e)) ∧
    (r.PlainColumns → ∀ d,
      (d = .duckDb ∨ ∀ f, Formula.read formula = .ok f → r.PlainTexts f) →
      ∀ fault, r.compile d formula current = .error (.guard fault) →
        fault.countsParentheses = false) ∧
    (r.PlainColumns → (∀ f, Formula.read formula = .ok f → r.PlainTexts f) →
      ((∃ c, r.compile .bigQuery formula current = .ok c) ↔
        ∃ c, r.compile .duckDb formula current = .ok c)) := by
  refine ⟨fun d d' c h c' => compile_eq_ok_iff_of_dialect d' h,
    fun d d' e => compile_eq_error_iff_of_dialect d d',
    fun hcolumns d htexts fault => countsParentheses_eq_false hcolumns htexts,
    fun hcolumns htexts => ?_⟩
  have hcarries {d d' : Sql.Dialect} :
      (∃ c, r.compile d formula current = .ok c) → ∃ c, r.compile d' formula current = .ok c := by
    rintro ⟨c, hc⟩
    obtain ⟨references, f, hcompiled⟩ := compile_eq_ok_iff.1 hc
    have hlevel := level_of_lower (d := d') hcolumns hcompiled.lowered
      (Formula.shaped_of_read hcompiled.parsed) (.inr (htexts f hcompiled.parsed))
    exact ⟨_, (compile_eq_ok_iff_of_dialect d' hc).2 ⟨hlevel.balances, rfl⟩⟩
  exact ⟨hcarries, hcarries⟩

/-- A document with one base metric over one column. -/
def webDocument : SchemaDocument where
  table := "web"
  sourceTable := "raw.web"
  baseMetrics := [{ id := "clicks", sourceColumns := ["clicks"], aggregation := .sum }]

/-- A formula with a quote in a literal is accepted in the one dialect, so that it is not in
the other, of which the text is not balanced. -/
theorem acceptance_of_dialects_of_quote :
    let r : Registry := ⟨webDocument⟩
    ∃ c, r.compile .duckDb "COALESCE({clicks}, 'a''b')" none = .ok c ∧
      ∀ c', r.compile .bigQuery "COALESCE({clicks}, 'a''b')" none ≠ .ok c' := by
  intro r
  obtain ⟨c, hc, hopen⟩ := Except.exists_of_any
    (x := r.compile .duckDb "COALESCE({clicks}, 'a''b')" none)
    (p := fun c => !decide (Balances (c.expr.render .bigQuery))) (by decide +kernel)
  have hopen : ¬ Balances (c.expr.render .bigQuery) := by simpa using hopen
  exact ⟨c, hc, fun c' hc' =>
    hopen (((acceptance_of_dialects r _ none).1 .duckDb .bigQuery c hc c').1 hc').1⟩

/-- A document that is accepted, and a formula over it that one dialect accepts and the other
refuses for a parenthesis that is not there. -/
theorem exists_accepted_in_one_dialect :
    ∃ document r, ofDocument document = .ok r ∧ ∃ formula,
      (∃ c, r.compile .duckDb formula none = .ok c) ∧
        r.compile .bigQuery formula none = .error (.guard (.unclosed 1)) := by
  have accepted : ofDocument webDocument = .ok ⟨webDocument⟩ := by decide +kernel
  exact ⟨webDocument, ⟨webDocument⟩, accepted, "COALESCE({clicks}, 'a''b')",
    Except.exists_of_toBool (by decide +kernel), Except.error?_eq_some.1 (by decide +kernel)⟩

end Registry

end MetricLayer
