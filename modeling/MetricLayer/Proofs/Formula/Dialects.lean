import MetricLayer.Proofs.Formula.Emission
import MetricLayer.Proofs.Sql.Quotients

/-!
# A formula in two dialects

The two texts that a formula is compiled to are read with the values of two
expressions: that of the one dialect is the compiled expression, that of the other
the same with its remainders first, since a quotient stands there without
parentheses (`Registry.values_agree_iff`).
-/

namespace MetricLayer

open Sql (Expr Interpretation ReadsInDuckDb SettlesInDuckDb Spelled)

/-! ## Metrics -/

theorem BaseMetric.readsInDuckDb_expr (m : BaseMetric) (h : ∀ node ∈ m.expr.nodes, node.Plain) :
    ReadsInDuckDb (m.expr.render .duckDb) m.expr 4 := by
  have hplain : ∀ node ∈ m.input.nodes, node.Plain := fun node hnode =>
    h node (List.mem_cons_of_mem _ hnode)
  rw [expr]
  rcases m.input_cases with ⟨columns, hne, hinput⟩ | ⟨column, hinput⟩ <;> rw [hinput] at hplain ⊢
  · exact .aggregate _ (.compositeKey hne hplain)
  · exact .aggregate _ (.name (hplain _ List.mem_cons_self))

/-- No remainder is taken inside a metric. -/
theorem BaseMetric.isRemainderByQuotient_of_mem (m : BaseMetric) :
    ∀ node ∈ m.expr.nodes, node.isRemainderByQuotient = false := by
  rw [expr, Expr.nodes, List.forall_mem_cons]
  refine ⟨rfl, ?_⟩
  rcases m.input_cases with ⟨columns, -, hinput⟩ | ⟨column, hinput⟩
  · rw [hinput]
    refine Sql.forall_nodes_compositeKey rfl rfl fun column => ?_
    simp [Expr.keyPart, Expr.replaceAll, Expr.ofColumn, Expr.ofText, Expr.nodes, Expr.nodesOf,
      Expr.isRemainderByQuotient]
  · simp [hinput, Expr.ofColumn, Expr.nodes, Expr.isRemainderByQuotient]

theorem SystemMetric.isRemainderByQuotient_of_mem (m : SystemMetric) (dateColumn : String) :
    ∀ node ∈ (m.expr dateColumn).nodes, node.isRemainderByQuotient = false := by
  cases m
  simp [expr, Expr.ofColumn, Expr.ofInt, Expr.nodes, Expr.nodesOf, Expr.isRemainderByQuotient]

namespace Formula

variable {r : Registry} {resolve : String → Except Error Expr}

/-- Arguments that settle are spelled. -/
theorem forall_spelled_of_forall₂ {fs : List Formula} {es : List Expr}
    (h : List.Forall₂ (fun f e => f.Shaped → (∀ node ∈ e.nodes, node.Plain) →
      SettlesInDuckDb f.level e) fs es)
    (hshaped : ∀ f ∈ fs, f.Shaped) (hplain : ∀ node ∈ Expr.nodesOf es, node.Plain) :
    ∀ e ∈ es, Spelled e 1 := by
  induction h with
  | nil => simp
  | @cons f e _ _ hsettles _ ih =>
    simp only [Expr.nodesOf, List.forall_mem_append] at hplain
    rw [List.forall_mem_cons] at hshaped ⊢
    exact ⟨(hsettles hshaped.1 hplain.1).spelled f.level_pos (by decide), ih hshaped.2 hplain.2⟩

theorem settlesInDuckDb_binary {op : ArithOp} {l rt : Formula} {L R : Expr}
    (hshaped : (Formula.binary op l rt).Shaped) (hl : SettlesInDuckDb l.level L)
    (hr : SettlesInDuckDb rt.level R) :
    SettlesInDuckDb (Formula.binary op l rt).level (op.apply L R) := by
  cases hshaped with
  | binary _ _ hleftLevel hrightLevel =>
    cases op with
    | divide =>
      exact .quotient (hl.spelled l.level_pos (by decide)) (hr.spelled rt.level_pos (by decide))
    | add | subtract => exact .other rfl (hl.binary hr (.inl rfl) hleftLevel hrightLevel)
    | multiply => exact .other rfl (hl.binary hr (.inr (.inl rfl)) hleftLevel hrightLevel)
    | modulo => exact .other rfl (hl.binary hr (.inr (.inr rfl)) hleftLevel hrightLevel)

/-- A formula settles if its references do. -/
theorem keepsSettledInDuckDb : KeptByLowering resolve fun f e =>
    f.Shaped → (∀ node ∈ e.nodes, node.Plain) → SettlesInDuckDb f.level e where
  number
  | _, .number hnumber, _ => .other rfl (Sql.spelled_of_reads (.number hnumber) rfl)
  literal value _ _ := .other rfl (Sql.spelled_of_reads (.text value) rfl)
  negate
  | f, inner, hinner, h, .negate hoperand hlevel, hplain => by
    simp only [Expr.nodes, List.forall_mem_cons] at hplain
    exact (h hoperand hplain.2).negate (isNegation_or_of_lower hinner hlevel)
  group
  | f, inner, h, .group hoperand, hplain => by
    simp only [Expr.nodes, List.forall_mem_cons] at hplain
    exact .other rfl ((h hoperand hplain.2).spelled f.level_pos (by decide)).nested
  binary op l rt left right hl hr hshaped hplain := by
    obtain ⟨hplainl, hplainr⟩ := plain_of_apply hplain
    obtain ⟨hshapedl, hshapedr⟩ := hshaped.operands
    exact settlesInDuckDb_binary hshaped (hl hshapedl hplainl) (hr hshapedr hplainr)
  call
  | name, f, fs, es, hf, harity, h, .call harguments, hplain => by
    simp only [Expr.nodes, List.forall_mem_cons] at hplain
    obtain ⟨hcast, hdate⟩ := ne_of_ofFormulaName? hf
    obtain ⟨hcan, hpos⟩ := canCall_of_admits hdate (h.length_eq ▸ harity)
    have hspelled := forall_spelled_of_forall₂ h harguments hplain.2
    by_cases hdivide : f = .safeDivide
    · subst hdivide
      obtain ⟨a, b, rfl⟩ := List.length_eq_two.1 (of_decide_eq_true hcan)
      exact .quotient (hspelled a (by simp)) (hspelled b (by simp))
    · have hquotient : (Expr.call f es).isQuotient = false := by
        cases f <;> first | exact absurd rfl hdivide | rfl
      exact .other hquotient (.call hdivide hcast hdate hcan (List.ne_nil_of_length_pos hpos)
        fun e he => ⟨1, hspelled e he⟩)

/-- Remainders by arguments are remainders by quotients in the call. -/
theorem forall_nodesOf_of_forall₂ {fs : List Formula} {es : List Expr}
    (h : List.Forall₂ (fun _ e => e.remaindersFirst = e →
      ∀ node ∈ e.nodes, node.isRemainderByQuotient = false) fs es)
    (heq : Expr.remaindersFirstAll es = es) :
    ∀ node ∈ Expr.nodesOf es, node.isRemainderByQuotient = false := by
  induction h with
  | nil => simp [Expr.nodesOf]
  | cons hnodes _ ih =>
    rw [Expr.remaindersFirstAll, List.cons.injEq] at heq
    rw [Expr.nodesOf, List.forall_mem_append]
    exact ⟨hnodes heq.1, ih heq.2⟩

/-- Where the remainders are first already, none is by a quotient. -/
theorem keepsRemainders : KeptByLowering resolve fun _ e =>
    e.remaindersFirst = e → ∀ node ∈ e.nodes, node.isRemainderByQuotient = false where
  number _ _ := by simp [Expr.nodes, Expr.isRemainderByQuotient]
  literal _ _ := by simp [Expr.ofText, Expr.nodes, Expr.isRemainderByQuotient]
  negate _ _ _ h heq := by
    rw [Expr.nodes, List.forall_mem_cons]
    exact ⟨rfl, h (Expr.negate.inj heq)⟩
  group _ _ h heq := by
    rw [Expr.nodes, List.forall_mem_cons]
    exact ⟨rfl, h (Expr.nested.inj heq)⟩
  binary op _ _ L R hl hr heq := by
    have hbinary {o : Sql.BinaryOp} (heq : (Expr.binary o L R).remaindersFirst = .binary o L R) :
        ∀ node ∈ (Expr.binary o L R).nodes, node.isRemainderByQuotient = false := by
      have hnot := Expr.isRemainderByQuotient_of_remaindersFirst_eq_self heq
      rw [Expr.remaindersFirst_binary hnot, Expr.binary.injEq] at heq
      rw [Expr.nodes, List.forall_mem_cons, List.forall_mem_append]
      exact ⟨hnot, hl heq.2.1, hr heq.2.2⟩
    cases op with
    | divide =>
      rw [ArithOp.apply, Expr.nodes, List.forall_mem_cons]
      simp only [ArithOp.apply, Expr.remaindersFirst, Expr.remaindersFirstAll, Expr.call.injEq,
        List.cons.injEq, true_and, and_true] at heq
      simp only [Expr.nodesOf, List.forall_mem_append, List.append_nil]
      exact ⟨rfl, hl heq.1, hr heq.2⟩
    | add | subtract | multiply | modulo => exact hbinary heq
  call _ f _ es _ _ h heq := by
    rw [Expr.nodes, List.forall_mem_cons]
    exact ⟨rfl, forall_nodesOf_of_forall₂ h (Expr.call.inj heq).2⟩

end Formula

namespace Registry

variable {r : Registry} {formula : String} {current : Option String} {visiting : List String}
  {f : Formula} {e : Expr} {c c' : CompiledFormula}

/-- Where no system metric is referred to, none is misplaced. -/
theorem settles_of_free (h : f.lower (r.expand visiting) = .ok e) (hshaped : f.Shaped)
    (hfree : ∀ g, r.Involves f g → ∀ name ∈ g.references, ¬ r.NamesSystem (.reference name))
    (hplain : ∀ node ∈ e.nodes, node.Plain) : r.Settles True f e := by
  refine settles_of_lower h hshaped (fun g hg part hpart hmisplaced => ?_) (fun _ => hfree) hplain
  obtain ⟨name, hname, hsystem⟩ := r.exists_of_misplaces hmisplaced
  exact hfree g hg name (Formula.references_of_mem_nodes g part hpart name hname) hsystem

/-- The same in the other dialect. -/
theorem settlesInDuckDb_of_lower (h : f.lower (r.expand visiting) = .ok e) (hshaped : f.Shaped)
    (hfree : ∀ g, r.Involves f g → ∀ name ∈ g.references, ¬ r.NamesSystem (.reference name))
    (hplain : ∀ node ∈ e.nodes, node.Plain) : SettlesInDuckDb f.level e := by
  revert hshaped hfree hplain
  refine holds_of_lower (P := fun f e => f.Shaped →
    (∀ g, r.Involves f g → ∀ name ∈ g.references, ¬ r.NamesSystem (.reference name)) →
    (∀ node ∈ e.nodes, node.Plain) → SettlesInDuckDb f.level e) ?_ h
  intro resolve f e h hresolve hshaped hfree hplain
  refine Formula.keepsSettledInDuckDb.holds f ?_ e h hshaped hplain
  intro name hname e he _ hplain
  cases hresolve name e he with
  | @base m known => exact .other rfl (Sql.spelled_of_reads (m.readsInDuckDb_expr hplain) rfl)
  | @calculated m g e known parsed hinner =>
    rw [Expr.nodes, List.forall_mem_cons] at hplain
    have hsettles := hinner (Formula.shaped_of_read parsed)
      (fun g' hg => hfree g' (.through hname known parsed hg)) hplain.2
    exact .other rfl (hsettles.spelled g.level_pos (by decide)).nested
  | @system m known => exact absurd ⟨m, known⟩ (hfree f (.self f) name hname)

/-- Where the remainders of a compiled formula are first already, none is by a
quotient. -/
theorem remaindersFirst_eq_self_iff_of_lower (h : f.lower (r.expand visiting) = .ok e) :
    e.remaindersFirst = e ↔ ∀ node ∈ e.nodes, node.isRemainderByQuotient = false := by
  refine ⟨holds_of_lower (P := fun _ e => e.remaindersFirst = e →
    ∀ node ∈ e.nodes, node.isRemainderByQuotient = false) ?_ h, e.remaindersFirst_eq_self⟩
  intro resolve f e h hresolve
  refine Formula.keepsRemainders.holds f (fun name _ e he => ?_) e h
  cases hresolve name e he with
  | @base m _ => exact fun _ => m.isRemainderByQuotient_of_mem
  | @calculated _ _ _ _ _ hinner =>
    intro heq
    rw [Expr.nodes, List.forall_mem_cons]
    exact ⟨rfl, hinner (Expr.nested.inj heq)⟩
  | @system m _ => exact fun _ => m.isRemainderByQuotient_of_mem r.dateColumn

/-- **Two dialects, one value**: the texts of a formula in the two dialects are read as
expressions, the one with the value of the compiled expression and the other with
that of the same with its remainders first. Under all exact arithmetic, as that of the
rational numbers is (`Sql.Interpretation.exact_rational`), these are equal if and only
if no remainder is taken by a quotient that has no parentheses. -/
theorem values_agree_iff (h : r.compile .bigQuery formula current = .ok c)
    (h' : r.compile .duckDb formula current = .ok c') (parsed : Formula.read formula = .ok f)
    (free : ∀ g, r.Involves f g → ∀ name ∈ g.references, ¬ r.NamesSystem (.reference name))
    (plain : ∀ node ∈ c.expr.nodes, node.Plain) :
    ∃ e e', Sql.read c.sql = some e ∧ Sql.readDuckDb c'.sql = some e' ∧
      (∀ {α : Type} (I : Interpretation α), I.Exact →
        e.value I = c.expr.value I ∧ e'.value I = c.expr.remaindersFirst.value I) ∧
      ((∀ {α : Type} (I : Interpretation α), I.Exact → e.value I = e'.value I) ↔
        ∀ node ∈ c.expr.nodes, node.isRemainderByQuotient = false) := by
  obtain ⟨references, f₁, hc⟩ := compile_eq_ok_iff.1 h
  obtain ⟨references', f₂, hc'⟩ := compile_eq_ok_iff.1 h'
  obtain rfl := Except.ok.inj (hc.parsed.symm.trans parsed)
  obtain rfl := Except.ok.inj (hc'.parsed.symm.trans parsed)
  have hexpr : c'.expr = c.expr := Except.ok.inj (hc'.lowered.symm.trans hc.lowered)
  have hshaped := Formula.shaped_of_read parsed
  have hsettles := settles_of_free hc.lowered hshaped free plain
  have hsettles' := settlesInDuckDb_of_lower hc.lowered hshaped free plain
  obtain ⟨n, -, e, hreads, -, hvalue⟩ := hsettles.written plain
  obtain ⟨e', hreads', hvalue'⟩ := hsettles'.spelled f₂.level_pos (by decide)
  refine ⟨e, e', hc.sql_eq ▸ Sql.read_of_reads hreads, ?_,
    fun I hI => ⟨hvalue I hI.addAssoc, hvalue' I hI⟩, ?_⟩
  · rw [hc'.sql_eq, hexpr]
    exact Sql.readDuckDb_of_reads hreads'
  · rw [← remaindersFirst_eq_self_iff_of_lower hc.lowered, Expr.remaindersFirst_eq_self_iff]
    refine ⟨fun hagree α I hI => ?_, fun hagree α I hI => ?_⟩
    · rw [← hvalue' I hI, ← hvalue I hI.addAssoc, hagree I hI]
    · rw [hvalue' I hI, hvalue I hI.addAssoc, hagree I hI]

/-- Three sums. -/
def sumsDocument : SchemaDocument where
  table := "sales"
  sourceTable := "raw.sales"
  baseMetrics := [{ id := "a", sourceColumns := ["a"], aggregation := .sum },
    { id := "b", sourceColumns := ["b"], aggregation := .sum },
    { id := "c", sourceColumns := ["c"], aggregation := .sum }]

theorem exists_read_of_sums {s : String} (h : (Formula.read s).toOption.any (fun f => decide
      (∀ name ∈ f.references, ¬ NamesSystem ⟨sumsDocument⟩ (.reference name))) = true) :
    ∃ f, Formula.read s = .ok f ∧ ∀ g, Involves ⟨sumsDocument⟩ f g →
      ∀ name ∈ g.references, ¬ NamesSystem ⟨sumsDocument⟩ (.reference name) := by
  obtain ⟨f, hread, hf⟩ := Except.exists_of_any h
  exact ⟨f, hread, forall_involves (of_decide_eq_true hf) fun m hm => by cases hm⟩

/-- A quotient after a sign and after a factor. -/
theorem values_agree_of_sums :
    ∃ c c' e e', compile ⟨sumsDocument⟩ .bigQuery
        "-SAFE_DIVIDE({a}, {b}) - {a} * SAFE_DIVIDE({b}, {c})" none = .ok c ∧
      compile ⟨sumsDocument⟩ .duckDb
        "-SAFE_DIVIDE({a}, {b}) - {a} * SAFE_DIVIDE({b}, {c})" none = .ok c' ∧
      c'.sql = "-(SUM(\"a\")) / NULLIF(SUM(\"b\"), 0) - " ++
        "SUM(\"a\") * (SUM(\"b\")) / NULLIF(SUM(\"c\"), 0)" ∧
      Sql.read c.sql = some e ∧ Sql.readDuckDb c'.sql = some e' ∧
      ∀ leaf text call,
        e.value (.rational leaf text call) = e'.value (.rational leaf text call) := by
  obtain ⟨c, hc, hnodes⟩ := Except.exists_of_any
    (x := compile ⟨sumsDocument⟩ .bigQuery
      "-SAFE_DIVIDE({a}, {b}) - {a} * SAFE_DIVIDE({b}, {c})" none)
    (p := fun c => decide ((∀ node ∈ c.expr.nodes, node.Plain) ∧
      ∀ node ∈ c.expr.nodes, node.isRemainderByQuotient = false))
    (by decide +kernel)
  obtain ⟨hplain, hremainder⟩ := of_decide_eq_true hnodes
  obtain ⟨c', hc', hsql⟩ := Except.exists_of_any
    (x := compile ⟨sumsDocument⟩ .duckDb
      "-SAFE_DIVIDE({a}, {b}) - {a} * SAFE_DIVIDE({b}, {c})" none)
    (p := fun c => decide (c.sql = "-(SUM(\"a\")) / NULLIF(SUM(\"b\"), 0) - " ++
      "SUM(\"a\") * (SUM(\"b\")) / NULLIF(SUM(\"c\"), 0)"))
    (by decide +kernel)
  obtain ⟨f, hread, hfree⟩ := exists_read_of_sums
    (s := "-SAFE_DIVIDE({a}, {b}) - {a} * SAFE_DIVIDE({b}, {c})") (by decide +kernel)
  obtain ⟨e, e', hreads, hreads', -, hiff⟩ := values_agree_iff hc hc' hread hfree hplain
  exact ⟨c, c', e, e', hc, hc', of_decide_eq_true hsql, hreads, hreads',
    fun leaf text call => hiff.2 hremainder _ (Interpretation.exact_rational leaf text call)⟩

def sums : Expr → Option ℚ
  | .aggregate .sum (.column none "a") => some 7
  | .aggregate .sum (.column none "b") => some 3
  | .aggregate .sum (.column none "c") => some 2
  | _ => none

/-- A remainder by a quotient: what 7 leaves by three halves is 1, and half of what
it leaves by 3 is one half. -/
theorem exists_values_ne :
    ∃ document r, ofDocument document = .ok r ∧ ∃ formula c c' f,
      r.compile .bigQuery formula none = .ok c ∧ r.compile .duckDb formula none = .ok c' ∧
      Formula.read formula = .ok f ∧
      (∀ g, r.Involves f g → ∀ name ∈ g.references, ¬ r.NamesSystem (.reference name)) ∧
      ∃ e e', Sql.read c.sql = some e ∧ Sql.readDuckDb c'.sql = some e' ∧
        ∃ leaf text call,
          e.value (.rational leaf text call) ≠ e'.value (.rational leaf text call) := by
  obtain ⟨r, hr⟩ := Except.exists_of_toBool (x := ofDocument sumsDocument) (by decide +kernel)
  obtain rfl := document_of_ofDocument hr
  obtain ⟨c, hc, hvalue⟩ := Except.exists_of_any
    (x := compile ⟨sumsDocument⟩ .bigQuery "{a} % SAFE_DIVIDE({b}, {c})" none)
    (p := fun c => decide ((Sql.read c.sql).map
      (·.value (.rational sums (fun _ => none) fun _ _ => none)) = some (some 1)))
    (by decide +kernel)
  obtain ⟨c', hc', hvalue'⟩ := Except.exists_of_any
    (x := compile ⟨sumsDocument⟩ .duckDb "{a} % SAFE_DIVIDE({b}, {c})" none)
    (p := fun c => decide ((Sql.readDuckDb c.sql).map
      (·.value (.rational sums (fun _ => none) fun _ _ => none)) = some (some (1 / 2))))
    (by decide +kernel)
  obtain ⟨e, he, hone⟩ := Option.map_eq_some_iff.1 (of_decide_eq_true hvalue)
  obtain ⟨e', he', hhalf⟩ := Option.map_eq_some_iff.1 (of_decide_eq_true hvalue')
  obtain ⟨f, hread, hfree⟩ := exists_read_of_sums (s := "{a} % SAFE_DIVIDE({b}, {c})")
    (by decide +kernel)
  refine ⟨_, _, hr, _, c, c', f, hc, hc', hread, hfree, e, e', he, he', sums, fun _ => none,
    fun _ _ => none, ?_⟩
  rw [hone, hhalf]
  decide +kernel

end Registry

end MetricLayer
