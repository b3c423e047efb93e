import MetricLayer.Proofs.Formula.Emission
import MetricLayer.Proofs.Sql.Sums

/-!
# Misplaced system metrics

A system metric is lowered to a sum without parentheses, which an operator or a
sign that binds tighter takes apart. Where it is misplaced (`Registry.Misplaces`)
the text therefore weighs less than the expression that it was made from
(`Formula.keepsWeight`, `Registry.weighs_of_lower`), through any depth of
calculated metrics, and then it does not have the value of the formula;
everywhere else it does (`Registry.read_sql_means_iff`).
-/

namespace MetricLayer

open Sql (Expr Interpretation Written ReadsSum WeighsAtMost WeighAtMost)

/-- A system metric is two terms. -/
theorem SystemMetric.weighsAtMost_expr {dateColumn : String} (m : SystemMetric)
    (h : ∀ node ∈ (m.expr dateColumn).nodes, node.Plain) :
    WeighsAtMost 4 ((m.expr dateColumn).render .bigQuery) (m.expr dateColumn).weight
      False True := by
  have hcolumn := plain_of_expr h
  cases m
  obtain ⟨difference, hdifference, hweight⟩ := (@written_dateDiff False _ hcolumn).exists_weight
  obtain ⟨one, hone, hweight'⟩ := (Sql.written_one not_false).exists_weight
  refine ⟨[difference] ++ [one], ?_, Nat.le_of_eq ?_, False.elim, fun _ => Nat.lt_succ_self 1⟩
  · have hsum := ReadsSum.add (.one hdifference) hone (Nat.le_refl 4) (by decide)
    rwa [← ReadsSum.eq_add] at hsum
  · simp [expr, hweight, hweight']

/-- The text of what `f` is lowered to weighs no more than its expression, and less
if `lighter`. A system metric is several terms. -/
def Registry.Weighs (r : Registry) (f : Formula) (e : Expr) (lighter : Prop) : Prop :=
  WeighsAtMost f.level (e.render .bigQuery) e.weight lighter (r.NamesSystem f) ∧
    (e.isNegation = true → ¬ r.NamesSystem f)

namespace Formula

variable {r : Registry} {resolve : String → Except Error Expr} {wrong : String → Prop}

/-- Among these formulas one misplaces a system metric, or something is wrong with
one of the references. -/
def AnyWrong (r : Registry) (wrong : String → Prop) (parts : List Formula)
    (references : List String) : Prop :=
  (∃ part ∈ parts, r.Misplaces part) ∨ ∃ name ∈ references, wrong name

theorem anyWrong_cons {part : Formula} {parts : List Formula} {references : List String} :
    AnyWrong r wrong (part :: parts) references ↔
      r.Misplaces part ∨ AnyWrong r wrong parts references := by
  simp [AnyWrong, or_assoc]

theorem anyWrong_append {parts parts' : List Formula} {references references' : List String} :
    AnyWrong r wrong (parts ++ parts') (references ++ references') ↔
      AnyWrong r wrong parts references ∨ AnyWrong r wrong parts' references' := by
  simp only [AnyWrong, List.mem_append, or_and_right, exists_or]
  exact or_or_or_comm

theorem not_anyWrong_nil : ¬ AnyWrong r wrong [] [] := by simp [AnyWrong]

/-- Something is wrong with the formula. -/
def IsWrong (r : Registry) (wrong : String → Prop) (f : Formula) : Prop :=
  AnyWrong r wrong f.nodes f.references

theorem isWrong_reference {name : String} : (reference name).IsWrong r wrong ↔ wrong name := by
  simp [IsWrong, AnyWrong, nodes, references, Registry.Misplaces]

/-- Arguments weigh less if something is wrong with one of them. -/
theorem weighAtMost_of_forall₂ {fs : List Formula} {es : List Expr}
    (h : List.Forall₂ (fun f e => f.Shaped → (∀ node ∈ e.nodes, node.Plain) →
      r.Weighs f e (f.IsWrong r wrong)) fs es)
    (hshaped : ∀ f ∈ fs, f.Shaped) (hplain : ∀ node ∈ Expr.nodesOf es, node.Plain) :
    WeighAtMost es (AnyWrong r wrong (nodesOf fs) (referencesOf fs)) := by
  induction h with
  | nil => exact Sql.weighAtMost_nil.weaken not_anyWrong_nil
  | @cons f e _ _ hweighs _ ih =>
    simp only [Expr.nodesOf, List.forall_mem_append] at hplain
    rw [List.forall_mem_cons] at hshaped
    have hhead := (hweighs hshaped.1 hplain.1).1
    exact (hhead.cons f.level_pos (ih hshaped.2 hplain.2)).weaken anyWrong_append.1

/-- An operation weighs less if an operand does, or if it takes a system metric
apart. -/
theorem weighs_binary {op : ArithOp} {l rt : Formula} {L R : Expr}
    (hshaped : (Formula.binary op l rt).Shaped) {lighter lighter' : Prop}
    (hl : r.Weighs l L lighter) (hr : r.Weighs rt R lighter') :
    r.Weighs (.binary op l rt) (op.apply L R)
      (r.Misplaces (.binary op l rt) ∨ lighter ∨ lighter') := by
  cases hshaped with
  | binary _ _ hleftLevel hrightLevel =>
    refine ⟨?_, fun _ => id⟩
    obtain ⟨hleft, -⟩ := hl
    obtain ⟨hright, hnegation⟩ := hr
    have hoperand : WeighsAtMost (op.precedence + 1)
        (Expr.parenthesizedIf R.isNegation (R.render .bigQuery)) R.weight lighter'
        (r.NamesSystem rt) :=
      hright.parenthesizedIf rt.level_pos (Nat.succ_le_succ (Nat.le_of_lt op.precedence_lt))
        (.inr hrightLevel) hnegation
    cases op with
    | divide =>
      have hcall := (hleft.cons l.level_pos (hright.cons rt.level_pos Sql.weighAtMost_nil)).call
        (f := .safeDivide) (by decide) (by decide) rfl (List.cons_ne_nil _ _)
      refine hcall.weaken (Nat.le_of_ble_eq_true rfl) ?_ id
      exact fun h => (h.resolve_left id).imp_right .inl
    | multiply | modulo =>
      refine (hleft.product hoperand rfl hleftLevel (Nat.le_refl 3)).weaken (Nat.le_refl 2) ?_ id
      simp only [Registry.Misplaces]
      tauto
    | subtract =>
      refine (hleft.subtract hoperand l.level_pos (Nat.lt_succ_self 1)).weaken (Nat.le_refl 1) ?_ id
      simp only [Registry.Misplaces]
      tauto
    | add =>
      refine (hleft.add hoperand l.level_pos (Nat.lt_succ_self 1)).weaken (Nat.le_refl 1) ?_ id
      exact fun h => h.resolve_left id

/-- The text of a formula weighs less than its expression if something is wrong. -/
theorem keepsWeight : KeptByLowering resolve fun f e =>
    f.Shaped → (∀ node ∈ e.nodes, node.Plain) → r.Weighs f e (f.IsWrong r wrong) where
  number
  | digits, .number hnumber, _ => by
    have hwritten : Written True (.raw digits) 4 := Sql.written_number hnumber
    refine ⟨hwritten.weighsAtMost.weaken (Nat.le_refl 4) ?_ id, fun _ => id⟩
    simp [IsWrong, AnyWrong, nodes, references, Registry.Misplaces]
  literal value _ _ := by
    have hwritten : Written True (.ofText value) 4 := Sql.written_text value
    refine ⟨hwritten.weighsAtMost.weaken (Nat.le_refl 4) ?_ id, fun _ => id⟩
    simp [IsWrong, AnyWrong, nodes, references, Registry.Misplaces]
  negate
  | f, inner, hinner, h, .negate hoperand hlevel, hplain => by
    simp only [Expr.nodes, List.forall_mem_cons] at hplain
    obtain ⟨hweighs, hnegation⟩ := h hoperand hplain.2
    refine ⟨(hweighs.parenthesizedIf f.level_pos (Nat.le_refl 4)
      (isNegation_or_of_lower hinner hlevel) hnegation).negate.weaken (Nat.le_refl 3) ?_ id,
      fun _ => id⟩
    rw [IsWrong, nodes, anyWrong_cons]
    exact Or.symm
  group
  | f, inner, h, .group hoperand, hplain => by
    simp only [Expr.nodes, List.forall_mem_cons] at hplain
    obtain ⟨hweighs, -⟩ := h hoperand hplain.2
    refine ⟨(hweighs.group f.level_pos).weaken (Nat.le_refl 4) ?_ id, fun _ => id⟩
    rw [IsWrong, nodes, anyWrong_cons]
    exact fun h => h.resolve_left id
  binary op l rt left right hl hr hshaped hplain := by
    obtain ⟨hplainl, hplainr⟩ := plain_of_apply hplain
    obtain ⟨hshapedl, hshapedr⟩ := hshaped.operands
    have hweighs := weighs_binary hshaped (hl hshapedl hplainl) (hr hshapedr hplainr)
    rwa [IsWrong, nodes, references, anyWrong_cons, anyWrong_append]
  call
  | name, f, fs, es, hf, harity, h, .call harguments, hplain => by
    simp only [Expr.nodes, List.forall_mem_cons] at hplain
    obtain ⟨hcast, hdate⟩ := ne_of_ofFormulaName? hf
    obtain ⟨hcan, hpos⟩ := canCall_of_admits hdate (h.length_eq ▸ harity)
    have hweighs := (weighAtMost_of_forall₂ h harguments hplain.2).call hcast hdate hcan
      (List.ne_nil_of_length_pos hpos)
    refine ⟨hweighs.weaken (Nat.le_refl 4) ?_ id, fun _ => id⟩
    rw [IsWrong, nodes, anyWrong_cons]
    exact fun h => h.resolve_left id

end Formula

namespace Registry

variable {r : Registry} {formula : String} {current : Option String} {f : Formula}
  {c : CompiledFormula}

theorem not_namesSystem_of_metric? {name : String} {k : MetricKind} (h : r.metric? name = some k)
    (hk : ∀ m, k ≠ .system m) : ¬ r.NamesSystem (.reference name) := by
  rintro ⟨m, hm⟩
  exact hk m (Option.some.inj (h.symm.trans hm))

/-- The text of a formula weighs less than its expression if a formula that it
involves misplaces a system metric. -/
theorem weighs_of_lower {visiting : List String} {e : Expr}
    (h : f.lower (r.expand visiting) = .ok e) (hshaped : f.Shaped)
    (hplain : ∀ node ∈ e.nodes, node.Plain) :
    r.Weighs f e (∃ g, r.Involves f g ∧ ∃ part ∈ g.nodes, r.Misplaces part) := by
  revert hshaped hplain
  refine holds_of_lower (P := fun f e => f.Shaped → (∀ node ∈ e.nodes, node.Plain) →
    r.Weighs f e (∃ g, r.Involves f g ∧ ∃ part ∈ g.nodes, r.Misplaces part)) ?_ h
  intro resolve f e h hresolve hshaped hplain
  -- a reference is as wrong as the formula of the metric that it names
  let wrong (name : String) : Prop := ∃ m inner, r.metric? name = some (.calculated m) ∧
    Formula.read m.formula = .ok inner ∧
      ∃ g, r.Involves inner g ∧ ∃ part ∈ g.nodes, r.Misplaces part
  have hweighs : r.Weighs f e (f.IsWrong r wrong) := by
    refine Formula.keepsWeight.holds f ?_ e h hshaped hplain
    intro name hname e he _ hplain
    rw [Formula.isWrong_reference]
    cases hresolve name e he with
    | @base m known =>
      have hsystem := not_namesSystem_of_metric? known fun _ => nofun
      have hwritten : Written True m.expr 4 := m.written_expr hplain
      refine ⟨hwritten.weighsAtMost.weaken (Nat.le_refl 4) ?_ hsystem, fun _ => hsystem⟩
      rintro ⟨m', inner, hm', -⟩
      cases known.symm.trans hm'
    | @calculated m g e known parsed hinner =>
      have hsystem := not_namesSystem_of_metric? known fun _ => nofun
      simp only [Expr.nodes, List.forall_mem_cons] at hplain
      obtain ⟨hweighs, -⟩ := hinner (Formula.shaped_of_read parsed) hplain.2
      refine ⟨(hweighs.group g.level_pos).weaken (Nat.le_refl 4) ?_ hsystem, fun _ => hsystem⟩
      rintro ⟨m', inner, hm', hinner', hwrong⟩
      obtain rfl := MetricKind.calculated.inj (Option.some.inj (known.symm.trans hm'))
      obtain rfl := Except.ok.inj (parsed.symm.trans hinner')
      exact hwrong
    | @system m known =>
      refine ⟨(m.weighsAtMost_expr hplain).weaken (Nat.le_refl 4) ?_ fun _ => trivial, ?_⟩
      · rintro ⟨m', inner, hm', -⟩
        cases known.symm.trans hm'
      · cases m
        exact nofun
  refine ⟨hweighs.1.weaken (Nat.le_refl _) ?_ id, hweighs.2⟩
  rintro ⟨g, hg, hmisplaced⟩
  cases hg with
  | self => exact .inl hmisplaced
  | through referred known parsed rest =>
    exact .inr ⟨_, referred, _, _, known, parsed, g, rest, hmisplaced⟩

/-- **A system metric is one operand** where it is not misplaced: the text of a
compiled formula is read as an expression that has the value of the formula,
whatever sums do not depend on how they are grouped, if and only if no formula
that it involves misplaces a system metric. -/
theorem read_sql_means_iff (h : r.compile .bigQuery formula current = .ok c)
    (parsed : Formula.read formula = .ok f) (plain : ∀ node ∈ c.expr.nodes, node.Plain) :
    (∃ e, Sql.read c.sql = some e ∧
      ∀ {α : Type} (I : Interpretation α), I.AddAssoc → ∀ v, r.Means I f v ↔ v = e.value I) ↔
    ∀ g, r.Involves f g → ∀ part ∈ g.nodes, ¬ r.Misplaces part := by
  obtain ⟨references, f', hc⟩ := compile_eq_ok_iff.1 h
  obtain rfl := Except.ok.inj (hc.parsed.symm.trans parsed)
  constructor
  · rintro ⟨e, he, hmeans⟩ g hg part hpart hmisplaced
    obtain ⟨hweighs, -⟩ := weighs_of_lower hc.lowered (Formula.shaped_of_read parsed) plain
    obtain ⟨e', hreads, -, hlight⟩ := hweighs.exists_reads f'.level_pos
    rw [hc.sql_eq, Sql.read_of_reads hreads] at he
    obtain rfl := Option.some.inj he
    -- with the value of the formula the text would weigh as much as the expression
    have hvalue := (hmeans _ Interpretation.addAssoc_weighing _).1
      ((means_iff_of_lower hc.lowered _).2 rfl)
    have hweight : c.expr.weight = e'.weight := congrArg (·.getD 0) hvalue
    exact Nat.lt_irrefl _ (hweight ▸ hlight ⟨g, hg, part, hpart, hmisplaced⟩)
  · intro placed
    have hsettles : r.Settles False f' c.expr :=
      settles_of_lower hc.lowered (Formula.shaped_of_read parsed) placed False.elim plain
    obtain ⟨n, -, e, hreads, -, hvalue⟩ := hsettles.written plain
    refine ⟨e, hc.sql_eq ▸ Sql.read_of_reads hreads, fun I hI v => ?_⟩
    rw [means_iff_of_lower hc.lowered, hvalue I hI]

/-- A system metric to the right of a sum. -/
theorem read_sql_of_cpc_plus_days :
    ∃ c f, compile ⟨clicksDocument⟩ .bigQuery "{cpc} + {days_in_range}" none = .ok c ∧
      Formula.read "{cpc} + {days_in_range}" = .ok f ∧
      ∃ e, Sql.read c.sql = some e ∧ e.value clicksInterpretation = some 10 ∧
        ∀ v, Means ⟨clicksDocument⟩ clicksInterpretation f v ↔
          v = e.value clicksInterpretation := by
  obtain ⟨c, hc, hplain⟩ := Except.exists_of_any
    (x := compile ⟨clicksDocument⟩ .bigQuery "{cpc} + {days_in_range}" none)
    (p := fun c => decide ((∀ node ∈ c.expr.nodes, node.Plain) ∧
      (Sql.read c.sql).map (·.value clicksInterpretation) = some (some 10)))
    (by decide +kernel)
  obtain ⟨hplain, hten⟩ := of_decide_eq_true hplain
  have hplaced {s : String} (hs : (Formula.read s).toOption.any (fun f => decide
      (∀ part ∈ f.nodes, ¬ Misplaces ⟨clicksDocument⟩ part)) = true) :
      ∃ f, Formula.read s = .ok f ∧ ∀ part ∈ f.nodes, ¬ Misplaces ⟨clicksDocument⟩ part := by
    obtain ⟨f, hf, h⟩ := Except.exists_of_any hs
    exact ⟨f, hf, of_decide_eq_true h⟩
  obtain ⟨f, hread, hf⟩ := hplaced (s := "{cpc} + {days_in_range}") (by decide +kernel)
  obtain ⟨g, hcpc, hg⟩ := hplaced (s := "{cost} / {clicks}") (by decide +kernel)
  have hinvolved : ∀ h, Involves ⟨clicksDocument⟩ f h →
      ∀ part ∈ h.nodes, ¬ Misplaces ⟨clicksDocument⟩ part := by
    refine forall_involves hf fun m hm g' hg' => ?_
    obtain rfl := List.mem_singleton.1 hm
    obtain rfl := Except.ok.inj (hg'.symm.trans hcpc)
    exact hg
  obtain ⟨e, he, hmeans⟩ := (read_sql_means_iff hc hread hplain).2 hinvolved
  rw [he, Option.map_some] at hten
  exact ⟨c, f, hc, hread, e, he, Option.some.inj hten,
    hmeans clicksInterpretation (Interpretation.addAssoc_whole _)⟩

/-- As a factor, the days in range are taken apart: their difference is multiplied,
and the one day more is added to the product. -/
theorem exists_read_sql_value_ne :
    ∃ document r, ofDocument document = .ok r ∧ ∃ formula c f,
      r.compile .bigQuery formula none = .ok c ∧ Formula.read formula = .ok f ∧
      ∃ e, Sql.read c.sql = some e ∧ ∃ I : Interpretation Int, I.AddAssoc ∧
        ∃ v, r.Means I f v ∧ v ≠ e.value I := by
  obtain ⟨r, hr⟩ := Except.exists_of_toBool (x := ofDocument clicksDocument) (by decide +kernel)
  obtain rfl := document_of_ofDocument hr
  obtain ⟨c, hc, hvalues⟩ := Except.exists_of_any
    (x := compile ⟨clicksDocument⟩ .bigQuery "{cost} * {days_in_range}" none)
    (p := fun c => decide ((Sql.read c.sql).map (·.value clicksInterpretation) = some (some 181) ∧
      c.expr.value clicksInterpretation = some 210))
    (by decide +kernel)
  obtain ⟨hread, hmeant⟩ := of_decide_eq_true hvalues
  obtain ⟨e, he, hvalue⟩ := Option.map_eq_some_iff.1 hread
  obtain ⟨references, f, hcompiled⟩ := compile_eq_ok_iff.1 hc
  refine ⟨_, _, hr, _, c, f, hc, hcompiled.parsed, e, he, clicksInterpretation,
    Interpretation.addAssoc_whole _, some 210, ?_, ?_⟩
  · exact (means_iff_of_lower hcompiled.lowered _).2 hmeant.symm
  · rw [hvalue]
    decide

end Registry

end MetricLayer
