import MetricLayer.Proofs.Formula.Emission
import MetricLayer.Proofs.Formula.Grammar
import MetricLayer.Proofs.Sql.Texts

/-!
# Texts of a formula in SQL

The texts in a formula (`Formula.literals`) are those among the tokens that it is split
into, in order (`literals_of_read`). What it is lowered to has these texts, and those of
the formulas that it involves, among its own (`Registry.literals_of_lower`), and quotes
nothing but names and texts (`Registry.quotesNothing_of_lower`). So each text of a formula
is one literal of the compiled SQL, with the same value (`Registry.texts_reach_sql`).
-/

namespace MetricLayer

open Sql (Expr)

variable {d : Sql.Dialect}

theorem ArithOp.texts_apply (op : ArithOp) (l r : Expr) :
    (op.apply l r).texts d = l.texts d ++ r.texts d := by
  cases op with
  | divide =>
    rw [apply, Expr.texts_call (by decide) rfl]
    simp
  | add | subtract | multiply | modulo => exact List.flatMap_append

namespace Formula

/-- The value of a token that is a text. -/
def Token.literals : Token → List String
  | .literal value => [value]
  | _ => []

mutual

/-- The values of the texts, in order and with repetitions. -/
def literals : Formula → List String
  | .literal value => [value]
  | .reference _ | .number _ => []
  | .negate f | .group f => f.literals
  | .binary _ l r => l.literals ++ r.literals
  | .call _ arguments => literalsOf arguments

def literalsOf : List Formula → List String
  | [] => []
  | f :: rest => f.literals ++ literalsOf rest

end

theorem listing_literals : Listing Token.literals literals literalsOf where
  operand _ _ h := by cases h <;> rfl
  negate _ := rfl
  group _ := rfl
  binary _ _ _ := rfl
  call _ _ := rfl
  nil := rfl
  cons _ _ := rfl
  op _ := rfl
  ident _ := rfl
  opening := rfl
  closing := rfl
  comma := rfl

/-- The texts of a formula are those that its text is split into. -/
theorem literals_of_read {s : String} {f : Formula} (h : read s = .ok f) :
    ∃ placed, tokens s = .ok placed ∧ f.literals = placed.flatMap (·.token.literals) := by
  obtain ⟨placed, htokens, hlisted⟩ := listing_literals.eq_of_read h
  exact ⟨placed, htokens, by rw [hlisted, List.flatMap_map]⟩

/-! ## Lowering -/

variable {resolve : String → Except Error Expr}

/-- Among some texts there are the given ones in order, and those of what the references
stand for. -/
structure Carries (d : Sql.Dialect) (resolve : String → Except Error Expr)
    (literals references texts : List String) : Prop where
  own : literals.Sublist texts
  referred : ∀ name ∈ references, ∃ e, resolve name = .ok e ∧ (e.texts d).Sublist texts

theorem Carries.append {literals literals' references references' texts texts' : List String}
    (h : Carries d resolve literals references texts)
    (h' : Carries d resolve literals' references' texts') :
    Carries d resolve (literals ++ literals') (references ++ references') (texts ++ texts') where
  own := h.own.append h'.own
  referred := by
    refine List.forall_mem_append.2 ⟨fun name hname => ?_, fun name hname => ?_⟩
    · obtain ⟨e, he, hsub⟩ := h.referred name hname
      exact ⟨e, he, hsub.trans (List.sublist_append_left _ _)⟩
    · obtain ⟨e, he, hsub⟩ := h'.referred name hname
      exact ⟨e, he, hsub.trans (List.sublist_append_right _ _)⟩

theorem keepsLiterals : KeptByLowering resolve fun f e =>
    Carries d resolve f.literals f.references (e.texts d) where
  number _ := ⟨List.nil_sublist _, by simp [references]⟩
  literal value := ⟨List.Sublist.refl [value], by simp [references]⟩
  negate _ _ _ h := h
  group _ _ h := h
  binary op l r L R hl hr := by
    rw [ArithOp.texts_apply]
    exact hl.append hr
  call name f fs es hf harity h := by
    obtain ⟨-, hdate⟩ := ne_of_ofFormulaName? hf
    obtain ⟨hcan, -⟩ := canCall_of_admits hdate (h.length_eq ▸ harity)
    rw [Expr.texts_call hdate hcan, literals, references]
    clear hcan harity
    induction h with
    | nil => exact ⟨List.nil_sublist _, by simp [referencesOf]⟩
    | cons hhead _ ih => exact hhead.append ih

theorem keepsQuotesNothing : KeptByLowering resolve fun f e =>
    f.Shaped → ∀ node ∈ e.nodes, node.QuotesNothing where
  number
  | _, .number hnumber => by
    simp only [Expr.nodes, List.forall_mem_singleton]
    intro c hc
    rcases hnumber.isNumeral c hc with hdigit | rfl
    · exact Sql.isQuote_of_isDigit hdigit
    · rfl
  literal _ _ := by simp [Expr.ofText, Expr.nodes, Expr.QuotesNothing]
  negate
  | _, _, _, h, .negate hoperand _ => List.forall_mem_cons.2 ⟨trivial, h hoperand⟩
  group
  | _, _, h, .group hinner => List.forall_mem_cons.2 ⟨trivial, h hinner⟩
  binary op l r L R hl hr hshaped := by
    obtain ⟨hshapedl, hshapedr⟩ := hshaped.operands
    have hnodes := List.forall_mem_append.2 ⟨hl hshapedl, hr hshapedr⟩
    cases op with
    | divide => simpa [ArithOp.apply, Expr.nodes, Expr.nodesOf, Expr.QuotesNothing] using hnodes
    | add | subtract | multiply | modulo => exact List.forall_mem_cons.2 ⟨trivial, hnodes⟩
  call
  | name, f, fs, es, _, harity, h, .call harguments => by
    refine List.forall_mem_cons.2 ⟨trivial, ?_⟩
    clear harity
    induction h with
    | nil => simp [Expr.nodesOf]
    | cons hhead _ ih =>
      rw [List.forall_mem_cons] at harguments
      exact List.forall_mem_append.2 ⟨hhead harguments.1, ih harguments.2⟩

end Formula

/-! ## Metrics -/

theorem BaseMetric.quotesNothing_expr (m : BaseMetric) :
    ∀ node ∈ m.expr.nodes, node.QuotesNothing := by
  rw [expr, Expr.nodes, List.forall_mem_cons]
  refine ⟨trivial, ?_⟩
  rcases m.input_cases with ⟨columns, -, hinput⟩ | ⟨column, hinput⟩ <;> rw [hinput]
  · refine Sql.forall_nodes_compositeKey trivial trivial fun column => ?_
    simp [Expr.keyPart, Expr.replaceAll, Expr.ofColumn, Expr.ofText, Expr.nodes, Expr.nodesOf,
      Expr.QuotesNothing]
  · simp [Expr.ofColumn, Expr.nodes, Expr.QuotesNothing]

theorem SystemMetric.quotesNothing_expr (m : SystemMetric) (dateColumn : String) :
    ∀ node ∈ (m.expr dateColumn).nodes, node.QuotesNothing := by
  cases m
  simp [expr, Expr.ofColumn, Expr.ofInt, Expr.nodes, Expr.nodesOf, Expr.QuotesNothing]

namespace Registry

variable {r : Registry} {f : Formula} {e : Expr} {visiting : List String}

theorem quotesNothing_of_lower (h : f.lower (r.expand visiting) = .ok e) (hshaped : f.Shaped) :
    ∀ node ∈ e.nodes, node.QuotesNothing := by
  revert hshaped
  refine holds_of_lower (P := fun f e => f.Shaped → ∀ node ∈ e.nodes, node.QuotesNothing) ?_ h
  intro resolve f e h hresolve hshaped
  refine Formula.keepsQuotesNothing.holds f (fun name _ e he _ => ?_) e h hshaped
  cases hresolve name e he with
  | base => exact BaseMetric.quotesNothing_expr _
  | calculated _ parsed hinner =>
    exact List.forall_mem_cons.2 ⟨trivial, hinner (Formula.shaped_of_read parsed)⟩
  | system => exact SystemMetric.quotesNothing_expr _ _

/-- What a formula is lowered to has the texts of every formula that it involves. -/
theorem literals_of_lower (h : f.lower (r.expand visiting) = .ok e) :
    ∀ g, r.Involves f g → g.literals.Sublist (e.texts d) := by
  refine holds_of_lower (P := fun f e => ∀ g, r.Involves f g → g.literals.Sublist (e.texts d)) ?_ h
  intro resolve f e h hresolve g hg
  have hcarries : Formula.Carries d resolve f.literals f.references (e.texts d) := by
    refine Formula.keepsLiterals.holds f (fun name _ e he => ⟨List.nil_sublist _, ?_⟩) e h
    exact List.forall_mem_singleton.2 ⟨e, he, List.Sublist.refl _⟩
  cases hg with
  | self => exact hcarries.own
  | through referred known parsed rest =>
    obtain ⟨e', he', hsub⟩ := hcarries.referred _ referred
    cases hresolve _ e' he' with
    | base known' => simp [known] at known'
    | system known' => simp [known] at known'
    | calculated known' parsed' inner =>
      obtain rfl := MetricKind.calculated.inj (Option.some.inj (known.symm.trans known'))
      obtain rfl := Except.ok.inj (parsed.symm.trans parsed')
      exact (inner g rest).trans hsub

/-- **Texts keep their values**: in each dialect the literal of any value is read back as that
value, with what was written after it, and so is a literal in a formula. The texts of a
formula are those that its text is split into. What it is lowered to has the texts of all
formulas that it involves, and its SQL is made of quoted names, of literals that are each read
as their value, and of what quotes nothing. If no name in it has a backslash where that
escapes, the SQL is split into just these names and texts. A compiled formula has this SQL. -/
theorem texts_reach_sql (d : Sql.Dialect) :
    (∀ (s : String) (rest : List Char), rest.head? ≠ some '\'' →
      d.nextToken? ((d.literal (.text s)).toList ++ rest) = some (.text s, rest)) ∧
    (∀ (s : String) (rest : List Char) (position : Nat), rest.head? ≠ some '\'' →
      Formula.tokenAt position '\'' (Formula.doubled s.toList ++ ['\''] ++ rest) =
        .ok (.literal s, (Formula.doubled s.toList ++ ['\'']).length)) ∧
    ∀ (formula : String) (f : Formula), Formula.read formula = .ok f →
      (∃ placed, Formula.tokens formula = .ok placed ∧
        f.literals = placed.flatMap (·.token.literals)) ∧
      ∀ r : Registry,
        (∀ visiting e, f.lower (r.expand visiting) = .ok e →
          (∀ g, r.Involves f g → g.literals.Sublist (e.texts d)) ∧
          Sql.Woven d (e.quoted d) (e.render d).toList ∧
          ((d = .bigQuery → ∀ name, .name name ∈ e.quoted d → '\\' ∉ name.toList) →
            Sql.quotedIn? d (e.render d).toList = some (e.quoted d))) ∧
        ∀ current c, r.compile d formula current = .ok c →
          f.lower (r.expand current.toList) = .ok c.expr ∧ c.sql = c.expr.render d := by
  refine ⟨fun s rest hrest => d.nextToken?_quoteText s hrest,
    fun s rest position hrest => Formula.tokenAt_of_literal s hrest position,
    fun formula f hread => ⟨Formula.literals_of_read hread, fun r => ⟨fun visiting e hlower => ?_,
      fun current c hc => ?_⟩⟩⟩
  · have hweaves := Sql.weaves_render (d := d) e
      (quotesNothing_of_lower hlower (Formula.shaped_of_read hread))
    have hwoven : Sql.Woven d (e.quoted d) (e.render d).toList := by
      simpa using hweaves [] [] rfl .nil
    exact ⟨literals_of_lower hlower, hwoven, hwoven.quotedIn?_eq_some⟩
  · obtain ⟨references, f', hcompiled⟩ := compile_eq_ok_iff.1 hc
    obtain rfl := Except.ok.inj (hread.symm.trans hcompiled.parsed)
    exact ⟨hcompiled.lowered, hcompiled.sql_eq⟩

/-- A calculated metric with a quote in a text. -/
def labelDocument : SchemaDocument where
  table := "web"
  sourceTable := "raw.web"
  baseMetrics := [{ id := "clicks", sourceColumns := ["clicks"], aggregation := .sum }]
  calculatedMetrics := [{ id := "label", formula := "COALESCE({clicks}, 'it''s')" }]

/-- Quotes, backslashes and the end of a line. -/
theorem texts_reach_sql_of_label :
    ", 0".toList.head? ≠ some '\'' ∧
    (∀ d : Sql.Dialect, d.nextToken? ((d.literal (.text "\\'\n\\")).toList ++ ", 0".toList) =
      some (.text "\\'\n\\", ", 0".toList)) ∧
    ∃ f e c, Formula.read "IFNULL({label}, '\\''\n\\')" = .ok f ∧
      f.lower (expand ⟨labelDocument⟩ []) = .ok e ∧
      compile ⟨labelDocument⟩ .duckDb "IFNULL({label}, '\\''\n\\')" none = .ok c ∧
      c.sql = "ifnull((coalesce(SUM(\"clicks\"), 'it''s')), '\\''\n\\')" ∧
      e.render .bigQuery = "IFNULL((COALESCE(SUM(`clicks`), 'it\\'s')), '\\\\\\'\n\\\\')" ∧
      ∀ d : Sql.Dialect, e.texts d = ["it's", "\\'\n\\"] ∧
        Sql.Woven d (e.quoted d) (e.render d).toList ∧
        Sql.quotedIn? d (e.render d).toList = some (e.quoted d) := by
  have hnext : ", 0".toList.head? ≠ some '\'' := by decide +kernel
  obtain ⟨c, hc, hwritten⟩ := Except.exists_of_any
    (x := compile ⟨labelDocument⟩ .duckDb "IFNULL({label}, '\\''\n\\')" none)
    (p := fun c => decide (
      c.sql = "ifnull((coalesce(SUM(\"clicks\"), 'it''s')), '\\''\n\\')" ∧
      c.expr.render .bigQuery =
        "IFNULL((COALESCE(SUM(`clicks`), 'it\\'s')), '\\\\\\'\n\\\\')" ∧
      c.expr.quoted .bigQuery = c.expr.quoted .duckDb ∧
      c.expr.quoted .duckDb = [.name "clicks", .text "it's", .text "\\'\n\\"])) (by decide +kernel)
  obtain ⟨hsql, hbigQuery, hsame, hquoted⟩ := of_decide_eq_true hwritten
  obtain ⟨f, hread, -⟩ := Except.exists_of_any
    (x := Formula.read "IFNULL({label}, '\\''\n\\')") (p := fun _ => true) (by decide +kernel)
  have hquoted (d : Sql.Dialect) :
      c.expr.quoted d = [.name "clicks", .text "it's", .text "\\'\n\\"] := by
    cases d with
    | bigQuery => rw [hsame, hquoted]
    | duckDb => exact hquoted
  have hlower : f.lower (expand ⟨labelDocument⟩ []) = .ok c.expr :=
    (((texts_reach_sql .duckDb).2.2 _ f hread).2 _).2 none c hc |>.1
  refine ⟨hnext, fun d => (texts_reach_sql d).1 _ _ hnext, f, c.expr, c, hread, hlower, hc, hsql,
    hbigQuery, fun d => ?_⟩
  obtain ⟨-, -, hformulas⟩ := texts_reach_sql d
  obtain ⟨-, hwoven, hfound⟩ := ((hformulas _ f hread).2 ⟨labelDocument⟩).1 _ _ hlower
  refine ⟨by rw [Expr.texts, hquoted]; rfl, hwoven, hfound fun _ name hname => ?_⟩
  obtain rfl : name = "clicks" := by simpa [hquoted] using hname
  decide

end Registry

end MetricLayer
