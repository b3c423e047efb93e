import MetricLayer.Proofs.Sql.Interpretation
import MetricLayer.Proofs.Sql.Reading
import MetricLayer.Sql.CompositeKey

/-!
# Expressions that are written well

`Written exact e n` says that the text of `e` is read, wherever an operand of the
level `n` may stand, as an expression with the value of `e`, and as `e` itself
without its parentheses if `exact`. Each kind of expression that formulas are made
of is written well if its parts are and bind as tightly as they must.
-/

namespace MetricLayer.Sql

namespace Expr

/-- If it is a column, its name has no backslash. -/
def Plain : Expr → Prop
  | .column _ name => '\\' ∉ name.toList
  | _ => True

instance : DecidablePred Plain
  | .column _ name => inferInstanceAs (Decidable ('\\' ∉ name.toList))
  | .literal _ | .date _ | .wildcard | .raw _ | .call _ _ | .cases _ _ | .binary _ _ _
  | .negate _ | .nested _ | .aggregate _ _ | .countIf _ | .inList _ _ _ => isTrue trivial

theorem mem_nodesOf {e : Expr} {es : List Expr} : e ∈ nodesOf es ↔ ∃ e' ∈ es, e ∈ e'.nodes := by
  induction es with
  | nil => simp [nodesOf]
  | cons e' es ih => simp [nodesOf, ih]

theorem bareAll_eq_map (es : List Expr) : bareAll es = es.map bare := by
  induction es with
  | nil => rfl
  | cons e es ih => rw [bareAll, List.map_cons, ih]

theorem values_eq_map {α : Type} (I : Interpretation α) (es : List Expr) :
    values I es = es.map (value I) := by
  induction es with
  | nil => rfl
  | cons e es ih => rw [values, List.map_cons, ih]

theorem renderList_eq_map (d : Dialect) (es : List Expr) : renderList d es = es.map (render d) := by
  induction es with
  | nil => rfl
  | cons e es ih => rw [renderList, List.map_cons, ih]

end Expr

attribute [local simp] Expr.nodes Expr.bare Expr.value Expr.render

/-- Wherever an operand of the level `n` may stand, the text of `e` is read as an
expression that has the value of `e`, and as `e` without its parentheses if
`exact`. -/
def Written (exact : Prop) (e : Expr) (n : Nat) : Prop :=
  ∃ e', Reads (e.render .bigQuery) e' n ∧ (exact → e' = e.bare) ∧
    ∀ {α : Type} (I : Interpretation α), I.AddAssoc → e'.value I = e.value I

variable {exact : Prop} {e l r : Expr} {n m : Nat}

theorem written_of_reads (h : Reads (e.render .bigQuery) e n) (hbare : e.bare = e) :
    Written exact e n :=
  ⟨e, h, fun _ => hbare.symm, fun _ _ => rfl⟩

/-- An expression without parentheses is read as it is. -/
theorem Written.reads (h : Written True e n) (hbare : e.bare = e) :
    Reads (e.render .bigQuery) e n := by
  obtain ⟨e', hreads, he', -⟩ := h
  rwa [he' trivial, hbare] at hreads

theorem Written.mono (h : Written exact e n) (hm : m ≤ n) : Written exact e m := by
  obtain ⟨e', hreads, hrest⟩ := h
  exact ⟨e', hreads.mono hm, hrest⟩

theorem written_column {name : String} (h : '\\' ∉ name.toList) :
    Written exact (.ofColumn name) 4 :=
  written_of_reads (reads_name h) rfl

theorem written_text (s : String) : Written exact (.ofText s) 4 :=
  written_of_reads (reads_text s) rfl

theorem written_number {digits : String} (h : Formula.IsNumber digits) :
    Written exact (.raw digits) 4 :=
  written_of_reads (reads_number h) rfl

theorem Written.nested (h : Written exact e n) : Written exact (.nested e) 4 := by
  obtain ⟨e', hreads, hbare, hvalue⟩ := h
  exact ⟨e', hreads.group, hbare, hvalue⟩

/-- A negation after a sign gets parentheses. -/
theorem Written.negate (h : Written exact e n) (hn : e.isNegation = true ∨ 4 ≤ n) :
    Written exact (.negate e) 3 := by
  obtain ⟨e', hreads, hbare, hvalue⟩ := h
  exact ⟨.negate e', (hreads.parenthesizedIf (Nat.le_refl 4) hn).negate,
    fun h => by simp [hbare h], fun I hI => by simp [hvalue I hI]⟩

theorem Written.binary {op : BinaryOp} (hl : Written exact l n) (hr : Written exact r m)
    (hop : 0 < op.precedence) (hn : op.precedence ≤ n) (hm : op.precedence < m) :
    Written exact (.binary op l r) op.precedence := by
  obtain ⟨l', hreadsl, hbarel, hvaluel⟩ := hl
  obtain ⟨r', hreadsr, hbarer, hvaluer⟩ := hr
  have hprecedence : op.precedence + 1 ≤ 4 := by cases op <;> decide
  exact ⟨.binary op l' r', hreadsl.binary (hreadsr.parenthesizedIf hprecedence (.inr hm)) hop hn
    (Nat.lt_succ_self _), fun h => by simp [hbarel h, hbarer h],
    fun I hI => by simp [hvaluel I hI, hvaluer I hI]⟩

/-- The number one, which is read as a number that has been written. -/
theorem written_one (hexact : ¬ exact) : Written exact (.ofInt 1) 4 := by
  have hone : Formula.IsNumber "1" := by
    unfold Formula.IsNumber
    decide
  have htext : (Expr.ofInt 1).render .bigQuery = "1" := by decide
  exact ⟨.raw "1", htext ▸ reads_number hone, fun h => absurd h hexact, fun _ _ => rfl⟩

/-- A sum on the right of a sum is read as if it were on the left. -/
theorem Written.add_assoc {a b c : Expr} (hexact : ¬ exact) (hb : b.isNegation = false)
    (h : Written exact (.binary .add (.binary .add a b) c) n) :
    Written exact (.binary .add a (.binary .add b c)) n := by
  obtain ⟨e', hreads, -, hvalue⟩ := h
  refine ⟨e', ?_, fun h => absurd h hexact, fun I hI => ?_⟩
  · have htext : (Expr.binary .add a (.binary .add b c)).render .bigQuery =
        (Expr.binary .add (.binary .add a b) c).render .bigQuery := by
      have hsum : (Expr.binary .add b c).isNegation = false := rfl
      simp only [Expr.render, hb, hsum, Expr.parenthesizedIf, Bool.false_eq_true, if_false,
        String.append_assoc]
    rwa [htext]
  · rw [hvalue I hI]
    exact hI _ _ _

/-! ## Calls -/

theorem isWord_functionName (f : Function) : IsWord (Dialect.functionName f) := by
  cases f <;> decide

theorem call?_functionName {f : Function} (hcast : f ≠ .castToString) (hdate : f ≠ .dateDiff)
    (es : List Expr) : Reader.call? (Dialect.functionName f) es = some (.call f es) := by
  cases f <;> first | exact absurd rfl hcast | exact absurd rfl hdate | rfl

theorem call_eq {f : Function} (hcast : f ≠ .castToString) (hdate : f ≠ .dateDiff)
    {texts : List String} (hcan : Dialect.canCall f texts.length = true) :
    Dialect.call .bigQuery f texts =
      Dialect.functionName f ++ "(" ++ ", ".intercalate texts ++ ")" := by
  rw [Dialect.call, if_neg (by simp [hcan])]
  · rfl
  · exact fun _ h _ => hcast h
  · exact fun _ _ _ h _ => hdate h
  · rintro _ _ ⟨⟩
  · rintro _ _ ⟨⟩

/-- The texts of arguments are read as expressions one for one. -/
theorem exists_reads_arguments {es : List Expr} (h : ∀ e ∈ es, ∃ n, Written exact e n) :
    ∃ es', List.Forall₂ (fun s e' => ∃ n, Reads s e' n) (es.map (Expr.render .bigQuery)) es' ∧
      (exact → es' = es.map Expr.bare) ∧
      ∀ {α : Type} (I : Interpretation α), I.AddAssoc →
        es'.map (Expr.value I) = es.map (Expr.value I) := by
  induction es with
  | nil => exact ⟨[], .nil, fun _ => rfl, fun _ _ => rfl⟩
  | cons e es ih =>
    rw [List.forall_mem_cons] at h
    obtain ⟨n, e', hreads, hbare, hvalue⟩ := h.1
    obtain ⟨es', hall, hbares, hvalues⟩ := ih h.2
    refine ⟨e' :: es', .cons ⟨n, hreads⟩ hall, fun h => ?_, fun I hI => ?_⟩
    · rw [hbare h, hbares h, List.map_cons]
    · rw [List.map_cons, List.map_cons, hvalue I hI, hvalues I hI]

/-- A call of what its arguments are read as. -/
theorem reads_of_arguments {f : Function} {es es' : List Expr} (hcast : f ≠ .castToString)
    (hdate : f ≠ .dateDiff) (hcan : Dialect.canCall f es.length = true) (hne : es ≠ [])
    (h : List.Forall₂ (fun s e' => ∃ n, Reads s e' n) (es.map (Expr.render .bigQuery)) es') :
    Reads ((Expr.call f es).render .bigQuery) (.call f es') 4 := by
  have hlength := h.length_eq
  rw [List.length_map] at hlength
  rw [Expr.render, Expr.renderList_eq_map, call_eq hcast hdate (by rwa [List.length_map])]
  refine reads_call _ (isWord_functionName f) ?_ ?_ h ?_ (call?_functionName hcast hdate es')
  · cases f <;> decide
  · cases f <;> first | exact absurd rfl hcast | rfl
  · rintro rfl
    exact hne (List.eq_nil_of_length_eq_zero hlength)

theorem Written.call {f : Function} {es : List Expr} (hcast : f ≠ .castToString)
    (hdate : f ≠ .dateDiff) (hcan : Dialect.canCall f es.length = true) (hne : es ≠ [])
    (h : ∀ e ∈ es, ∃ n, Written exact e n) : Written exact (.call f es) 4 := by
  obtain ⟨es', hall, hbare, hvalue⟩ := exists_reads_arguments h
  refine ⟨.call f es', reads_of_arguments hcast hdate hcan hne hall, fun h => ?_, fun I hI => ?_⟩
  · rw [hbare h, Expr.bare, Expr.bareAll_eq_map]
  · rw [Expr.value, Expr.value, Expr.values_eq_map, Expr.values_eq_map, hvalue I hI]

theorem written_cast {name : String} (h : '\\' ∉ name.toList) :
    Written exact (.call .castToString [.ofColumn name]) 4 :=
  written_of_reads (reads_cast (reads_name h)) rfl

/-! ## Aggregates -/

theorem aggregate_eq {a : Aggregation} (ha : a ≠ .countDistinct) (s : String) :
    Dialect.aggregate a s = a.name ++ "(" ++ s ++ ")" := by
  cases a with
  | countDistinct => exact absurd rfl ha
  | sum | count | avg | min | max | approxCountDistinct =>
    exact congrArg (fun start => start ++ s ++ ")") (by decide)

theorem reads_aggregate (a : Aggregation) {s : String} (h : Reads s e n) :
    Reads (Dialect.aggregate a s) (.aggregate a e) 4 := by
  by_cases ha : a = .countDistinct
  · subst ha
    have hcall : Reader.call? ("COUNT" ++ " DISTINCT") [e] =
        some (.aggregate .countDistinct e) := by
      rw [show "COUNT" ++ " DISTINCT" = "COUNT DISTINCT" by decide]
      rfl
    exact reads_distinct (by decide) (by decide) (by decide) h hcall
  · have hcall : Reader.call? a.name [e] = some (.aggregate a e) := by
      cases a <;> first | exact absurd rfl ha | rfl
    have hreads := reads_call a.name (by cases a <;> decide) (by cases a <;> decide)
      (by cases a <;> rfl) (.cons ⟨n, h⟩ .nil) (List.cons_ne_nil _ _) hcall
    rwa [String.intercalate_singleton, ← aggregate_eq ha] at hreads

/-- An aggregate is read as it is, and so must its input be. -/
theorem Written.aggregate (a : Aggregation) (h : Written True e n) (hbare : e.bare = e) :
    Written exact (.aggregate a e) 4 :=
  written_of_reads (reads_aggregate a (h.reads hbare)) (by rw [Expr.bare, hbare])

/-! ## Composite keys -/

theorem mem_intersperse_of_mem {α : Type} {x sep : α} {xs : List α} (h : x ∈ xs) :
    x ∈ xs.intersperse sep := by
  fun_induction List.intersperse sep xs with
  | case1 => exact h
  | case2 => exact h
  | case3 y z zs ih =>
    rcases List.mem_cons.1 h with rfl | h
    · exact List.mem_cons_self
    · exact List.mem_cons_of_mem _ (List.mem_cons_of_mem _ (ih h))

theorem eq_or_mem_of_mem_intersperse {α : Type} {x sep : α} {xs : List α}
    (h : x ∈ xs.intersperse sep) : x = sep ∨ x ∈ xs := by
  fun_induction List.intersperse sep xs with
  | case1 => exact .inr h
  | case2 => exact .inr h
  | case3 y z zs ih =>
    simp only [List.mem_cons] at h ih ⊢
    rcases h with rfl | rfl | h
    · exact .inr (.inl rfl)
    · exact .inl rfl
    · exact (ih h).imp_right .inr

/-- A key is made of its columns. -/
theorem ofColumn_mem_nodes_compositeKey {column : String} {columns : List String}
    (h : column ∈ columns) : Expr.ofColumn column ∈ (Expr.compositeKey columns).nodes := by
  refine List.mem_cons_of_mem _ (Expr.mem_nodesOf.2
    ⟨.keyPart column, mem_intersperse_of_mem (List.mem_map_of_mem h), ?_⟩)
  simp [Expr.keyPart, Expr.replaceAll, Expr.ofColumn, Expr.nodesOf]

/-- What holds of a key, of the bars in it and inside its parts. -/
theorem forall_nodes_compositeKey {P : Expr → Prop} {columns : List String}
    (hkey : P (.compositeKey columns)) (hbar : P (.ofText "|"))
    (hpart : ∀ column, ∀ node ∈ (Expr.keyPart column).nodes, P node) :
    ∀ node ∈ (Expr.compositeKey columns).nodes, P node := by
  rw [Expr.compositeKey, Expr.nodes, List.forall_mem_cons]
  refine ⟨hkey, fun node hnode => ?_⟩
  obtain ⟨part, hmem, hnode⟩ := Expr.mem_nodesOf.1 hnode
  rcases eq_or_mem_of_mem_intersperse hmem with rfl | hmem
  · obtain rfl := List.mem_singleton.1 hnode
    exact hbar
  · obtain ⟨column, -, rfl⟩ := List.mem_map.1 hmem
    exact hpart column node hnode

theorem written_keyPart {column : String} (h : '\\' ∉ column.toList) :
    Written exact (Expr.keyPart column) 4 := by
  have hreplace {e : Expr} (he : Written exact e 4) (part replacement : String) :
      Written exact (e.replaceAll part replacement) 4 :=
    .call (by decide) (by decide) rfl (List.cons_ne_nil _ _)
      (by simpa using ⟨⟨4, he⟩, ⟨4, written_text part⟩, ⟨4, written_text replacement⟩⟩)
  exact .call (by decide) (by decide) rfl (List.cons_ne_nil _ _)
    (by simpa using ⟨⟨4, hreplace (hreplace (written_cast h) "~" "~~") "|" "~p"⟩,
      ⟨4, written_text "~n"⟩⟩)

theorem bare_compositeKey (columns : List String) :
    (Expr.compositeKey columns).bare = .compositeKey columns := by
  rw [Expr.compositeKey, Expr.bare, Expr.bareAll_eq_map]
  refine congrArg _ ((List.map_congr_left fun e he => ?_).trans (List.map_id _))
  rcases eq_or_mem_of_mem_intersperse he with rfl | he
  · rfl
  · obtain ⟨column, -, rfl⟩ := List.mem_map.1 he
    rfl

/-- The key that several columns make up. -/
theorem written_compositeKey {columns : List String} (hne : columns ≠ [])
    (h : ∀ node ∈ (Expr.compositeKey columns).nodes, node.Plain) :
    Written exact (.compositeKey columns) 4 := by
  have hplain (column : String) (hcolumn : column ∈ columns) : '\\' ∉ column.toList :=
    h (.ofColumn column) (ofColumn_mem_nodes_compositeKey hcolumn)
  refine .call (by decide) (by decide) rfl ?_ fun e he => ⟨4, ?_⟩
  · obtain ⟨column, hcolumn⟩ := List.exists_mem_of_ne_nil _ hne
    exact List.ne_nil_of_mem (mem_intersperse_of_mem (List.mem_map_of_mem hcolumn))
  · rcases eq_or_mem_of_mem_intersperse he with rfl | he
    · exact written_text "|"
    · obtain ⟨column, hcolumn, rfl⟩ := List.mem_map.1 he
      exact written_keyPart (hplain column hcolumn)

end MetricLayer.Sql
