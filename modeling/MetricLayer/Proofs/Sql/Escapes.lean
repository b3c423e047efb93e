import MetricLayer.Proofs.Sql.Written

/-!
# Backslashes

Between quotes a backslash and a quote stand only after a backslash, so an
expression takes a number of them to be read that its names and texts fix
(`Expr.escapes`). No reading gives more than the text has (`escapes_of_read`): a
step of the reader only moves what tokens and frames hold. Writing puts in as many
as a text takes, but leaves those out that the name of a column takes for its own
(`Expr.Escaped`), so such a name cannot come back.
-/

namespace MetricLayer.Sql

/-- The backslashes in a text. -/
def slashesIn (s : String) : Nat := s.toList.count '\\'

/-- The backslashes between quotes that a name or a text takes to be read. -/
def escapesIn (quote : Char) (s : List Char) : Nat := 2 * s.count '\\' + s.count quote

/-! ## Tokens -/

def Token.escapes : Token → Nat
  | .name s => escapesIn '\x60' s.toList
  | .text s => escapesIn '\'' s.toList
  | _ => 0

def escapesOf : List Token → Nat
  | [] => 0
  | t :: ts => t.escapes + escapesOf ts

theorem escapesIn_of_quoted? {quote : Char} {cs inner : List Char} {length : Nat}
    (h : quoted? quote cs = some (inner, length)) (hquote : quote ≠ '\\') :
    escapesIn quote inner ≤ (cs.take length).count '\\' := by
  fun_induction quoted? quote cs generalizing inner length with
  | case1 => cases h
  | case2 c cs ih =>
    obtain ⟨⟨inner, length⟩, hinner, heq⟩ := Option.map_eq_some_iff.1 h
    obtain ⟨rfl, rfl⟩ := Prod.mk.inj heq
    have ih := ih hinner
    simp only [escapesIn, List.take_succ_cons, List.count_cons, beq_iff_eq] at ih ⊢
    by_cases hc : c = '\\'
    · subst hc
      simp only [if_true, if_neg (Ne.symm hquote)]
      omega
    · rw [if_neg hc]
      split <;> simp <;> omega
  | case3 =>
    obtain ⟨rfl, rfl⟩ := Prod.mk.inj (Option.some.inj h)
    exact Nat.zero_le _
  | case4 c cs hslash hne ih =>
    obtain ⟨⟨inner, length⟩, hinner, heq⟩ := Option.map_eq_some_iff.1 h
    obtain ⟨rfl, rfl⟩ := Prod.mk.inj heq
    have ih := ih hinner
    -- a backslash that nothing comes after would be the last character
    have hc : c ≠ '\\' := by
      rintro rfl
      cases cs with
      | nil => cases hinner
      | cons d cs => exact hslash d cs rfl rfl
    simp only [escapesIn, List.take_succ_cons, List.count_cons, beq_iff_eq] at ih ⊢
    rw [if_neg hc, if_neg (by simpa using hne)]
    omega

theorem escapes_of_tokenAt? {c : Char} {cs : List Char} {token : Token} {length : Nat}
    (h : tokenAt? c cs = some (token, length)) :
    token.escapes ≤ (cs.take length).count '\\' := by
  have hquoted {quote : Char} {kind : String → Token}
      (h : (quoted? quote cs).map (fun found => (kind (String.ofList found.1), found.2)) =
        some (token, length)) (hquote : quote ≠ '\\')
      (hkind : ∀ s, (kind s).escapes = escapesIn quote s.toList) :
      token.escapes ≤ (cs.take length).count '\\' := by
    obtain ⟨⟨inner, length⟩, hinner, heq⟩ := Option.map_eq_some_iff.1 h
    obtain ⟨rfl, rfl⟩ := Prod.mk.inj heq
    rw [hkind, String.toList_ofList]
    exact escapesIn_of_quoted? hinner hquote
  have hother {t : Token} {n : Nat} (h : some (t, n) = some (token, length))
      (ht : t.escapes = 0) : token.escapes ≤ (cs.take length).count '\\' := by
    obtain ⟨rfl, -⟩ := Prod.mk.inj (Option.some.inj h)
    exact ht ▸ Nat.zero_le _
  unfold tokenAt? at h
  split at h
  · rename_i hc
    obtain rfl := beq_iff_eq.1 hc
    exact hquoted h (by decide) fun _ => rfl
  split at h
  · rename_i hc
    obtain rfl := beq_iff_eq.1 hc
    exact hquoted h (by decide) fun _ => rfl
  split at h
  · dsimp only at h
    split at h
    · cases h
    · exact hother h rfl
  split at h
  · exact hother h rfl
  split at h
  · exact hother h rfl
  split at h
  · exact hother h rfl
  split at h
  · exact hother h rfl
  split at h
  · cases h
  · obtain ⟨op, -, hop⟩ := Option.map_eq_some_iff.1 h
    exact hother (congrArg some hop) rfl

theorem escapes_of_lexAfter {skip : Nat} {cs : List Char} {ts : List Token}
    (h : lexAfter skip cs = some ts) : escapesOf ts ≤ (cs.drop skip).count '\\' := by
  fun_induction lexAfter skip cs generalizing ts with
  | case1 =>
    obtain rfl := Option.some.inj h
    exact Nat.zero_le _
  | case2 skip c cs ih => exact ih h
  | case3 c cs hblank ih => exact (ih h).trans (List.count_le_count_cons)
  | case4 c cs hblank ih =>
    obtain ⟨⟨token, length⟩, htoken, h⟩ := Option.bind_eq_some_iff.1 h
    obtain ⟨ts, hrest, rfl⟩ := Option.map_eq_some_iff.1 h
    have htoken := escapes_of_tokenAt? htoken
    have hrest := ih length hrest
    calc escapesOf (token :: ts)
      _ ≤ (cs.take length).count '\\' + (cs.drop length).count '\\' := Nat.add_le_add htoken hrest
      _ = cs.count '\\' := by rw [← List.count_append, List.take_append_drop]
      _ ≤ (c :: cs).count '\\' := List.count_le_count_cons

/-! ## Expressions -/

namespace Expr

/-- What a column or a text costs, by its characters. -/
def costAt (name text : List Char → Nat) : Expr → Nat
  | .column _ s => name s.toList
  | .literal (.text s) => text s.toList
  | _ => 0

def costAtAll (name text : List Char → Nat) : List Expr → Nat
  | [] => 0
  | e :: es => e.costAt name text + costAtAll name text es

/-- What the columns and texts in an expression cost. -/
def cost (name text : List Char → Nat) (e : Expr) : Nat := costAtAll name text e.nodes

def costAll (name text : List Char → Nat) (es : List Expr) : Nat := costAtAll name text (nodesOf es)

section Cost

variable (name text : List Char → Nat)

theorem costAtAll_append (es es' : List Expr) :
    costAtAll name text (es ++ es') = costAtAll name text es + costAtAll name text es' := by
  induction es with
  | nil => exact (Nat.zero_add _).symm
  | cons e es ih => rw [List.cons_append, costAtAll, costAtAll, ih, Nat.add_assoc]

@[simp] theorem cost_ofText (s : String) : (ofText s).cost name text = text s.toList := rfl

@[simp] theorem cost_raw (sql : String) : (raw sql).cost name text = 0 := rfl

@[simp] theorem cost_negate (e : Expr) : (negate e).cost name text = e.cost name text :=
  Nat.zero_add _

@[simp] theorem cost_nested (e : Expr) : (nested e).cost name text = e.cost name text :=
  Nat.zero_add _

@[simp] theorem cost_countIf (e : Expr) : (countIf e).cost name text = e.cost name text :=
  Nat.zero_add _

@[simp] theorem cost_aggregate (a : Aggregation) (e : Expr) :
    (aggregate a e).cost name text = e.cost name text := Nat.zero_add _

@[simp] theorem cost_call (f : Function) (es : List Expr) :
    (call f es).cost name text = costAll name text es := Nat.zero_add _

@[simp] theorem cost_binary (op : BinaryOp) (l r : Expr) :
    (binary op l r).cost name text = l.cost name text + r.cost name text :=
  (Nat.zero_add _).trans (costAtAll_append _ _ _ _)

@[simp] theorem cost_inList (e : Expr) (list : List Expr) (negated : Bool) :
    (inList e list negated).cost name text = e.cost name text + costAll name text list :=
  (Nat.zero_add _).trans (costAtAll_append _ _ _ _)

@[simp] theorem cost_cases (branches : List (Expr × Expr)) (otherwise : Expr) :
    (cases branches otherwise).cost name text =
      costAtAll name text (branchNodes branches) + otherwise.cost name text :=
  (Nat.zero_add _).trans (costAtAll_append _ _ _ _)

@[simp] theorem costAll_nil : costAll name text [] = 0 := rfl

@[simp] theorem costAll_cons (e : Expr) (es : List Expr) :
    costAll name text (e :: es) = e.cost name text + costAll name text es :=
  costAtAll_append _ _ _ _

theorem costAll_append (es es' : List Expr) :
    costAll name text (es ++ es') = costAll name text es + costAll name text es' := by
  induction es with
  | nil => simp
  | cons e es ih => simp [ih, Nat.add_assoc]

theorem costAll_reverse (es : List Expr) : costAll name text es.reverse = costAll name text es := by
  induction es with
  | nil => rfl
  | cons e es ih => simp [costAll_append, ih, Nat.add_comm]

mutual

/-- Parentheses cost nothing. -/
theorem cost_bare : (e : Expr) → e.bare.cost name text = e.cost name text
  | .nested e => by rw [bare, cost_nested, cost_bare e]
  | .call f es => by rw [bare, cost_call, cost_call, costAll_bare es]
  | .binary op l r => by rw [bare, cost_binary, cost_binary, cost_bare l, cost_bare r]
  | .negate e => by rw [bare, cost_negate, cost_negate, cost_bare e]
  | .aggregate a e => by rw [bare, cost_aggregate, cost_aggregate, cost_bare e]
  | .cases branches otherwise => by
    rw [bare, cost_cases, cost_cases, costBranches_bare branches, cost_bare otherwise]
  | .countIf e => by rw [bare, cost_countIf, cost_countIf, cost_bare e]
  | .inList e list _ => by
    rw [bare, cost_inList, cost_inList, cost_bare e, costAll_bare list]
  | .column _ _ | .literal _ | .date _ | .wildcard | .raw _ => rfl

theorem costAll_bare : (es : List Expr) → costAll name text (bareAll es) = costAll name text es
  | [] => rfl
  | e :: es => by rw [bareAll, costAll_cons, costAll_cons, cost_bare e, costAll_bare es]

theorem costBranches_bare : (branches : List (Expr × Expr)) →
    costAtAll name text (branchNodes (bareBranches branches)) =
      costAtAll name text (branchNodes branches)
  | [] => rfl
  | (w, t) :: rest => by
    simp only [bareBranches, branchNodes, costAtAll_append, costBranches_bare rest]
    exact congrArg (· + _) (congrArg₂ (· + ·) (cost_bare w) (cost_bare t))

end

end Cost

/-- The backslashes that a text takes to be read as the expression. -/
abbrev escapes (e : Expr) : Nat := e.cost (escapesIn '\x60') (escapesIn '\'')

abbrev escapesAll (es : List Expr) : Nat := costAll (escapesIn '\x60') (escapesIn '\'') es

/-- The backslashes in the names of its columns. -/
abbrev slashes (e : Expr) : Nat := e.cost (List.count '\\') fun _ => 0

theorem plain_of_slashes_eq_zero {e : Expr} (h : e.slashes = 0) : ∀ node ∈ e.nodes, node.Plain := by
  have hall {es : List Expr} (h : costAtAll (List.count '\\') (fun _ => 0) es = 0) :
      ∀ node ∈ es, node.Plain := by
    induction es with
    | nil => simp
    | cons e es ih =>
      obtain ⟨he, hes⟩ := Nat.add_eq_zero_iff.1 h
      refine List.forall_mem_cons.2 ⟨?_, ih hes⟩
      cases e with
      | column table name => exact List.count_eq_zero.1 he
      | _ => trivial
  exact hall h

end Expr

/-! ## Reading -/

namespace Reader

open MetricLayer.Sql.Expr (escapesAll)

def Frame.escapes : Frame → Nat
  | .negate | .group => 0
  | .binary _ left => left.escapes
  | .call _ done => escapesAll done

def escapesOfStack : List Frame → Nat
  | [] => 0
  | f :: stack => f.escapes + escapesOfStack stack

def Reading.escapes : Reading → Nat
  | .operand stack | .word _ stack => escapesOfStack stack
  | .operator read stack => read.escapes + escapesOfStack stack

theorem escapes_complete (operand : Expr) (stack : List Frame) :
    (Reading.after (complete operand stack)).escapes = operand.escapes + escapesOfStack stack := by
  fun_induction complete operand stack with
  | case1 operand below ih => simpa [escapesOfStack, Frame.escapes] using ih
  | case2 => rfl

theorem escapes_reduce (p : Nat) (operand : Expr) (stack : List Frame) :
    (Reading.after (reduce p operand stack)).escapes = operand.escapes + escapesOfStack stack := by
  fun_induction reduce p operand stack with
  | case1 operand op left below _ ih =>
    simp only [ih, Expr.escapes, Expr.cost_binary, escapesOfStack, Frame.escapes]
    omega
  | case2 => rfl
  | case3 => rfl

theorem escapes_of_call? {word : String} {es : List Expr} {e : Expr} (h : call? word es = some e) :
    e.escapes = escapesAll es := by
  unfold call? at h
  split at h
  · obtain rfl := Option.some.inj h
    simp
  · obtain rfl := Option.some.inj h
    simp [Nat.add_comm]
  · split at h
    · obtain rfl := Option.some.inj h
      simp
    · obtain ⟨f, -, rfl⟩ := Option.map_eq_some_iff.1 h
      simp

theorem escapes_ofWord (word : String) : (ofWord word).escapes = 0 := by
  unfold ofWord
  split <;> rfl

theorem escapes_operandAt {stack : List Frame} {token : Token} {r : Reading}
    (h : operandAt stack token = some r) : r.escapes = escapesOfStack stack + token.escapes := by
  have hoperand {e : Expr} (h : some (Reading.after (complete e stack)) = some r)
      (he : e.escapes = token.escapes) : r.escapes = escapesOfStack stack + token.escapes := by
    obtain rfl := Option.some.inj h
    rw [escapes_complete, he, Nat.add_comm]
  unfold operandAt at h
  split at h
  · exact hoperand h rfl
  · exact hoperand h rfl
  · exact hoperand h rfl
  · split at h
    · obtain rfl := Option.some.inj h
      rfl
    · obtain rfl := Option.some.inj h
      rfl
  · obtain rfl := Option.some.inj h
    exact Nat.zero_add _
  · obtain rfl := Option.some.inj h
    exact Nat.zero_add _
  · obtain rfl := Option.some.inj h
    rfl
  · cases h

theorem escapes_endAt {operand : Expr} {stack : List Frame} {token : Token} {r : Reading}
    (h : endAt operand stack token = some r) :
    r.escapes = operand.escapes + escapesOfStack stack := by
  unfold endAt at h
  split at h
  · obtain rfl := Option.some.inj h
    rw [escapes_complete, escapesOfStack, Frame.escapes, Nat.zero_add]
  · obtain ⟨e, he, rfl⟩ := Option.map_eq_some_iff.1 h
    rw [escapes_complete, escapes_of_call? he, escapesAll, Expr.costAll_reverse, Expr.costAll_cons,
      escapesOfStack, Frame.escapes, Nat.add_assoc]
  · split at h
    · obtain rfl := Option.some.inj h
      simp [Reading.escapes, escapesOfStack, Frame.escapes, Nat.add_assoc]
    · cases h
  · cases h

theorem escapes_operatorAt {operand : Expr} {stack : List Frame} {token : Token} {r : Reading}
    (h : operatorAt operand stack token = some r) :
    r.escapes = operand.escapes + escapesOfStack stack := by
  unfold operatorAt at h
  split at h
  · rename_i op
    obtain rfl := Option.some.inj h
    exact escapes_reduce op.precedence operand stack
  · exact (escapes_endAt h).trans (escapes_reduce 0 operand stack)

/-- Nothing is read that was not in the token. -/
theorem escapes_next {r r' : Reading} {token : Token} (h : next r token = some r') :
    r'.escapes ≤ r.escapes + token.escapes := by
  unfold next at h
  split at h
  · exact Nat.le_of_eq (escapes_operandAt h)
  · rename_i word stack
    split at h
    · obtain rfl := Option.some.inj h
      simp [Reading.escapes, escapesOfStack, Frame.escapes]
    · have hcomplete := escapes_complete (ofWord word) stack
      rw [escapes_ofWord, Nat.zero_add] at hcomplete
      exact Nat.le_add_right_of_le (Nat.le_of_eq ((escapes_operatorAt h).trans hcomplete))
  · exact Nat.le_add_right_of_le (Nat.le_of_eq (escapes_operatorAt h))

theorem escapes_foldlM {r r' : Reading} {tokens : List Token} (h : tokens.foldlM next r = some r') :
    r'.escapes ≤ r.escapes + escapesOf tokens := by
  induction tokens generalizing r with
  | nil =>
    obtain rfl := Option.some.inj h
    exact Nat.le_refl _
  | cons token tokens ih =>
    rw [List.foldlM_cons] at h
    obtain ⟨r₁, hnext, hrest⟩ := Option.bind_eq_some_iff.1 h
    have hnext := escapes_next hnext
    have hrest := ih hrest
    rw [escapesOf]
    omega

theorem escapes_whole? {operand e : Expr} {stack : List Frame} (h : whole? operand stack = some e) :
    e.escapes = operand.escapes + escapesOfStack stack := by
  unfold whole? at h
  split at h
  · rename_i e' hreduce
    obtain rfl := Option.some.inj h
    have hsame := escapes_reduce 0 operand stack
    rwa [hreduce] at hsame
  · cases h

theorem escapes_finish {r : Reading} {e : Expr} (h : finish r = some e) :
    e.escapes = r.escapes := by
  unfold finish at h
  split at h
  · cases h
  · rename_i word stack
    have hcomplete := escapes_complete (ofWord word) stack
    rw [escapes_ofWord, Nat.zero_add] at hcomplete
    exact (escapes_whole? h).trans hcomplete
  · exact escapes_whole? h

end Reader

/-- An expression takes no more backslashes than the text that is read so. -/
theorem escapes_of_read {s : String} {e : Expr} (h : read s = some e) :
    e.escapes ≤ slashesIn s := by
  rw [read] at h
  obtain ⟨tokens, hlex, h⟩ := Option.bind_eq_some_iff.1 h
  obtain ⟨reading, hfold, hfinish⟩ := Option.bind_eq_some_iff.1 h
  have hlex := escapes_of_lexAfter hlex
  have hfold := Reader.escapes_foldlM hfold
  rw [← Reader.escapes_finish hfinish] at hfold
  simp only [Reader.Reading.escapes, Reader.escapesOfStack, Nat.zero_add] at hfold
  exact hfold.trans hlex

/-! ## Writing -/

@[simp] theorem slashesIn_append (s s' : String) :
    slashesIn (s ++ s') = slashesIn s + slashesIn s' := by simp [slashesIn]

/-- Quotes around characters whose backslashes are `n` too few. -/
theorem slashesIn_of_quoted (quote : Char) (escape : Char → List Char) (n : Nat)
    (hquote : quote ≠ '\\')
    (h : ∀ c, (escape c).count '\\' + n * [c].count '\\' = escapesIn quote [c]) (s : List Char) :
    slashesIn (String.ofList (quote :: s.flatMap escape ++ [quote])) + n * s.count '\\' =
      escapesIn quote s := by
  have hinner : (s.flatMap escape).count '\\' + n * s.count '\\' = escapesIn quote s := by
    induction s with
    | nil => rfl
    | cons c s ih =>
      have hc := h c
      simp only [escapesIn, List.flatMap_cons, List.count_append, List.count_cons, List.count_nil,
        Nat.zero_add, Nat.mul_add] at hc ih ⊢
      omega
  simpa [slashesIn, hquote] using hinner

/-- A name is written with one backslash too few for each that it has. -/
theorem slashesIn_quoteName (name : String) :
    slashesIn (Dialect.quoteName .bigQuery name) + name.toList.count '\\' =
      escapesIn '\x60' name.toList := by
  have hname := slashesIn_of_quoted '\x60' (Dialect.escapeInName .bigQuery) 1 (by decide)
    (fun c => ?_) name.toList
  · rwa [Nat.one_mul] at hname
  · by_cases hslash : c = '\\' <;> by_cases hc : c = '\x60' <;>
      simp_all [Dialect.escapeInName, Dialect.nameQuote, escapesIn]

/-- A text is written with the backslashes that it takes. -/
theorem slashesIn_quoteText (s : String) :
    slashesIn (Dialect.quoteText .bigQuery s) = escapesIn '\'' s.toList := by
  have htext := slashesIn_of_quoted '\'' (Dialect.escapeInText .bigQuery) 0 (by decide)
    (fun c => ?_) s.toList
  · rwa [Nat.zero_mul, Nat.add_zero] at htext
  · by_cases hslash : c = '\\' <;> by_cases hc : c = '\'' <;>
      simp_all [Dialect.escapeInText, escapesIn]

theorem slashesIn_enclosed {start : String} (h : slashesIn start = 0) (s : String) :
    slashesIn (start ++ s ++ ")") = slashesIn s := by
  have hclosing : slashesIn ")" = 0 := rfl
  simp [h, hclosing]

theorem slashesIn_parenthesizedIf (needed : Bool) (s : String) :
    slashesIn (Expr.parenthesizedIf needed s) = slashesIn s := by
  cases needed with
  | false => rfl
  | true => exact slashesIn_enclosed rfl s

theorem slashesIn_symbol (op : BinaryOp) : slashesIn op.symbol = 0 := by cases op <;> rfl

theorem slashesIn_functionName (f : Function) : slashesIn (Dialect.functionName f) = 0 := by
  cases f <;> rfl

theorem slashesIn_aggregate (a : Aggregation) (s : String) :
    slashesIn (Dialect.aggregate a s) = slashesIn s := by
  cases a <;> exact slashesIn_enclosed rfl s

namespace Expr

/-- The text of the expression has the backslashes that it takes, but for those in
the names of columns. -/
def Escaped (e : Expr) : Prop := slashesIn (e.render .bigQuery) + e.slashes = e.escapes

theorem escaped_ofColumn (name : String) : (ofColumn name).Escaped := slashesIn_quoteName name

theorem escaped_ofText (s : String) : (ofText s).Escaped := by
  have htext : (ofText s).render .bigQuery = Dialect.quoteText .bigQuery s := rfl
  simp [Escaped, htext, slashesIn_quoteText]

theorem escaped_raw {sql : String} (h : '\\' ∉ sql.toList) : (raw sql).Escaped :=
  List.count_eq_zero.2 h

theorem Escaped.nested {e : Expr} (h : e.Escaped) : (nested e).Escaped := by
  have htext : slashesIn ((Expr.nested e).render .bigQuery) = slashesIn (e.render .bigQuery) :=
    slashesIn_enclosed rfl _
  simpa [Escaped, htext] using h

theorem Escaped.aggregate {e : Expr} (h : e.Escaped) (a : Aggregation) :
    (aggregate a e).Escaped := by
  simpa [Escaped, render, slashesIn_aggregate] using h

theorem Escaped.negate {e : Expr} (h : e.Escaped) : (negate e).Escaped := by
  have hminus : slashesIn "-" = 0 := rfl
  simpa [Escaped, render, slashesIn_parenthesizedIf, hminus] using h

theorem Escaped.binary {l r : Expr} (hl : l.Escaped) (hr : r.Escaped) (op : BinaryOp) :
    (binary op l r).Escaped := by
  have hblank : slashesIn " " = 0 := rfl
  simp only [Escaped, render, slashesIn_append, slashesIn_parenthesizedIf, slashesIn_symbol,
    hblank, slashes, escapes, cost_binary] at hl hr ⊢
  omega

/-- Commas between arguments are no backslashes. -/
theorem slashesIn_intercalate : (es : List Expr) → (∀ e ∈ es, e.Escaped) →
    slashesIn (", ".intercalate (es.map (render .bigQuery))) +
      costAll (List.count '\\') (fun _ => 0) es = escapesAll es
  | [], _ => rfl
  | [e], h => by simpa [Escaped] using h e List.mem_cons_self
  | e :: e' :: es, h => by
    obtain ⟨he, hes⟩ := List.forall_mem_cons.1 h
    have ih := slashesIn_intercalate (e' :: es) hes
    have hcomma : slashesIn ", " = 0 := rfl
    simp only [List.map_cons, String.intercalate_cons_cons, slashesIn_append, hcomma, escapesAll,
      costAll_cons, Escaped, slashes, escapes] at he ih ⊢
    omega

theorem Escaped.call {f : Function} {es : List Expr} (hcast : f ≠ .castToString)
    (hdate : f ≠ .dateDiff) (hcan : Dialect.canCall f es.length = true)
    (h : ∀ e ∈ es, e.Escaped) : (call f es).Escaped := by
  have hstart : slashesIn (Dialect.functionName f ++ "(") = 0 := by
    rw [slashesIn_append, slashesIn_functionName]
    rfl
  rw [Escaped, render, renderList_eq_map, call_eq hcast hdate (by rwa [List.length_map]),
    slashesIn_enclosed hstart]
  simpa using slashesIn_intercalate es h

theorem Escaped.cast {e : Expr} (h : e.Escaped) : (Expr.call .castToString [e]).Escaped := by
  have htext : (Expr.call .castToString [e]).render .bigQuery =
      "CAST(" ++ e.render .bigQuery ++ " AS " ++ "STRING" ++ ")" := rfl
  simpa [Escaped, htext, slashesIn] using h

theorem escaped_keyPart (column : String) : (keyPart column).Escaped := by
  have hreplace {e : Expr} (he : e.Escaped) (part replacement : String) :
      (e.replaceAll part replacement).Escaped :=
    .call (by decide) (by decide) rfl
      (by simpa using ⟨he, escaped_ofText part, escaped_ofText replacement⟩)
  have hreplaced := hreplace (hreplace (escaped_ofColumn column).cast "~" "~~") "|" "~p"
  exact .call (by decide) (by decide) rfl (by simpa using ⟨hreplaced, escaped_ofText "~n"⟩)

theorem Escaped.dateDiff {start stop : Expr} (hstart : start.Escaped) (hstop : stop.Escaped) :
    (Expr.call .dateDiff [start, stop]).Escaped := by
  have htext : (Expr.call .dateDiff [start, stop]).render .bigQuery =
      "DATE_DIFF(" ++ stop.render .bigQuery ++ ", " ++ start.render .bigQuery ++ ", DAY)" := rfl
  have hcomma : slashesIn ", " = 0 := rfl
  have hopening : slashesIn "DATE_DIFF(" = 0 := rfl
  have hday : slashesIn ", DAY)" = 0 := rfl
  simp only [Escaped, htext, slashesIn_append, hopening, hcomma, hday, slashes, escapes, cost_call,
    costAll_cons, costAll_nil] at hstart hstop ⊢
  omega

end Expr

end MetricLayer.Sql
