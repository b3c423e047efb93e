import MetricLayer.Proofs.Sql.Written

/-!
# Texts that are read as sums

A sum without parentheses is taken apart by an operator that binds tighter: only
the term next to the operator is its operand. `ReadsSum n s es` says that the
text `s` is the terms `es` with a `+` between them, each of which may stand where
an operand of the level `n` may.

What is lost that way is weighed. Every operation but a sum weighs twice as much
as its operands (`Interpretation.weighing`), so that a term weighs less beside an
operation than in it. `WeighsAtMost` bounds the weight of what a text is read as,
and its lemmas say where the bound is strict.
-/

namespace MetricLayer.Sql

/-! ## Weights -/

/-- Everything has a value: the parts of a sum add up, and those of any other
operation count twice. -/
def Interpretation.weighing : Interpretation Nat where
  leaf _ := some 1
  number _ := some 1
  text _ := some 1
  negate a := some (2 * a.getD 0)
  binary
    | .add, a, b => some (a.getD 0 + b.getD 0)
    | _, a, b => some (2 * (a.getD 0 + b.getD 0))
  isZero _ := false
  divide a b := some (a + (b + 1))
  call _ values := some (values.foldr (fun v total => v.getD 0 + total) 1)

/-- A call weighs one more than its arguments. -/
theorem Interpretation.apply_weighing (f : Function) {values : List (Option Nat)}
    (h : ∀ v ∈ values, v.isSome = true) :
    weighing.apply f values = some (values.foldr (fun v total => v.getD 0 + total) 1) := by
  unfold apply
  split
  · rename_i a b
    obtain ⟨m, rfl⟩ := Option.isSome_iff_exists.1 (h a (by simp))
    obtain ⟨n, rfl⟩ := Option.isSome_iff_exists.1 (h b (by simp))
    simp [quotient, weighing]
  · rfl

namespace Expr

mutual

theorem isSome_value_weighing : (e : Expr) → (e.value .weighing).isSome = true
  | .call f es => by
    rw [value, Interpretation.apply_weighing f (isSome_values_weighing es)]
    rfl
  | .nested e => isSome_value_weighing e
  | .binary op _ _ => by cases op <;> rfl
  | .literal v => by cases v <;> rfl
  | .column _ _ | .date _ | .wildcard | .raw _ | .cases _ _ | .negate _ | .aggregate _ _
  | .countIf _ | .inList _ _ _ => rfl

theorem isSome_values_weighing :
    (es : List Expr) → ∀ v ∈ values .weighing es, v.isSome = true
  | [] => by simp [values]
  | e :: es => by
    rw [values, List.forall_mem_cons]
    exact ⟨isSome_value_weighing e, isSome_values_weighing es⟩

end

def weight (e : Expr) : Nat := (e.value .weighing).getD 0

def weightOf : List Expr → Nat
  | [] => 0
  | e :: es => e.weight + weightOf es

variable {l r : Expr} {op : BinaryOp}

@[simp] theorem weightOf_nil : weightOf [] = 0 := rfl

@[simp] theorem weightOf_cons (e : Expr) (es : List Expr) :
    weightOf (e :: es) = e.weight + weightOf es := rfl

@[simp] theorem weightOf_append (es es' : List Expr) :
    weightOf (es ++ es') = weightOf es + weightOf es' := by
  induction es with
  | nil => simp
  | cons e es ih => simp [ih, Nat.add_assoc]

theorem weight_call (f : Function) (es : List Expr) : (call f es).weight = weightOf es + 1 := by
  rw [weight, value, Interpretation.apply_weighing f (isSome_values_weighing es), Option.getD_some]
  induction es with
  | nil => rfl
  | cons e es ih =>
    rw [values, List.foldr_cons, ih, weightOf_cons, Nat.add_assoc]
    rfl

@[simp] theorem weight_negate (e : Expr) : (negate e).weight = 2 * e.weight := rfl

@[simp] theorem weight_add (l r : Expr) : (binary .add l r).weight = l.weight + r.weight := rfl

theorem weight_binary (hop : op ≠ .add) :
    (binary op l r).weight = 2 * (l.weight + r.weight) := by
  cases op <;> first | exact absurd rfl hop | rfl

theorem weight_pos : (e : Expr) → 0 < e.weight
  | .call f es => by
    rw [weight_call]
    omega
  | .nested e => weight_pos e
  | .negate e => Nat.mul_pos Nat.two_pos (weight_pos e)
  | .binary op l r => by
    have hl := weight_pos l
    by_cases hop : op = .add
    · rw [hop, weight_add]
      omega
    · rw [weight_binary hop]
      omega
  | .literal v => by cases v <;> exact Nat.one_pos
  | .column _ _ | .date _ | .wildcard | .raw _ | .cases _ _ | .aggregate _ _
  | .countIf _ | .inList _ _ _ => Nat.one_pos

theorem weightOf_pos_of_length {es : List Expr} (h : 0 < es.length) : 0 < weightOf es := by
  cases es with
  | nil => cases h
  | cons e es =>
    rw [weightOf_cons]
    exact Nat.add_pos_left (weight_pos e) _

end Expr

open MetricLayer.Sql.Expr (weightOf)

/-! ## Sums -/

/-- The text is read as the terms, with a `+` between them. The first may stand
where an operand of the level `n` may, and so may the others, which bind tighter
than a sum. -/
inductive ReadsSum (n : Nat) : String → List Expr → Prop where
  | one {s : String} {e : Expr} (first : Reads s e n) : ReadsSum n s [e]
  | add {s t : String} {es : List Expr} {e : Expr} {m : Nat} (terms : ReadsSum n s es)
      (last : Reads t e m) (level : n ≤ m) (tight : 1 < m) :
      ReadsSum n (s ++ " + " ++ t) (es ++ [e])

namespace ReadsSum

variable {n m : Nat} {s t : String} {es es' : List Expr} {e : Expr} {op : BinaryOp}

theorem mono (h : ReadsSum n s es) (hm : m ≤ n) : ReadsSum m s es := by
  induction h with
  | one first => exact .one (first.mono hm)
  | add _ last level tight ih => exact .add ih last (hm.trans level) tight

theorem append (h : ReadsSum n s es) (h' : ReadsSum m t es') (hm : n ≤ m) (htight : 1 < m) :
    ReadsSum n (s ++ " + " ++ t) (es ++ es') := by
  induction h' with
  | one first => exact .add h first hm htight
  | add _ last level tight ih =>
    have hsum := ReadsSum.add ih last (hm.trans level) tight
    simpa only [String.append_assoc, List.append_assoc] using hsum

theorem eq_add (s t : String) : s ++ " " ++ BinaryOp.add.symbol ++ " " ++ t = s ++ " + " ++ t := by
  have hplus : " " ++ BinaryOp.add.symbol ++ " " = " + " := by decide
  rw [← hplus]
  simp only [String.append_assoc]

/-- The terms make one expression. -/
theorem exists_reads (h : ReadsSum n s es) (hn : 1 ≤ n) :
    ∃ e, Reads s e 1 ∧ e.weight = weightOf es := by
  induction h with
  | one first => exact ⟨_, first.mono hn, by simp⟩
  | @add s t es last m _ hlast _ tight ih =>
    obtain ⟨e, hreads, hweight⟩ := ih
    have hsum : Reads (s ++ " " ++ BinaryOp.add.symbol ++ " " ++ t) (.binary .add e last) 1 :=
      hreads.binary hlast Nat.one_pos (Nat.le_refl 1) tight
    exact ⟨_, eq_add s t ▸ hsum, by simp [hweight]⟩

/-- What stands before a sum goes with its first term. -/
theorem first {before : String} {g : Expr → Expr}
    (hfirst : ∀ t e, Reads t e n → Reads (before ++ t) (g e) m) (hm : m ≤ n)
    (h : ReadsSum n s es) : ∃ e rest, es = e :: rest ∧ ReadsSum m (before ++ s) (g e :: rest) := by
  induction h with
  | one first => exact ⟨_, [], rfl, .one (hfirst _ _ first)⟩
  | add _ last level tight ih =>
    obtain ⟨e, rest, rfl, hsum⟩ := ih
    refine ⟨e, rest ++ [_], rfl, ?_⟩
    have hsum := hsum.add last (hm.trans level) tight
    simpa only [String.append_assoc, List.cons_append] using hsum

theorem negate (h : ReadsSum 4 s es) :
    ∃ e rest, es = e :: rest ∧ ReadsSum 3 ("-" ++ s) (.negate e :: rest) :=
  h.first (fun _ _ h => h.negate) (Nat.le_succ 3)

/-- The right operand of an operator is the first term after it. -/
theorem operand {l : Expr} (hl : Reads s l n) (hr : ReadsSum m t es) (hop : 0 < op.precedence)
    (hn : op.precedence ≤ n) (hm : op.precedence < m) :
    ∃ e rest, es = e :: rest ∧
      ReadsSum op.precedence (s ++ " " ++ op.symbol ++ " " ++ t) (.binary op l e :: rest) :=
  hr.first (fun _ _ h => hl.binary h hop hn hm) (Nat.le_of_lt hm)

/-- The left operand of an operator that binds tighter than a sum is the last term
before it. -/
theorem operands (hl : ReadsSum 2 s es) (hr : ReadsSum 3 t es') (hop : op.precedence = 2) :
    ∃ before l r rest, es = before ++ [l] ∧ es' = r :: rest ∧
      ReadsSum 2 (s ++ " " ++ op.symbol ++ " " ++ t) (before ++ .binary op l r :: rest) := by
  have hoperand {u : String} {l : Expr} {k : Nat} (hl : Reads u l k) (hk : 2 ≤ k) :
      ∃ r rest, es' = r :: rest ∧
        ReadsSum 2 (u ++ " " ++ op.symbol ++ " " ++ t) (.binary op l r :: rest) := by
    rw [← hop] at hk ⊢
    exact hr.operand hl (by omega) hk (by omega)
  cases hl with
  | one hfirst =>
    obtain ⟨r, rest, hes, hsum⟩ := hoperand hfirst (Nat.le_refl 2)
    exact ⟨[], _, r, rest, rfl, hes, hsum⟩
  | @add u v es l m hterms hlast hlevel _ =>
    obtain ⟨r, rest, hes, hsum⟩ := hoperand hlast hlevel
    refine ⟨es, l, r, rest, rfl, hes, ?_⟩
    have hsum := hterms.append hsum (Nat.le_refl 2) (by decide)
    simpa only [String.append_assoc] using hsum

end ReadsSum

/-! ## What a text weighs -/

/-- The text is read as terms that weigh no more than `w`, less if `lighter`, and
that are more than one if `several`. -/
def WeighsAtMost (n : Nat) (s : String) (w : Nat) (lighter several : Prop) : Prop :=
  ∃ es, ReadsSum n s es ∧ weightOf es ≤ w ∧ (lighter → weightOf es < w) ∧
    (several → 1 < es.length)

namespace WeighsAtMost

variable {n m w v : Nat} {s t : String} {lighter several lighter' several' : Prop}
  {op : BinaryOp}

theorem of_reads {e : Expr} (h : Reads s e n) (hw : e.weight ≤ w)
    (hlighter : lighter → e.weight < w) : WeighsAtMost n s w lighter False :=
  ⟨[e], .one h, by simpa using hw, by simpa using hlighter, False.elim⟩

theorem weaken (h : WeighsAtMost n s w lighter several) (hn : m ≤ n)
    (hlighter : lighter' → lighter) (hseveral : several' → several) :
    WeighsAtMost m s w lighter' several' := by
  obtain ⟨es, hsum, hw, hl, hs⟩ := h
  exact ⟨es, hsum.mono hn, hw, hl ∘ hlighter, hs ∘ hseveral⟩

theorem exists_reads (h : WeighsAtMost n s w lighter several) (hn : 1 ≤ n) :
    ∃ e, Reads s e 1 ∧ e.weight ≤ w ∧ (lighter → e.weight < w) := by
  obtain ⟨es, hsum, hw, hl, -⟩ := h
  obtain ⟨e, hreads, he⟩ := hsum.exists_reads hn
  exact ⟨e, hreads, he ▸ hw, he ▸ hl⟩

theorem group (h : WeighsAtMost n s w lighter several) (hn : 1 ≤ n) :
    WeighsAtMost 4 ("(" ++ s ++ ")") w lighter False := by
  obtain ⟨e, hreads, hw, hl⟩ := h.exists_reads hn
  exact of_reads hreads.group hw hl

/-- In parentheses the terms are one. -/
theorem parenthesizedIf (h : WeighsAtMost n s w lighter several) (hn : 1 ≤ n) {needed : Bool}
    (hm : m ≤ 4) (hneeded : needed = true ∨ m ≤ n) (hseveral : needed = true → ¬ several) :
    WeighsAtMost m (Expr.parenthesizedIf needed s) w lighter several := by
  cases needed with
  | false => exact h.weaken (hneeded.resolve_left Bool.false_ne_true) id id
  | true => exact (h.group hn).weaken hm id (hseveral rfl)

/-- A sign counts for the first of several terms only. -/
theorem negate (h : WeighsAtMost 4 s w lighter several) :
    WeighsAtMost 3 ("-" ++ s) (2 * w) (lighter ∨ several) False := by
  obtain ⟨es, hsum, hw, hlight, hmore⟩ := h
  obtain ⟨e, rest, rfl, hsum'⟩ := hsum.negate
  simp only [Expr.weightOf_cons, List.length_cons] at hw hlight hmore
  refine ⟨_, hsum', ?_, ?_, False.elim⟩ <;>
    simp only [Expr.weightOf_cons, Expr.weight_negate]
  · omega
  · rintro (h | h)
    · have := hlight h
      omega
    · have := Expr.weightOf_pos_of_length (Nat.lt_of_succ_lt_succ (hmore h))
      omega

/-- On the right of a sum, several terms are not taken apart. -/
theorem add (hl : WeighsAtMost n s w lighter several) (hr : WeighsAtMost m t v lighter' several')
    (hn : 1 ≤ n) (hm : 1 < m) :
    WeighsAtMost 1 (s ++ " " ++ BinaryOp.add.symbol ++ " " ++ t) (w + v) (lighter ∨ lighter')
      False := by
  obtain ⟨es, hsum, hw, hlight, -⟩ := hl
  obtain ⟨es', hsum', hv, hlight', -⟩ := hr
  refine ⟨es ++ es', ?_, ?_, ?_, False.elim⟩
  · exact ReadsSum.eq_add s t ▸ (hsum.mono hn).append hsum' (Nat.le_of_lt hm) hm
  · rw [Expr.weightOf_append]
    omega
  · rw [Expr.weightOf_append]
    rintro (h | h)
    · have := hlight h
      omega
    · have := hlight' h
      omega

/-- Only the first of several terms is subtracted. -/
theorem subtract (hl : WeighsAtMost n s w lighter several)
    (hr : WeighsAtMost m t v lighter' several') (hn : 1 ≤ n) (hm : 1 < m) :
    WeighsAtMost 1 (s ++ " " ++ BinaryOp.subtract.symbol ++ " " ++ t) (2 * (w + v))
      (lighter ∨ lighter' ∨ several') False := by
  obtain ⟨l, hreads, hw, hlight⟩ := hl.exists_reads hn
  obtain ⟨es, hsum, hv, hlight', hmore⟩ := hr
  have hop : 0 < BinaryOp.subtract.precedence := Nat.one_pos
  obtain ⟨r, rest, rfl, hsum'⟩ := hsum.operand hreads hop (Nat.le_refl 1) hm
  simp only [Expr.weightOf_cons, List.length_cons] at hv hlight' hmore
  refine ⟨_, hsum', ?_, ?_, False.elim⟩ <;>
    rw [Expr.weightOf_cons, Expr.weight_binary (by decide)]
  · omega
  · rintro (h | h | h)
    · have := hlight h
      omega
    · have := hlight' h
      omega
    · have := Expr.weightOf_pos_of_length (Nat.lt_of_succ_lt_succ (hmore h))
      omega

/-- The factors are the last and the first of several terms. -/
theorem product (hl : WeighsAtMost n s w lighter several)
    (hr : WeighsAtMost m t v lighter' several') (hop : op.precedence = 2) (hn : 2 ≤ n)
    (hm : 3 ≤ m) :
    WeighsAtMost 2 (s ++ " " ++ op.symbol ++ " " ++ t) (2 * (w + v))
      (lighter ∨ lighter' ∨ several ∨ several') False := by
  obtain ⟨es, hsum, hw, hlight, hmore⟩ := hl
  obtain ⟨es', hsum', hv, hlight', hmore'⟩ := hr
  obtain ⟨before, l, r, rest, rfl, rfl, hproduct⟩ :=
    (hsum.mono hn).operands (hsum'.mono hm) hop
  have hadd : op ≠ .add := by
    rintro rfl
    cases hop
  simp only [Expr.weightOf_cons, Expr.weightOf_append, Expr.weightOf_nil, List.length_append,
    List.length_cons, List.length_nil] at hw hv hlight hlight' hmore hmore'
  refine ⟨_, hproduct, ?_, ?_, False.elim⟩ <;>
    rw [Expr.weightOf_append, Expr.weightOf_cons, Expr.weight_binary hadd]
  · omega
  · rintro (h | h | h | h)
    · have := hlight h
      omega
    · have := hlight' h
      omega
    · have := Expr.weightOf_pos_of_length (Nat.lt_of_succ_lt_succ (hmore h))
      omega
    · have := Expr.weightOf_pos_of_length (Nat.lt_of_succ_lt_succ (hmore' h))
      omega

end WeighsAtMost

/-! ## What expressions weigh -/

section

variable {exact lighter lighter' several : Prop} {e : Expr} {es : List Expr} {n : Nat}

theorem Interpretation.addAssoc_weighing : weighing.AddAssoc := fun a b c => by
  simp [weighing, Nat.add_assoc]

theorem Written.exists_weight (h : Written exact e n) :
    ∃ e', Reads (e.render .bigQuery) e' n ∧ e'.weight = e.weight := by
  obtain ⟨e', hreads, -, hvalue⟩ := h
  exact ⟨e', hreads, congrArg (·.getD 0) (hvalue _ Interpretation.addAssoc_weighing)⟩

theorem Written.weighsAtMost (h : Written exact e n) :
    WeighsAtMost n (e.render .bigQuery) e.weight False False := by
  obtain ⟨e', hreads, hweight⟩ := h.exists_weight
  exact .of_reads hreads (Nat.le_of_eq hweight) False.elim

/-- The texts of the arguments are read as arguments that weigh no more, and less
if `lighter`. -/
def WeighAtMost (es : List Expr) (lighter : Prop) : Prop :=
  ∃ es', List.Forall₂ (fun s e' => ∃ n, Reads s e' n) (es.map (Expr.render .bigQuery)) es' ∧
    weightOf es' ≤ weightOf es ∧ (lighter → weightOf es' < weightOf es)

theorem weighAtMost_nil : WeighAtMost [] False := ⟨[], .nil, Nat.le_refl _, False.elim⟩

theorem WeighAtMost.weaken (h : WeighAtMost es lighter) (hlighter : lighter' → lighter) :
    WeighAtMost es lighter' := by
  obtain ⟨es', hall, hw, hlight⟩ := h
  exact ⟨es', hall, hw, hlight ∘ hlighter⟩

theorem WeighsAtMost.cons (h : WeighsAtMost n (e.render .bigQuery) e.weight lighter several)
    (hn : 1 ≤ n) (hes : WeighAtMost es lighter') : WeighAtMost (e :: es) (lighter ∨ lighter') := by
  obtain ⟨e', hreads, hw, hlight⟩ := h.exists_reads hn
  obtain ⟨es', hall, hv, hlight'⟩ := hes
  refine ⟨e' :: es', .cons ⟨1, hreads⟩ hall, ?_, ?_⟩ <;> simp only [Expr.weightOf_cons]
  · omega
  · rintro (h | h)
    · have := hlight h
      omega
    · have := hlight' h
      omega

theorem WeighAtMost.call {f : Function} (h : WeighAtMost es lighter) (hcast : f ≠ .castToString)
    (hdate : f ≠ .dateDiff) (hcan : Dialect.canCall f es.length = true) (hne : es ≠ []) :
    WeighsAtMost 4 ((Expr.call f es).render .bigQuery) (Expr.call f es).weight lighter False := by
  obtain ⟨es', hall, hw, hlight⟩ := h
  refine .of_reads (reads_of_arguments hcast hdate hcan hne hall) ?_ ?_ <;>
    rw [Expr.weight_call, Expr.weight_call]
  · omega
  · intro h
    have := hlight h
    omega

end

end MetricLayer.Sql
