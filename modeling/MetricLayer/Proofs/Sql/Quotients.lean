import Mathlib.Algebra.Order.Floor.Ring
import Mathlib.Data.Rat.Floor
import MetricLayer.Proofs.Sql.DuckDb

/-!
# Quotients without parentheses

In the other dialect a quotient is a division that stands in the text without
parentheses, so an operator to the left of it gets the dividend. Where arithmetic is
exact (`Interpretation.Exact`) a sign or a factor may as well go with the dividend,
but a remainder may not: the text is worth what `Expr.remaindersFirst` says, in which
a remainder by a quotient is the quotient of a remainder. `Spelled e n` says so of
`e`, wherever an operand of the level `n` may stand.
-/

namespace MetricLayer.Sql

namespace Interpretation

variable {α : Type}

/-- Sums do not depend on how they are grouped, a sign or a factor before a quotient
may go with the dividend, and division by a number that is null for zero is a
quotient. -/
structure Exact (I : Interpretation α) : Prop where
  addAssoc : I.AddAssoc
  negate_quotient : ∀ a b, I.negate (I.quotient a b) = I.quotient (I.negate a) b
  multiply_quotient : ∀ a b c,
    I.binary .multiply a (I.quotient b c) = I.quotient (I.binary .multiply a b) c
  divide_nullIf : ∀ a b, I.binary .divide a (I.call .nullIf [b, I.number "0"]) = I.quotient a b

/-- The number that is written with these digits and at most one point. -/
def decimal (digits : String) : ℚ :=
  let fraction := (digits.toList.dropWhile (· != '.')).drop 1
  (digits.toList.filter Char.isDigit).foldl (fun n c => 10 * n + (c.toNat - '0'.toNat)) 0 /
    10 ^ fraction.length

/-- What is left of `a` if whole multiples of `b` are taken away, with the sign
of `a`. -/
def remainder (a b : ℚ) : ℚ :=
  let quotient := a / b
  a - b * if quotient < 0 then ⌈quotient⌉ else ⌊quotient⌋

/-- Rational numbers, with given values of aggregates, texts and functions but for
`NULLIF`. -/
def rational (leaf : Expr → Option ℚ) (text : String → Option ℚ)
    (call : Function → List (Option ℚ) → Option ℚ) : Interpretation ℚ where
  leaf
  number digits := some (decimal digits)
  text
  negate := Option.map (-·)
  binary
    | .add, some a, some b => some (a + b)
    | .subtract, some a, some b => some (a - b)
    | .multiply, some a, some b => some (a * b)
    | .divide, some a, some b => if b = 0 then none else some (a / b)
    | .modulo, some a, some b => if b = 0 then none else some (remainder a b)
    | _, _, _ => none
  isZero b := b == 0
  divide a b := some (a / b)
  call
    | .nullIf, [a, b] => if a = b then none else a
    | f, values => call f values

theorem exact_rational (leaf : Expr → Option ℚ) (text : String → Option ℚ)
    (call : Function → List (Option ℚ) → Option ℚ) : (rational leaf text call).Exact where
  addAssoc := by rintro (_ | a) (_ | b) (_ | c) <;> simp [rational, add_assoc]
  negate_quotient := by
    rintro (_ | a) (_ | b)
    case some.some => by_cases hb : b = 0 <;> simp [rational, quotient, hb, neg_div]
    all_goals rfl
  multiply_quotient := by
    rintro (_ | a) (_ | b) (_ | c)
    case some.some.some => by_cases hc : c = 0 <;> simp [rational, quotient, hc, mul_div_assoc]
    all_goals rfl
  divide_nullIf := by
    have hzero : decimal "0" = 0 := by simp [decimal]
    rintro (_ | a) (_ | b)
    case some.some | none.some => by_cases hb : b = 0 <;> simp [rational, quotient, hzero, hb]
    all_goals simp [rational, quotient, hzero]

end Interpretation

namespace Expr

/-! ## Remainders by quotients -/

def isQuotient : Expr → Bool
  | .call .safeDivide [_, _] => true
  | _ => false

def isRemainderByQuotient : Expr → Bool
  | .binary .modulo _ r => r.isQuotient
  | _ => false

mutual

/-- The same with each remainder by a quotient as the quotient of the remainder by
the dividend. -/
def remaindersFirst : Expr → Expr
  | .binary .modulo l (.call .safeDivide [a, b]) =>
    .call .safeDivide
      [.binary .modulo l.remaindersFirst a.remaindersFirst, b.remaindersFirst]
  | .binary op l r => .binary op l.remaindersFirst r.remaindersFirst
  | .call f arguments => .call f (remaindersFirstAll arguments)
  | .negate e => .negate e.remaindersFirst
  | .nested e => .nested e.remaindersFirst
  | e => e

def remaindersFirstAll : List Expr → List Expr
  | [] => []
  | e :: rest => e.remaindersFirst :: remaindersFirstAll rest

end

theorem exists_of_isQuotient {e : Expr} (h : e.isQuotient = true) :
    ∃ a b, e = .call .safeDivide [a, b] := by
  unfold isQuotient at h
  split at h
  · exact ⟨_, _, rfl⟩
  · cases h

theorem exists_of_isRemainderByQuotient {op : BinaryOp} {l r : Expr}
    (h : (binary op l r).isRemainderByQuotient = true) :
    op = .modulo ∧ ∃ a b, r = .call .safeDivide [a, b] := by
  cases op <;> first | exact ⟨rfl, exists_of_isQuotient h⟩ | cases h

theorem remaindersFirst_binary {op : BinaryOp} {l r : Expr}
    (h : (binary op l r).isRemainderByQuotient = false) :
    (binary op l r).remaindersFirst = .binary op l.remaindersFirst r.remaindersFirst := by
  rw [remaindersFirst]
  rintro a b rfl rfl
  cases h

/-- A remainder by a quotient becomes a quotient. -/
theorem isRemainderByQuotient_of_remaindersFirst_eq_self {op : BinaryOp} {l r : Expr}
    (h : (binary op l r).remaindersFirst = .binary op l r) :
    (binary op l r).isRemainderByQuotient = false := by
  by_contra hremainder
  have hquotient := exists_of_isRemainderByQuotient (Bool.eq_true_of_not_eq_false hremainder)
  obtain ⟨rfl, a, b, rfl⟩ := hquotient
  cases h

mutual

/-- Without a remainder by a quotient nothing is to be done. -/
theorem remaindersFirst_eq_self : (e : Expr) →
    (∀ node ∈ e.nodes, node.isRemainderByQuotient = false) → e.remaindersFirst = e
  | .binary op l r, h => by
    rw [nodes, List.forall_mem_cons, List.forall_mem_append] at h
    rw [remaindersFirst_binary h.1, remaindersFirst_eq_self l h.2.1,
      remaindersFirst_eq_self r h.2.2]
  | .call f es, h => by
    rw [nodes, List.forall_mem_cons] at h
    rw [remaindersFirst, remaindersFirstAll_eq_self es h.2]
  | .negate e, h | .nested e, h => by
    rw [nodes, List.forall_mem_cons] at h
    rw [remaindersFirst, remaindersFirst_eq_self e h.2]
  | .column _ _, _ | .literal _, _ | .date _, _ | .wildcard, _ | .raw _, _ | .cases _ _, _
  | .aggregate _ _, _ | .countIf _, _ | .inList _ _ _, _ => rfl

theorem remaindersFirstAll_eq_self : (es : List Expr) →
    (∀ node ∈ nodesOf es, node.isRemainderByQuotient = false) → remaindersFirstAll es = es
  | [], _ => rfl
  | e :: es, h => by
    rw [nodesOf, List.forall_mem_append] at h
    rw [remaindersFirstAll, remaindersFirst_eq_self e h.1, remaindersFirstAll_eq_self es h.2]

end

end Expr

/-! ## Telling the two apart -/

namespace Interpretation

/-- How many calls there are, those in a remainder counting twice. Over the rational
numbers a factor of zero hides what stands beside it, a count hides nothing. -/
def tally : Interpretation Nat where
  leaf _ := some 0
  number _ := some 0
  text _ := some 0
  negate a := a
  binary
    | .modulo, some a, some b => some (2 * (a + b))
    | _, some a, some b => some (a + b)
    | _, _, _ => none
  isZero _ := false
  divide a b := some (a + b + 1)
  call _ values := values.foldr (fun v total => do some ((← v) + (← total))) (some 1)

theorem exact_tally : tally.Exact where
  addAssoc := by rintro (_ | a) (_ | b) (_ | c) <;> simp [tally, Nat.add_assoc]
  negate_quotient _ _ := rfl
  multiply_quotient := by
    rintro (_ | a) (_ | b) (_ | c) <;> simp [tally, quotient, Nat.add_assoc]
  divide_nullIf := by rintro (_ | a) (_ | b) <;> simp [tally, quotient, Nat.add_assoc]

theorem binary_tally (op : BinaryOp) (a b : Nat) :
    tally.binary op (some a) (some b) = some (if op = .modulo then 2 * (a + b) else a + b) := by
  cases op <;> rfl

theorem quotient_tally_eq_some {a b : Option Nat} {n : Nat} (h : tally.quotient a b = some n) :
    ∃ x y, a = some x ∧ b = some y ∧ n = x + y + 1 := by
  cases a with
  | none => cases h
  | some x =>
    cases b with
    | none => cases h
    | some y => exact ⟨x, y, rfl, rfl, (Option.some.inj h).symm⟩

theorem apply_tally (f : Function) (values : List (Option Nat)) :
    tally.apply f values = tally.call f values := by
  unfold apply
  split
  · rename_i a b
    cases a <;> cases b <;> simp [tally, quotient, Nat.add_assoc]
  · rfl

theorem call_tally_cons (f : Function) {values : List (Option Nat)} {a b : Nat}
    (h : tally.call f values = some b) : tally.call f (some a :: values) = some (a + b) := by
  change (do some ((← some a) + (← tally.call f values))) = _
  rw [h]
  rfl

end Interpretation

namespace Expr

/-- The expression counts no less than with its remainders first, and no more only
if that is the same. -/
def Tallies (e : Expr) : Prop :=
  ∃ v v', e.value .tally = some v ∧ e.remaindersFirst.value .tally = some v' ∧
    (v' < v ∨ v' = v ∧ e.remaindersFirst = e)

/-- A remainder counts twice all that it is taken by, if that is not a quotient. -/
theorem Tallies.binary {op : BinaryOp} {l r : Expr} (hl : l.Tallies) (hr : r.Tallies) :
    (Expr.binary op l r).Tallies := by
  obtain ⟨v, v', hv, hv', hl⟩ := hl
  obtain ⟨w, w', hw, hw', hr⟩ := hr
  have hvalue : (Expr.binary op l r).value .tally =
      some (if op = .modulo then 2 * (v + w) else v + w) := by
    rw [value, hv, hw, Interpretation.binary_tally]
  by_cases h : (Expr.binary op l r).isRemainderByQuotient = true
  · obtain ⟨rfl, a, b, rfl⟩ := exists_of_isRemainderByQuotient h
    obtain ⟨x, y, hx, hy, rfl⟩ := Interpretation.quotient_tally_eq_some hw
    obtain ⟨x', y', hx', hy', rfl⟩ := Interpretation.quotient_tally_eq_some hw'
    have hvalue' : (Expr.call .safeDivide [.binary .modulo l.remaindersFirst a.remaindersFirst,
        b.remaindersFirst]).value .tally = some (2 * (v' + x') + y' + 1) := by
      change Interpretation.tally.quotient (Interpretation.tally.binary .modulo _ _) _ = _
      rw [hv', hx', hy', Interpretation.binary_tally]
      rfl
    exact ⟨_, _, hvalue, hvalue', .inl (by rw [if_pos rfl]; omega)⟩
  · have h := remaindersFirst_binary (Bool.eq_false_iff.2 h)
    have hvalue' : (Expr.binary op l r).remaindersFirst.value .tally =
        some (if op = .modulo then 2 * (v' + w') else v' + w') := by
      rw [h, value, hv', hw', Interpretation.binary_tally]
    refine ⟨_, _, hvalue, hvalue', ?_⟩
    rcases hl with hl | ⟨rfl, hl⟩
    · exact .inl (by split <;> omega)
    · rcases hr with hr | ⟨rfl, hr⟩
      · exact .inl (by split <;> omega)
      · exact .inr ⟨rfl, by rw [h, hl, hr]⟩

mutual

theorem tallies : (e : Expr) → e.Tallies
  | .binary _ l r => (tallies l).binary (tallies r)
  | .call f es => by
    obtain ⟨v, v', hv, hv', h⟩ := tallies_call f es
    refine ⟨v, v', ?_, ?_, h.imp_right fun h => ⟨h.1, congrArg (call f) h.2⟩⟩
    · rw [value, Interpretation.apply_tally, hv]
    · rw [remaindersFirst, value, Interpretation.apply_tally, hv']
  | .negate e => by
    obtain ⟨v, v', hv, hv', h⟩ := tallies e
    exact ⟨v, v', hv, hv', h.imp_right fun h => ⟨h.1, congrArg negate h.2⟩⟩
  | .nested e => by
    obtain ⟨v, v', hv, hv', h⟩ := tallies e
    exact ⟨v, v', hv, hv', h.imp_right fun h => ⟨h.1, congrArg nested h.2⟩⟩
  | .literal v => ⟨0, 0, by cases v <;> rfl, by cases v <;> rfl, .inr ⟨rfl, rfl⟩⟩
  | .column _ _ | .date _ | .wildcard | .raw _ | .cases _ _
  | .aggregate _ _ | .countIf _ | .inList _ _ _ => ⟨0, 0, rfl, rfl, .inr ⟨rfl, rfl⟩⟩

theorem tallies_call (f : Function) : (es : List Expr) → ∃ v v',
    Interpretation.tally.call f (values .tally es) = some v ∧
    Interpretation.tally.call f (values .tally (remaindersFirstAll es)) = some v' ∧
    (v' < v ∨ v' = v ∧ remaindersFirstAll es = es)
  | [] => ⟨1, 1, rfl, rfl, .inr ⟨rfl, rfl⟩⟩
  | e :: es => by
    obtain ⟨v, v', hv, hv', he⟩ := tallies e
    obtain ⟨w, w', hw, hw', hes⟩ := tallies_call f es
    refine ⟨v + w, v' + w', ?_, ?_, ?_⟩
    · rw [values, hv, Interpretation.call_tally_cons f hw]
    · rw [remaindersFirstAll, values, hv', Interpretation.call_tally_cons f hw']
    · rcases he with he | ⟨rfl, he⟩
      · exact .inl (by omega)
      · rcases hes with hes | ⟨rfl, hes⟩
        · exact .inl (by omega)
        · exact .inr ⟨rfl, by rw [remaindersFirstAll, he, hes]⟩

end

/-- Where exact arithmetic does not tell the two apart, they are the same. -/
theorem remaindersFirst_eq_self_iff {e : Expr} :
    e.remaindersFirst = e ↔ ∀ {α : Type} (I : Interpretation α), I.Exact →
      e.remaindersFirst.value I = e.value I := by
  refine ⟨fun h _ I _ => by rw [h], fun h => ?_⟩
  obtain ⟨v, v', hv, hv', hlt | ⟨-, heq⟩⟩ := tallies e
  · rw [h _ Interpretation.exact_tally, hv, Option.some.injEq] at hv'
    omega
  · exact heq

end Expr

/-! ## What the other dialect writes -/

/-- Wherever an operand of the level `n` may stand, the text of `e` in the other
dialect is read as an expression that has the value of `e` with its remainders
first. -/
def Spelled (e : Expr) (n : Nat) : Prop :=
  ∃ e', ReadsInDuckDb (e.render .duckDb) e' n ∧
    ∀ {α : Type} (I : Interpretation α), I.Exact → e'.value I = e.remaindersFirst.value I

variable {e l r a b : Expr} {n m : Nat}

theorem spelled_of_reads (h : ReadsInDuckDb (e.render .duckDb) e n)
    (he : e.remaindersFirst = e) : Spelled e n :=
  ⟨e, h, fun _ _ => by rw [he]⟩

namespace Spelled

theorem mono (h : Spelled e n) (hm : m ≤ n) : Spelled e m := by
  obtain ⟨e', hreads, hvalue⟩ := h
  exact ⟨e', hreads.mono hm, hvalue⟩

theorem nested (h : Spelled e n) : Spelled (.nested e) 4 := by
  obtain ⟨e', hreads, hvalue⟩ := h
  exact ⟨e', hreads.group, hvalue⟩

theorem negate (h : Spelled e n) (hn : e.isNegation = true ∨ 4 ≤ n) :
    Spelled (.negate e) 3 := by
  obtain ⟨e', hreads, hvalue⟩ := h
  exact ⟨.negate e', (hreads.parenthesizedIf (Nat.le_refl 4) hn).negate,
    fun I hI => congrArg I.negate (hvalue I hI)⟩

theorem binary {op : BinaryOp} (hl : Spelled l n) (hr : Spelled r m)
    (hremainder : (Expr.binary op l r).isRemainderByQuotient = false) (hop : 0 < op.precedence)
    (hn : op.precedence ≤ n) (hm : r.isNegation = true ∨ op.precedence < m) :
    Spelled (.binary op l r) op.precedence := by
  obtain ⟨l', hreadsl, hvaluel⟩ := hl
  obtain ⟨r', hreadsr, hvaluer⟩ := hr
  have hprecedence : op.precedence + 1 ≤ 4 := by cases op <;> decide
  refine ⟨.binary op l' r', hreadsl.binary (hreadsr.parenthesizedIf hprecedence hm) hop hn
    (Nat.lt_succ_self _), fun I hI => ?_⟩
  rw [Expr.remaindersFirst_binary hremainder, Expr.value, Expr.value, hvaluel I hI, hvaluer I hI]

/-- Arguments are read one for one. -/
theorem exists_arguments {es : List Expr} (h : ∀ e ∈ es, ∃ n, Spelled e n) :
    ∃ es', List.Forall₂ (fun s e' => ∃ n, ReadsInDuckDb s e' n)
        (es.map (Expr.render .duckDb)) es' ∧
      ∀ {α : Type} (I : Interpretation α), I.Exact →
        es'.map (Expr.value I) = (Expr.remaindersFirstAll es).map (Expr.value I) := by
  induction es with
  | nil => exact ⟨[], .nil, fun _ _ => rfl⟩
  | cons e es ih =>
    rw [List.forall_mem_cons] at h
    obtain ⟨n, e', hreads, hvalue⟩ := h.1
    obtain ⟨es', hall, hvalues⟩ := ih h.2
    refine ⟨e' :: es', .cons ⟨n, hreads⟩ hall, fun I hI => ?_⟩
    rw [Expr.remaindersFirstAll, List.map_cons, List.map_cons, hvalue I hI, hvalues I hI]

theorem call {f : Function} {es : List Expr} (hdivide : f ≠ .safeDivide)
    (hcast : f ≠ .castToString) (hdate : f ≠ .dateDiff)
    (hcan : Dialect.canCall f es.length = true) (hne : es ≠ [])
    (h : ∀ e ∈ es, ∃ n, Spelled e n) : Spelled (.call f es) 4 := by
  obtain ⟨es', hall, hvalue⟩ := exists_arguments h
  refine ⟨.call f es', .scalar hdivide hcast hdate hcan hne hall, fun I hI => ?_⟩
  rw [Expr.remaindersFirst, Expr.value, Expr.value, Expr.values_eq_map, Expr.values_eq_map,
    hvalue I hI]

/-! ## Quotients -/

/-- What stands before a quotient gets the dividend, which is in parentheses. -/
theorem exists_divide (before : String) {d : Expr}
    (hd : ReadsInDuckDb (before ++ ("(" ++ a.render .duckDb ++ ")")) d n) (hn : 2 ≤ n)
    (hb : Spelled b m) :
    ∃ e', ReadsInDuckDb (before ++ (Expr.call .safeDivide [a, b]).render .duckDb) e' 2 ∧
      ∀ {α : Type} (I : Interpretation α), I.Exact →
        e'.value I = I.quotient (d.value I) (b.remaindersFirst.value I) := by
  obtain ⟨b', hreads, hvalue⟩ := hb
  refine ⟨.binary .divide d (.call .nullIf [b', .raw "0"]), ?_, fun I hI => ?_⟩
  · have htext : before ++ (Expr.call .safeDivide [a, b]).render .duckDb =
        before ++ ("(" ++ a.render .duckDb ++ ")") ++ " / NULLIF(" ++ b.render .duckDb ++
          ", 0)" := by
      have hcall : (Expr.call .safeDivide [a, b]).render .duckDb =
          "(" ++ a.render .duckDb ++ ") / NULLIF(" ++ b.render .duckDb ++ ", 0)" := rfl
      rw [hcall, show ") / NULLIF(" = ")" ++ " / NULLIF(" by decide]
      simp only [String.append_assoc]
    rw [htext]
    exact hd.divide hn hreads
  · rw [← hvalue I hI]
    exact hI.divide_nullIf (d.value I) (b'.value I)

theorem quotient (ha : Spelled a n) (hb : Spelled b m) :
    Spelled (.call .safeDivide [a, b]) 2 := by
  obtain ⟨a', hreads, hvalue⟩ := ha
  obtain ⟨e', hreads', hvalue'⟩ := exists_divide "" (by simpa using hreads.group) (by decide) hb
  refine ⟨e', by simpa using hreads', fun I hI => (hvalue' I hI).trans ?_⟩
  rw [hvalue I hI]
  rfl

/-- The sign of a quotient is that of the dividend. -/
theorem negate_quotient (ha : Spelled a n) (hb : Spelled b m) :
    Spelled (.negate (.call .safeDivide [a, b])) 2 := by
  obtain ⟨a', hreads, hvalue⟩ := ha
  obtain ⟨e', hreads', hvalue'⟩ := exists_divide _ hreads.group.negate (by decide) hb
  refine ⟨e', hreads', fun I hI => (hvalue' I hI).trans ?_⟩
  rw [Expr.value, hvalue I hI]
  exact (hI.negate_quotient _ _).symm

/-- A factor or a remainder before a quotient goes with the dividend. -/
theorem binary_quotient {op : BinaryOp} (hop : op = .multiply ∨ op = .modulo)
    (hl : Spelled l m) (hm : 2 ≤ m) (ha : Spelled a n) (hb : Spelled b n) :
    Spelled (.binary op l (.call .safeDivide [a, b])) 2 := by
  obtain ⟨l', hreadsl, hvaluel⟩ := hl
  obtain ⟨a', hreadsa, hvaluea⟩ := ha
  have hprecedence : op.precedence = 2 := by rcases hop with rfl | rfl <;> rfl
  have hpos : 0 < op.precedence := by omega
  have hdividend := hreadsl.binary hreadsa.group hpos (by omega) (by omega)
  obtain ⟨e', hreads, hvalue⟩ := exists_divide _ hdividend (by omega) hb
  refine ⟨e', hreads, fun I hI => (hvalue I hI).trans ?_⟩
  rw [Expr.value, hvaluel I hI, hvaluea I hI]
  rcases hop with rfl | rfl
  · exact (hI.multiply_quotient _ _ _).symm
  · rfl

end Spelled

/-- Where an operand of the level `n` may stand, the text of `e` is right, or `e` is
a quotient or a negation, whose text binds no tighter than a product. -/
inductive SettlesInDuckDb (n : Nat) : Expr → Prop where
  | quotient {a b : Expr} (dividend : Spelled a 1) (divisor : Spelled b 1) :
      SettlesInDuckDb n (.call .safeDivide [a, b])
  | negation {e : Expr} (spelled : Spelled (.negate e) 2) : SettlesInDuckDb n (.negate e)
  | other {e : Expr} (notQuotient : e.isQuotient = false) (spelled : Spelled e n) :
      SettlesInDuckDb n e

namespace SettlesInDuckDb

theorem spelled (h : SettlesInDuckDb n e) (hm : m ≤ n) (htwo : m ≤ 2) : Spelled e m := by
  cases h with
  | quotient dividend divisor => exact (dividend.quotient divisor).mono htwo
  | negation spelled => exact spelled.mono htwo
  | other _ spelled => exact spelled.mono hm

theorem negate (h : SettlesInDuckDb n e) (hn : e.isNegation = true ∨ 4 ≤ n) :
    SettlesInDuckDb m (.negate e) := by
  refine .negation ?_
  cases h with
  | quotient dividend divisor => exact dividend.negate_quotient divisor
  | negation spelled => exact (spelled.negate (.inl rfl)).mono (by decide)
  | other _ spelled => exact (spelled.negate hn).mono (by decide)

/-- A negation to the right of an operator is in parentheses, a quotient is not. -/
theorem binary {op : BinaryOp} (hl : SettlesInDuckDb n l) (hr : SettlesInDuckDb m r)
    (hop : op.precedence = 1 ∨ op = .multiply ∨ op = .modulo)
    (hn : op.precedence ≤ n) (hm : op.precedence < m) :
    Spelled (.binary op l r) op.precedence := by
  have hpos : 0 < op.precedence ∧ op.precedence ≤ 2 := by
    rcases hop with hop | rfl | rfl
    · omega
    · decide
    · decide
  have hleft := hl.spelled hn hpos.2
  have hremainder (h : op ≠ .modulo ∨ r.isQuotient = false) :
      (Expr.binary op l r).isRemainderByQuotient = false := by
    cases op <;> first | rfl | exact h.resolve_left fun h => h rfl
  cases hr with
  | quotient dividend divisor =>
    rcases hop with hop | hop
    · have hmodulo : op ≠ .modulo := by
        rintro rfl
        cases hop
      exact hleft.binary (dividend.quotient divisor) (hremainder (.inl hmodulo)) hpos.1
        (Nat.le_refl _) (.inr (by omega))
    · have hprecedence : op.precedence = 2 := by rcases hop with rfl | rfl <;> rfl
      rw [hprecedence] at hleft ⊢
      exact .binary_quotient hop hleft (Nat.le_refl 2) dividend divisor
  | negation spelled =>
    exact hleft.binary spelled (hremainder (.inr rfl)) hpos.1 (Nat.le_refl _) (.inl rfl)
  | other notQuotient spelled =>
    exact hleft.binary spelled (hremainder (.inr notQuotient)) hpos.1 (Nat.le_refl _) (.inr hm)

end SettlesInDuckDb

end MetricLayer.Sql
