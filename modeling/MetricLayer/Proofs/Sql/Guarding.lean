import MetricLayer.Proofs.Sql.Written
import MetricLayer.Sql.Guard

/-!
# What the guard sees of an expression

The guard counts parentheses, and looks for separators, comments and words
(`guardSql_eq_ok_iff`). What it looks for lies between characters that are part of none
of these (`isApart`), so that a text is `Allowed` where its pieces are
(`allowed_append`). Between such characters two dialects write the same: they differ in
the names of functions, in quotes and in what escapes them. So an expression is allowed
in one dialect if it is in another (`alike_render`).

Parentheses are another matter. A text is `Level` if the guard comes out of it as it went
in. Literals are so in the one dialect, and in the other if they hold no quote
(`level_quoteText`).
-/

namespace MetricLayer.Sql

namespace Guard

variable {c : Char} {cs xs ys mark : List Char}

/-- The text balances its parentheses, as the guard counts them. -/
def Balances (sql : String) : Prop := depth? 0 false sql.toList = some 0

/-- The text holds no separator, no comment and no word that is forbidden. -/
def Allowed (cs : List Char) : Prop :=
  (∀ mark ∈ separators, ¬ mark.toList <:+: cs) ∧
    ∀ word ∈ Text.words cs, String.ofList (word.map foldChar) ∉ keywords

instance (sql : String) : Decidable (Balances sql) := inferInstanceAs (Decidable (_ = _))
instance : Decidable (Allowed cs) := inferInstanceAs (Decidable (_ ∧ _))

theorem guardSql_eq_ok_iff {sql : String} :
    guardSql sql = .ok () ↔ Balances sql ∧ Allowed sql.toList := by
  have hallowed : Allowed sql.toList ↔
      separators.find? (Text.contains sql) = none ∧ keyword? sql.toList = none := by
    simp [Allowed, keyword?, Text.contains, Text.containsChars_eq_true_iff]
  rw [hallowed, Balances, guardSql]
  split
  · simp [*]
  · simp [*]
  · rename_i hdepth
    rw [hdepth]
    split
    · simp [*]
    · split <;> simp [*]

/-- The parentheses of the text are not balanced. -/
def Fault.countsParentheses : Fault → Bool
  | .unexpectedClose | .unclosed _ => true
  | .separator _ | .keyword _ => false

theorem countsParentheses_of_balances {sql : String} {fault : Fault} (h : Balances sql)
    (hguard : guardSql sql = .error fault) : fault.countsParentheses = false := by
  rw [guardSql, show depth? 0 false sql.toList = some 0 from h] at hguard
  dsimp only at hguard
  split at hguard
  · exact Except.error.inj hguard ▸ rfl
  · split at hguard
    · exact Except.error.inj hguard ▸ rfl
    · cases hguard

/-! ## Pieces of a text -/

/-- What neither stands in a word nor in a separator or the mark of a comment. -/
def isApart (c : Char) : Bool := !Text.isWordChar c && !(['-', '/', '*', ';'].contains c)

theorem prefix_of_prefix_append_cons (hc : c ∉ mark) (h : mark <+: xs ++ c :: ys) :
    mark <+: xs := by
  rcases List.prefix_or_prefix_of_prefix h (List.prefix_append xs _) with hshort | ⟨more, rfl⟩
  · exact hshort
  · obtain rfl | ⟨rest, rfl, -⟩ :=
      List.prefix_cons_iff.1 ((List.prefix_append_right_inj xs).1 h)
    · simp
    · simp at hc

/-- A mark lies on one side of a character that it does not have. -/
theorem infix_append_cons_iff (hc : c ∉ mark) :
    mark <:+: xs ++ c :: ys ↔ mark <:+: xs ∨ mark <:+: ys := by
  induction xs with
  | nil =>
    rw [List.nil_append, List.infix_cons_iff]
    refine or_congr_left ⟨fun h => ?_, fun h => ?_⟩
    · have hempty : mark <+: [] := prefix_of_prefix_append_cons hc h
      exact hempty.isInfix
    · simp [List.infix_nil.1 h]
  | cons x xs ih =>
    rw [List.cons_append, List.infix_cons_iff, List.infix_cons_iff, ih, or_assoc]
    refine or_congr_left ⟨fun h => ?_, fun h => h.trans (List.prefix_append (x :: xs) _)⟩
    rw [← List.cons_append] at h
    exact prefix_of_prefix_append_cons hc h

theorem words_append_cons (hc : Text.isWordChar c = false) :
    Text.words (xs ++ c :: ys) = Text.words xs ++ Text.words ys := by
  have hfrom (current : List Char) : Text.wordsFrom current (xs ++ c :: ys) =
      Text.wordsFrom current xs ++ Text.words ys := by
    induction xs generalizing current with
    | nil => cases current <;> simp [Text.wordsFrom, hc, Text.words]
    | cons x xs ih =>
      rw [List.cons_append, Text.wordsFrom, Text.wordsFrom]
      split
      · exact ih _
      · split <;> simp [ih]
  exact hfrom []

theorem allowed_append_cons (hc : isApart c = true) :
    Allowed (xs ++ c :: ys) ↔ Allowed xs ∧ Allowed ys := by
  simp only [isApart, Bool.and_eq_true, Bool.not_eq_true'] at hc
  obtain ⟨hword, hmark⟩ := hc
  have hmarks : ∀ mark ∈ separators, c ∉ mark.toList := by
    intro mark hmem hin
    simp only [separators, List.mem_cons, List.not_mem_nil, or_false] at hmem
    rcases hmem with rfl | rfl | rfl <;> simp_all
  have hsplit : (∀ mark ∈ separators, ¬ mark.toList <:+: xs ++ c :: ys) ↔
      (∀ mark ∈ separators, ¬ mark.toList <:+: xs) ∧ ∀ mark ∈ separators, ¬ mark.toList <:+: ys := by
    rw [← forall₂_and]
    refine forall₂_congr fun mark hmem => ?_
    rw [infix_append_cons_iff (hmarks mark hmem), not_or]
  rw [Allowed, hsplit, words_append_cons hword, List.forall_mem_append]
  exact and_and_and_comm

theorem allowed_nil : Allowed [] := by decide

theorem allowed_cons (hc : isApart c = true) : Allowed (c :: cs) ↔ Allowed cs := by
  rw [← List.nil_append (c :: cs), allowed_append_cons hc, and_iff_right allowed_nil]

/-- A minus sign begins a comment before another one, and else is nothing. -/
theorem allowed_cons_minus : Allowed ('-' :: cs) ↔ cs.head? ≠ some '-' ∧ Allowed cs := by
  have hwords : Text.words ('-' :: cs) = Text.words cs := rfl
  have hmarks : (∀ mark ∈ separators, ¬ mark.toList <:+: '-' :: cs) ↔
      cs.head? ≠ some '-' ∧ ∀ mark ∈ separators, ¬ mark.toList <:+: cs := by
    cases cs with
    | nil => simp [separators, List.infix_cons_iff]
    | cons c cs =>
      simp [separators, List.infix_cons_iff]
      grind
  rw [Allowed, hmarks, hwords, and_assoc]
  rfl

variable {p q s t s' t' : String}

/-- The text ends with a character that is part of nothing that is looked for. -/
def EndsApart (s : String) : Prop := s.toList.getLast?.any isApart = true

/-- The text begins so, if it is not empty. -/
def StartsApart (s : String) : Prop := s.toList.head?.all isApart = true

instance : Decidable (EndsApart s) := inferInstanceAs (Decidable (_ = _))
instance : Decidable (StartsApart s) := inferInstanceAs (Decidable (_ = _))

theorem EndsApart.append (h : EndsApart t) (s : String) : EndsApart (s ++ t) := by
  obtain ⟨c, hc, hapart⟩ := (Option.any_eq_true _ _).1 h
  rw [EndsApart, String.toList_append, List.getLast?_append, Option.mem_def.1 hc]
  exact hapart

theorem allowed_append (h : EndsApart s ∨ StartsApart t) :
    Allowed (s ++ t).toList ↔ Allowed s.toList ∧ Allowed t.toList := by
  rw [String.toList_append]
  rcases h with h | h
  · obtain ⟨c, hlast, hc⟩ := (Option.any_eq_true _ _).1 h
    obtain ⟨before, hs⟩ := List.getLast?_eq_some_iff.1 hlast
    rw [hs, List.append_assoc, List.singleton_append, allowed_append_cons hc,
      allowed_append_cons hc, and_iff_left allowed_nil]
  · cases ht : t.toList with
    | nil => simp [allowed_nil]
    | cons c cs =>
      have hc : isApart c = true := by simpa [StartsApart, ht] using h
      rw [allowed_append_cons hc, allowed_cons hc]

/-- A minus sign at the beginning is not one between the pieces. -/
theorem minus_append (h : EndsApart s ∨ StartsApart t) :
    (s ++ t).toList.head? = some '-' ↔ s.toList.head? = some '-' := by
  rw [String.toList_append, List.head?_append]
  cases hs : s.toList with
  | cons c cs => simp
  | nil =>
    rcases h with h | h
    · simp [EndsApart, hs] at h
    · rw [List.head?_nil, Option.none_or]
      refine iff_of_false (fun hminus => ?_) (by simp)
      rw [StartsApart, hminus] at h
      exact absurd h (by decide)

theorem allowed_enclosed (hp : EndsApart p) (hq : StartsApart q) :
    Allowed (p ++ s ++ q).toList ↔ Allowed p.toList ∧ Allowed s.toList ∧ Allowed q.toList := by
  rw [allowed_append (.inr hq), allowed_append (.inl hp), and_assoc]

theorem allowed_framed (hp : EndsApart p) (hq : StartsApart q)
    (hframe : Allowed p.toList ∧ Allowed q.toList) :
    Allowed (p ++ s ++ q).toList ↔ Allowed s.toList := by
  rw [allowed_enclosed hp hq, and_iff_right hframe.1, and_iff_left hframe.2]

theorem allowed_between {m : String} (hp : EndsApart p) (hm : StartsApart m) (hm' : EndsApart m)
    (hq : StartsApart q) : Allowed (p ++ s ++ m ++ t ++ q).toList ↔
      (Allowed p.toList ∧ Allowed m.toList ∧ Allowed q.toList) ∧
        Allowed s.toList ∧ Allowed t.toList := by
  rw [allowed_append (.inr hq), allowed_append (.inl (hm'.append _)), allowed_append (.inr hm),
    allowed_append (.inl hp)]
  tauto

theorem minus_framed (hp : EndsApart p) :
    (p ++ s ++ q).toList.head? = some '-' ↔ p.toList.head? = some '-' := by
  rw [String.append_assoc, minus_append (.inl hp)]

/-- Commas stand apart. -/
theorem allowed_intercalate : (texts : List String) →
    (Allowed (", ".intercalate texts).toList ↔ ∀ s ∈ texts, Allowed s.toList)
  | [] => by
    simp only [List.not_mem_nil, false_implies, implies_true, iff_true]
    decide
  | [s] => by simp
  | s :: s' :: texts => by
    have hcomma : Allowed ", ".toList := by decide
    have happart : EndsApart (s ++ ", ") := EndsApart.append (by decide) s
    rw [String.intercalate_cons_cons, allowed_append (.inl happart),
      allowed_append (.inr (by decide)), and_iff_left hcomma, allowed_intercalate (s' :: texts)]
    simp only [List.forall_mem_cons]

/-! ## Two texts of one expression -/

/-- Two texts that are allowed in the same places. -/
structure Alike (s t : String) : Prop where
  allowed : Allowed s.toList ↔ Allowed t.toList
  minus : s.toList.head? = some '-' ↔ t.toList.head? = some '-'

namespace Alike

theorem refl (s : String) : Alike s s := ⟨Iff.rfl, Iff.rfl⟩

theorem append (h : Alike s t) (h' : Alike s' t') (hs : EndsApart s ∨ StartsApart s')
    (ht : EndsApart t ∨ StartsApart t') : Alike (s ++ s') (t ++ t') where
  allowed := by rw [allowed_append hs, allowed_append ht, h.allowed, h'.allowed]
  minus := by rw [minus_append hs, minus_append ht, h.minus]

theorem append_left (h : Alike s t) (hp : EndsApart p) : Alike (p ++ s) (p ++ t) :=
  (refl p).append h (.inl hp) (.inl hp)

theorem append_right (h : Alike s t) (hq : StartsApart q) : Alike (s ++ q) (t ++ q) :=
  h.append (refl q) (.inr hq) (.inr hq)

theorem enclose (h : Alike s t) (hp : EndsApart p) (hq : StartsApart q) :
    Alike (p ++ s ++ q) (p ++ t ++ q) :=
  (h.append_left hp).append_right hq

theorem minus_left (h : Alike s t) : Alike ("-" ++ s) ("-" ++ t) where
  allowed := by
    rw [String.toList_append, String.toList_append]
    change Allowed ('-' :: s.toList) ↔ Allowed ('-' :: t.toList)
    rw [allowed_cons_minus, allowed_cons_minus, h.allowed, ne_eq, ne_eq, h.minus]
  minus := by simp

/-- What stands between commas. -/
theorem intercalate {texts texts' : List String} (h : List.Forall₂ Alike texts texts') :
    Alike (", ".intercalate texts) (", ".intercalate texts') := by
  induction h with
  | nil => exact refl _
  | @cons s t rest rest' hhead htail ih =>
    cases htail with
    | nil => simpa using hhead
    | cons _ _ =>
      rw [String.intercalate_cons_cons, String.intercalate_cons_cons]
      exact (hhead.append_right (by decide)).append ih (.inl (.append (by decide) _))
        (.inl (.append (by decide) _))

theorem parenthesizedIf (h : Alike s t) (needed : Bool) :
    Alike (Expr.parenthesizedIf needed s) (Expr.parenthesizedIf needed t) := by
  cases needed with
  | false => exact h
  | true => exact h.enclose (by decide) (by decide)

end Alike

end Guard

open Guard

variable {d d' : Dialect}

/-! ## Names and literals -/

/-- An apart character makes no difference where another one stands. -/
theorem allowed_flatMap {escape : Char → List Char} (hescape : ∀ c, escape c = [c] ∨
    isApart c = true ∧ ∃ e, isApart e = true ∧ escape c = [e, c]) (cs : List Char) :
    Allowed (cs.flatMap escape) ↔ Allowed cs := by
  have hprefix (xs : List Char) : Allowed (xs ++ cs.flatMap escape) ↔ Allowed (xs ++ cs) := by
    induction cs generalizing xs with
    | nil => rfl
    | cons c cs ih =>
      rw [List.flatMap_cons]
      rcases hescape c with hc | ⟨hc, e, he, hpair⟩
      · have hone := ih (xs ++ [c])
        rw [List.append_assoc, List.append_assoc] at hone
        rwa [hc]
      · rw [hpair, List.cons_append, allowed_append_cons he, List.singleton_append,
          allowed_cons hc, allowed_append_cons hc]
        exact and_congr_right fun _ => ih []
  exact hprefix []

theorem isApart_nameQuote (d : Dialect) : isApart d.nameQuote = true := by cases d <;> decide

/-- Quotes around what is escaped apart from it. -/
theorem allowed_quoted {quote : Char} (hquote : isApart quote = true) {escape : Char → List Char}
    (hescape : ∀ c, escape c = [c] ∨ isApart c = true ∧ ∃ e, isApart e = true ∧ escape c = [e, c])
    (cs : List Char) : Allowed (quote :: cs.flatMap escape ++ [quote]) ↔ Allowed cs := by
  rw [List.cons_append, allowed_cons hquote, allowed_append_cons hquote,
    and_iff_left allowed_nil, allowed_flatMap hescape]

theorem alike_quoteName (name : String) : Alike (d.quoteName name) (d'.quoteName name) := by
  have hallowed (d : Dialect) : Allowed (d.quoteName name).toList ↔ Allowed name.toList := by
    rw [Dialect.quoteName, Dialect.quoteChars, String.toList_ofList]
    refine allowed_quoted (isApart_nameQuote d) (fun c => ?_) _
    rw [Dialect.escapeInName.eq_def]
    split
    · rename_i hc
      obtain rfl := beq_iff_eq.1 hc
      refine .inr ⟨isApart_nameQuote d, ?_⟩
      cases d
      · exact ⟨'\\', by decide, rfl⟩
      · exact ⟨'"', by decide, rfl⟩
    · exact .inl rfl
  refine ⟨(hallowed d).trans (hallowed d').symm, ?_⟩
  simp only [Dialect.quoteName, Dialect.quoteChars, String.toList_ofList, List.cons_append,
    List.head?_cons]
  cases d <;> cases d' <;> decide

theorem alike_quoteText (s : String) : Alike (d.quoteText s) (d'.quoteText s) := by
  have hallowed (d : Dialect) : Allowed (d.quoteText s).toList ↔ Allowed s.toList := by
    rw [Dialect.quoteText, String.toList_ofList]
    refine allowed_quoted (by decide) (fun c => ?_) _
    cases d with
    | bigQuery =>
      by_cases hc : c = '\\' ∨ c = '\''
      · refine .inr ⟨?_, '\\', by decide, by simp [Dialect.escapeInText, hc]⟩
        rcases hc with rfl | rfl <;> decide
      · exact .inl (by simp [Dialect.escapeInText, hc])
    | duckDb =>
      by_cases hc : c = '\''
      · subst hc
        exact .inr ⟨by decide, '\'', by decide, rfl⟩
      · exact .inl (by simp [Dialect.escapeInText, hc])
  refine ⟨(hallowed d).trans (hallowed d').symm, ?_⟩
  simp [Dialect.quoteText]

mutual

theorem alike_literal : (v : Json) → Alike (d.literal v) (d'.literal v)
  | .text s => alike_quoteText s
  | .object _ => alike_quoteText _
  | .list items => .intercalate (alike_literals items)
  | .null | .bool _ | .integer _ | .float _ => .refl _

theorem alike_literals : (vs : List Json) →
    List.Forall₂ Alike (d.literals vs) (d'.literals vs)
  | [] => .nil
  | v :: vs => .cons (alike_literal v) (alike_literals vs)

end

/-! ## Calls -/

theorem allowed_spelling (f : Function) : Allowed (d.spelling f ++ "(").toList := by
  cases d <;> cases f <;> decide +kernel

/-- A call is allowed where its arguments are, unless it cannot be spelled. -/
theorem allowed_call {f : Function} {texts : List String} :
    Allowed (d.call f texts).toList ↔
      (Dialect.canCall f texts.length = true → ∀ s ∈ texts, Allowed s.toList) := by
  unfold Dialect.call
  split
  · rename_i hcan
    refine iff_of_true (by decide +kernel) fun h => ?_
    simp [h] at hcan
  rename_i hcan
  have hcan : Dialect.canCall f texts.length = true := by simpa using hcan
  rw [forall_prop_of_true hcan]
  split
  · rw [allowed_between (by decide) (by decide) (by decide) (by decide),
      and_iff_right (by decide +kernel), and_comm]
    simp
  · rw [allowed_between (by decide) (by decide) (by decide) (by decide),
      and_iff_right (by decide +kernel)]
    simp
  · rw [allowed_between (by decide) (by decide) (by decide) (by decide),
      and_iff_right (by decide +kernel)]
    simp
  · have htype : Allowed " AS ".toList ∧ Allowed (d.textType ++ ")").toList := by
      cases d <;> decide +kernel
    rw [String.append_assoc, allowed_append (.inl (.append (by decide) _)),
      allowed_enclosed (by decide) (by decide), and_iff_left htype.2, and_iff_left htype.1,
      and_iff_right (by decide +kernel)]
    simp
  · rw [allowed_enclosed (.append (by decide) _) (by decide), and_iff_right (allowed_spelling f),
      and_iff_left (by decide), allowed_intercalate]

theorem isNameChar_spelling (f : Function) :
    ∀ c ∈ (d.spelling f).toList, Text.isNameChar c = true := by
  have hall : (d.spelling f).toList.all Text.isNameChar = true := by
    cases d <;> cases f <;> decide +kernel
  exact List.all_eq_true.1 hall

theorem minus_call {f : Function} {texts : List String} :
    (d.call f texts).toList.head? ≠ some '-' := by
  unfold Dialect.call
  split
  · decide
  split
  · simp
  · simp
  · simp
  · simp
  · intro hminus
    rw [minus_framed (.append (by decide) _), String.toList_append, List.head?_append] at hminus
    rcases Option.or_eq_some_iff.1 hminus with hminus | ⟨-, hminus⟩
    · exact absurd (isNameChar_spelling f _ (List.mem_of_mem_head? hminus)) (by decide)
    · cases hminus

/-! ## Expressions -/

theorem alike_call {f : Function} {texts texts' : List String}
    (h : List.Forall₂ Alike texts texts') : Alike (d.call f texts) (d'.call f texts') where
  allowed := by
    have hargs : (∀ s ∈ texts, Allowed s.toList) ↔ ∀ s ∈ texts', Allowed s.toList := by
      induction h with
      | nil => simp
      | cons hs _ ih => rw [List.forall_mem_cons, List.forall_mem_cons, hs.allowed, ih]
    rw [allowed_call, allowed_call, h.length_eq, hargs]
  minus := iff_of_false minus_call minus_call

theorem alike_aggregate (h : Alike s t) (a : Aggregation) :
    Alike (Dialect.aggregate a s) (Dialect.aggregate a t) := by
  cases a <;> exact h.enclose (by decide) (by decide)

theorem alike_countIf (h : Alike s t) : Alike (d.countIf s) (d'.countIf t) where
  allowed := by
    have hallowed (d : Dialect) (s : String) :
        Allowed (d.countIf s).toList ↔ Allowed s.toList := by
      cases d <;> exact allowed_framed (by decide) (by decide) (by decide +kernel)
    rw [hallowed, hallowed, h.allowed]
  minus := by
    have hminus (d : Dialect) (s : String) : (d.countIf s).toList.head? ≠ some '-' := by
      cases d <;> exact (minus_framed (by decide)).not.2 (by decide)
    exact iff_of_false (hminus d s) (hminus d' t)

theorem startsApart_renderBranches (branches : List (Expr × Expr)) :
    StartsApart (Expr.renderBranches d branches) := by
  cases branches <;> simp [StartsApart, Expr.renderBranches]
  decide

mutual

/-- The texts of an expression are allowed in the same places. -/
theorem alike_render : (e : Expr) → Alike (e.render d) (e.render d')
  | .column none name => alike_quoteName name
  | .column (some table) name =>
    ((alike_quoteName table).append_right (by decide)).append (alike_quoteName name)
      (.inl (.append (by decide) _)) (.inl (.append (by decide) _))
  | .literal value => alike_literal value
  | .date _ | .wildcard | .raw _ => .refl _
  | .call f arguments => alike_call (alike_renderList arguments)
  | .cases branches otherwise => by
    have hcases := (Alike.refl "CASE").append (alike_renderBranches branches)
      (.inr (startsApart_renderBranches branches)) (.inr (startsApart_renderBranches branches))
    have helse := (hcases.append_right (q := " ELSE ") (by decide)).append (alike_render otherwise)
      (.inl (.append (by decide) _)) (.inl (.append (by decide) _))
    exact helse.append_right (by decide)
  | .binary op left right => by
    have hleft := (alike_render left).append_right (q := " ") (by decide)
    have hsymbol := (hleft.append (.refl op.symbol) (.inl (.append (by decide) _))
      (.inl (.append (by decide) _))).append_right (q := " ") (by decide)
    exact hsymbol.append ((alike_render right).parenthesizedIf right.isNegation)
      (.inl (.append (by decide) _)) (.inl (.append (by decide) _))
  | .negate operand => ((alike_render operand).parenthesizedIf operand.isNegation).minus_left
  | .nested inner => (alike_render inner).enclose (by decide) (by decide)
  | .aggregate a input => alike_aggregate (alike_render input) a
  | .countIf condition => alike_countIf (alike_render condition)
  | .inList value list negated => by
    have hin : StartsApart (if negated then " NOT IN (" else " IN (") ∧
        EndsApart (if negated then " NOT IN (" else " IN (") := by
      cases negated <;> decide
    exact (((alike_render value).append_right hin.1).append (.intercalate (alike_renderList list))
      (.inl (hin.2.append _)) (.inl (hin.2.append _))).append_right (by decide)

theorem alike_renderList : (es : List Expr) →
    List.Forall₂ Alike (Expr.renderList d es) (Expr.renderList d' es)
  | [] => .nil
  | e :: es => .cons (alike_render e) (alike_renderList es)

theorem alike_renderBranches : (branches : List (Expr × Expr)) →
    Alike (Expr.renderBranches d branches) (Expr.renderBranches d' branches)
  | [] => .refl _
  | (w, t) :: rest => by
    have hwhen := ((alike_render w).append_left (p := " WHEN ") (by decide)).append_right
      (q := " THEN ") (by decide)
    exact (hwhen.append (alike_render t) (.inl (.append (by decide) _))
      (.inl (.append (by decide) _))).append (alike_renderBranches rest)
      (.inr (startsApart_renderBranches rest)) (.inr (startsApart_renderBranches rest))

end

/-! ## Parentheses -/

namespace Guard

/-- The guard comes out of the text as it went in, outside of quotes. -/
def Level (s : String) : Prop :=
  ∀ depth rest, depth? depth false (s.toList ++ rest) = depth? depth false rest

/-- Neither a quote nor a parenthesis. -/
def isInert (c : Char) : Bool := !(['\'', '(', ')'].contains c)

theorem Level.balances (h : Level s) : Balances s := by
  have hend := h 0 []
  rwa [List.append_nil] at hend

theorem Level.append (h : Level s) (h' : Level t) : Level (s ++ t) := fun depth rest => by
  rw [String.toList_append, List.append_assoc, h, h']

theorem depth?_of_isInert {depth : Nat} {quoted : Bool} (h : ∀ c ∈ cs, isInert c = true)
    (rest : List Char) : depth? depth quoted (cs ++ rest) = depth? depth quoted rest := by
  induction cs with
  | nil => rfl
  | cons c cs ih =>
    rw [List.forall_mem_cons] at h
    obtain ⟨hquote, hopen, hclose⟩ : c ≠ '\'' ∧ c ≠ '(' ∧ c ≠ ')' := by simpa [isInert] using h.1
    cases quoted <;> simp [depth?, hquote, hopen, hclose, ih h.2]

theorem level_of_isInert (h : ∀ c ∈ s.toList, isInert c = true) : Level s :=
  fun _ rest => depth?_of_isInert h rest

/-- What opens a parenthesis and closes it again. -/
theorem Level.enclose (h : Level s)
    (hp : ∀ depth rest, depth? depth false (p.toList ++ rest) = depth? (depth + 1) false rest)
    (hq : ∀ depth rest, depth? (depth + 1) false (q.toList ++ rest) = depth? depth false rest) :
    Level (p ++ s ++ q) := fun depth rest => by
  rw [String.toList_append, String.toList_append, List.append_assoc, List.append_assoc, hp, h, hq]

/-- Two texts between the same parentheses. -/
theorem Level.between {m : String} (h : Level s) (h' : Level t)
    (hp : ∀ depth rest, depth? depth false (p.toList ++ rest) = depth? (depth + 1) false rest)
    (hm : ∀ depth rest, depth? (depth + 1) false (m.toList ++ rest) = depth? (depth + 1) false rest)
    (hq : ∀ depth rest, depth? (depth + 1) false (q.toList ++ rest) = depth? depth false rest) :
    Level (p ++ s ++ m ++ t ++ q) := fun depth rest => by
  simp only [String.toList_append, List.append_assoc]
  rw [hp, h, hm, h', hq]

theorem Level.intercalate {texts : List String} (h : ∀ s ∈ texts, Level s) :
    Level (", ".intercalate texts) := by
  induction texts with
  | nil => exact fun _ _ => rfl
  | cons s rest ih =>
    rw [List.forall_mem_cons] at h
    cases rest with
    | nil => simpa using h.1
    | cons s' rest =>
      rw [String.intercalate_cons_cons]
      exact (h.1.append fun _ _ => rfl).append (ih h.2)

theorem Level.parenthesizedIf (h : Level s) (needed : Bool) :
    Level (Expr.parenthesizedIf needed s) := by
  cases needed with
  | false => exact h
  | true => exact h.enclose (fun _ _ => rfl) fun _ _ => rfl

end Guard

theorem isInert_nameQuote (d : Dialect) : isInert d.nameQuote = true := by cases d <;> decide

theorem isInert_of_mem_quoteName {name : String} (h : ∀ c ∈ name.toList, isInert c = true) :
    ∀ c ∈ (d.quoteName name).toList, isInert c = true := by
  intro c hc
  simp only [Dialect.quoteName, Dialect.quoteChars, String.toList_ofList, List.cons_append,
    List.mem_cons, List.mem_append, List.mem_flatMap, List.not_mem_nil, or_false] at hc
  have hquote := isInert_nameQuote d
  rcases hc with rfl | ⟨e, he, hc⟩ | rfl
  · exact hquote
  · rw [Dialect.escapeInName.eq_def] at hc
    have he := h e he
    cases d with
    | bigQuery =>
      have hslash : isInert '\\' = true := by decide
      split at hc <;> simp at hc <;> grind
    | duckDb => split at hc <;> simp at hc <;> grind
  · exact hquote

theorem level_quoteName {name : String} (h : ∀ c ∈ name.toList, isInert c = true) :
    Level (d.quoteName name) :=
  level_of_isInert (isInert_of_mem_quoteName h)

/-- A quote inside a literal is written as two in one dialect, of which the guard takes
the first for the end and the second for a beginning. In the other one it is written
behind a backslash, and the guard takes it for the end. -/
theorem level_quoteText {value : String} (h : d = .duckDb ∨ '\'' ∉ value.toList) :
    Level (d.quoteText value) := by
  have hinside (cs : List Char) (hcs : d = .duckDb ∨ '\'' ∉ cs) (depth : Nat) (rest : List Char) :
      depth? depth true (cs.flatMap d.escapeInText ++ rest) = depth? depth true rest := by
    induction cs with
    | nil => rfl
    | cons c cs ih =>
      have hrest := ih (hcs.imp_right fun hnone hmem => hnone (List.mem_cons_of_mem _ hmem))
      rw [List.flatMap_cons, List.append_assoc]
      by_cases hc : c = '\''
      · subst hc
        obtain rfl : d = .duckDb := hcs.resolve_right fun hnone => hnone List.mem_cons_self
        simp [Dialect.escapeInText, depth?, hrest]
      · cases d <;> by_cases hslash : c = '\\' <;>
          simp [Dialect.escapeInText, depth?, hc, hslash, hrest]
  intro depth rest
  have htoggle (quoted : Bool) (cs : List Char) :
      depth? depth quoted ('\'' :: cs) = depth? depth (!quoted) cs := by
    simp [depth?]
  rw [Dialect.quoteText, String.toList_ofList, List.cons_append, List.cons_append, List.append_assoc,
    List.singleton_append, htoggle, Bool.not_false, hinside _ h, htoggle, Bool.not_true]

theorem isInert_of_isNameChar {c : Char} (h : Text.isNameChar c = true) : isInert c = true := by
  rw [isInert, Bool.not_eq_true', ← Bool.not_eq_true, List.contains_iff_mem]
  intro hc
  simp only [List.mem_cons, List.not_mem_nil, or_false] at hc
  rcases hc with rfl | rfl | rfl <;> exact absurd h (by decide)

theorem level_call {f : Function} {texts : List String} (h : ∀ s ∈ texts, Level s) :
    Level (d.call f texts) := by
  unfold Dialect.call
  split
  · exact fun _ _ => rfl
  split
  · simp only [List.forall_mem_cons] at h
    exact h.2.1.between h.1 (fun _ _ => rfl) (fun _ _ => rfl) fun _ _ => rfl
  · simp only [List.forall_mem_cons] at h
    exact h.1.between h.2.1 (fun _ _ => rfl) (fun _ _ => rfl) fun _ _ => rfl
  · simp only [List.forall_mem_cons] at h
    exact h.1.between h.2.1 (fun _ _ => rfl) (fun _ _ => rfl) fun _ _ => rfl
  · have htype : Level d.textType := by cases d <;> exact fun _ _ => rfl
    rw [List.forall_mem_singleton] at h
    exact h.between htype (fun _ _ => rfl) (fun _ _ => rfl) fun _ _ => rfl
  · have hspelling : ∀ c ∈ (d.spelling f).toList, isInert c = true := fun c hc =>
      isInert_of_isNameChar (isNameChar_spelling f c hc)
    refine (Level.intercalate h).enclose (fun depth rest => ?_) fun _ _ => rfl
    rw [String.toList_append, List.append_assoc, depth?_of_isInert hspelling]
    rfl

theorem level_aggregate (h : Level s) (a : Aggregation) : Level (Dialect.aggregate a s) := by
  cases a <;> exact h.enclose (fun _ _ => rfl) fun _ _ => rfl

end MetricLayer.Sql
