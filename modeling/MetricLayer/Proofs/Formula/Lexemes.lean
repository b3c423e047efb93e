import Mathlib.Data.List.TakeWhile
import MetricLayer.Formula.Reader
import MetricLayer.Proofs.Outcome

/-!
# How tokens are spelled

Each token has its characters (`Token.lexeme`), and a text spells tokens if it is their
characters in order, with white space anywhere between them (`Spells`). What a text is
split into is spelled by the text, its references and identifiers are names, and its
numbers are numbers (`spells_of_tokensFrom`).
-/

namespace MetricLayer

/-- The character of an operator. -/
def ArithOp.sign : ArithOp → Char
  | .add => '+'
  | .subtract => '-'
  | .multiply => '*'
  | .divide => '/'
  | .modulo => '%'

theorem ArithOp.ofChar?_eq_some_iff {c : Char} {op : ArithOp} :
    ofChar? c = some op ↔ c = op.sign := by
  constructor
  · intro h
    unfold ofChar? at h
    split at h <;> cases h <;> rfl
  · rintro rfl
    cases op <;> rfl

/-! ## Characters -/

theorem toNat_of_between {low high : UInt32} {c : Char} (h : low ≤ c.val ∧ c.val ≤ high) :
    low.toNat ≤ c.toNat ∧ c.toNat ≤ high.toNat :=
  h.imp UInt32.le_iff_toNat_le.1 UInt32.le_iff_toNat_le.1

theorem toNat_of_isAlpha {c : Char} (h : c.isAlpha = true) :
    65 ≤ c.toNat ∧ c.toNat ≤ 90 ∨ 97 ≤ c.toNat ∧ c.toNat ≤ 122 := by
  rcases Bool.or_eq_true_iff.1 h with h | h
  · exact .inl (toNat_of_between (of_decide_eq_true h))
  · have hlower := Bool.and_eq_true_iff.1 h
    exact .inr (toNat_of_between (hlower.imp of_decide_eq_true of_decide_eq_true))

theorem toNat_of_isDigit {c : Char} (h : c.isDigit = true) : 48 ≤ c.toNat ∧ c.toNat ≤ 57 :=
  toNat_of_between ((Bool.and_eq_true_iff.1 h).imp of_decide_eq_true of_decide_eq_true)

theorem isBlank_of_isNameChar {c : Char} (h : Text.isNameChar c = true) :
    Text.isBlank c = false := by
  have hrange : (65 ≤ c.toNat ∧ c.toNat ≤ 90 ∨ 97 ≤ c.toNat ∧ c.toNat ≤ 122) ∨
      (48 ≤ c.toNat ∧ c.toNat ≤ 57) ∨ c.toNat = 95 := by
    simp only [Text.isNameChar, Char.isAlphanum, Bool.or_eq_true, beq_iff_eq, or_assoc] at h
    rcases h with h | h | rfl
    · exact .inl (toNat_of_isAlpha h)
    · exact .inr (.inl (toNat_of_isDigit h))
    · exact .inr (.inr rfl)
  refine Bool.eq_false_iff.2 fun hblank => ?_
  simp only [Text.isBlank, Bool.or_eq_true, Bool.and_eq_true, decide_eq_true_eq, beq_iff_eq]
    at hblank
  omega

theorem exists_cons_of_isName {name : String} (h : isName name = true) :
    ∃ c cs, name.toList = c :: cs ∧ (c.isAlpha || c == '_') = true ∧
      cs.all Text.isNameChar = true := by
  rw [isName] at h
  split at h
  · cases h
  · rename_i c cs hcs
    exact ⟨c, cs, hcs, Bool.and_eq_true_iff.1 h⟩

theorem isNameChar_of_isAlpha {c : Char} (h : (c.isAlpha || c == '_') = true) :
    Text.isNameChar c = true := by
  rcases Bool.or_eq_true_iff.1 h with h | h
  · simp [Text.isNameChar, Char.isAlphanum, h]
  · simp [Text.isNameChar, h]

theorem isNameChar_of_isName {name : String} (h : isName name = true) :
    ∀ c ∈ name.toList, Text.isNameChar c = true := by
  obtain ⟨c, cs, hcs, hc, hall⟩ := exists_cons_of_isName h
  rw [hcs, List.forall_mem_cons]
  exact ⟨isNameChar_of_isAlpha hc, List.all_eq_true.1 hall⟩

theorem isBlankText_of_isName {name : String} (h : isName name = true) :
    Text.isBlankText name = false := by
  obtain ⟨c, cs, hcs, hc, -⟩ := exists_cons_of_isName h
  simp [Text.isBlankText, hcs, isBlank_of_isNameChar (isNameChar_of_isAlpha hc)]

/-- The first character of a name is not that of a number. -/
theorem isDigit_or_point_eq_false {c : Char} (h : (c.isAlpha || c == '_') = true) :
    (c.isDigit || c == '.') = false := by
  have hstart : 65 ≤ c.toNat := by
    rw [Bool.or_eq_true, beq_iff_eq] at h
    rcases h with h | rfl
    · exact (toNat_of_isAlpha h).elim And.left fun h => Nat.le_trans (by decide) h.1
    · decide
  refine Bool.eq_false_iff.2 fun hdigit => ?_
  rw [Bool.or_eq_true, beq_iff_eq] at hdigit
  rcases hdigit with hdigit | rfl
  · exact absurd (Nat.le_trans hstart (toNat_of_isDigit hdigit).2) (by decide)
  · exact absurd hstart (by decide)

theorem takeWhile_append_of_ends {p : Char → Bool} {cs rest : List Char} (h : cs.all p = true)
    (hrest : rest.head?.any p = false) : (cs ++ rest).takeWhile p = cs := by
  have hend : rest.takeWhile p = [] := by
    cases rest with
    | nil => rfl
    | cons d rest => exact List.takeWhile_cons_of_neg (by simpa using hrest)
  rw [List.takeWhile_append_of_pos (by simpa using h), hend, List.append_nil]

namespace Formula

/-! ## Numbers -/

theorem leadingNumber_prefix (pointSeen : Bool) (cs : List Char) :
    leadingNumber pointSeen cs <+: cs := by
  induction cs generalizing pointSeen with
  | nil => exact List.prefix_refl _
  | cons c cs ih =>
    rw [leadingNumber]
    split
    · exact List.cons_prefix_cons.2 ⟨rfl, ih _⟩
    · split
      · exact List.cons_prefix_cons.2 ⟨rfl, ih _⟩
      · exact List.nil_prefix

theorem isDigit_or_point_of_mem_leadingNumber {pointSeen : Bool} {c : Char} {cs : List Char}
    (h : c ∈ leadingNumber pointSeen cs) : c.isDigit = true ∨ c = '.' := by
  induction cs generalizing pointSeen with
  | nil => simp [leadingNumber] at h
  | cons d cs ih =>
    rw [leadingNumber] at h
    split at h
    · rename_i hd
      rcases List.mem_cons.1 h with rfl | h
      · exact .inl hd
      · exact ih h
    · split at h
      · rename_i hd
        rcases List.mem_cons.1 h with rfl | h
        · exact .inr (by simpa using (Bool.and_eq_true_iff.1 hd).1)
        · exact ih h
      · simp at h

theorem leadingNumber_ne_nil {c : Char} (hc : (c.isDigit || c == '.') = true) (cs : List Char) :
    leadingNumber false (c :: cs) ≠ [] := by
  rw [leadingNumber]
  split
  · exact List.cons_ne_nil _ _
  · simp_all

theorem leadingNumber_idem (pointSeen : Bool) (cs : List Char) :
    leadingNumber pointSeen (leadingNumber pointSeen cs) = leadingNumber pointSeen cs := by
  induction cs generalizing pointSeen with
  | nil => rfl
  | cons c cs ih =>
    by_cases hdigit : c.isDigit = true
    · simp [leadingNumber, hdigit, ih]
    · by_cases hpoint : (c == '.' && !pointSeen) = true
      · simp only [leadingNumber, if_neg hdigit, if_pos hpoint, ih]
      · simp only [leadingNumber, if_neg hdigit, if_neg hpoint]

theorem leadingNumber_append {pointSeen : Bool} {digits rest : List Char}
    (h : leadingNumber pointSeen digits = digits)
    (hrest : rest.head?.any (fun c => c.isDigit || c == '.') = false) :
    leadingNumber pointSeen (digits ++ rest) = digits := by
  induction digits generalizing pointSeen with
  | nil =>
    cases rest with
    | nil => rfl
    | cons c rest =>
      have hc : c.isDigit = false ∧ (c == '.') = false := by simpa using hrest
      simp [leadingNumber, hc]
  | cons c digits ih =>
    rw [leadingNumber] at h
    rw [List.cons_append, leadingNumber]
    split at h
    · rename_i hc
      rw [if_pos hc, ih (List.cons.inj h).2]
    · rename_i hc
      split at h
      · rename_i hpoint
        rw [if_neg hc, if_pos hpoint, ih (List.cons.inj h).2]
      · cases h

/-- A text of digits and points only. -/
def IsNumeral (s : String) : Prop := ∀ c ∈ s.toList, c.isDigit = true ∨ c = '.'

/-- Digits with at most one point among them. -/
def IsNumber (s : String) : Prop :=
  leadingNumber false s.toList = s.toList ∧ s.toList ≠ [] ∧ s.toList ≠ ['.']

instance (s : String) : Decidable (IsNumber s) := inferInstanceAs (Decidable (_ ∧ _ ∧ _))

/-- The leading number of a text that starts like one is a number, unless it is a single
point. -/
theorem isNumber_leadingNumber {c : Char} (hc : (c.isDigit || c == '.') = true) {cs : List Char}
    (hpoint : leadingNumber false (c :: cs) ≠ ['.']) :
    IsNumber (String.ofList (leadingNumber false (c :: cs))) := by
  rw [IsNumber, String.toList_ofList]
  exact ⟨leadingNumber_idem _ _, leadingNumber_ne_nil hc cs, hpoint⟩

theorem IsNumber.isNumeral {s : String} (h : IsNumber s) : IsNumeral s := by
  intro c hc
  rw [← h.1] at hc
  exact isDigit_or_point_of_mem_leadingNumber hc

theorem IsNumber.exists_cons {s : String} (h : IsNumber s) :
    ∃ c cs, s.toList = c :: cs ∧ (c.isDigit || c == '.') = true := by
  obtain ⟨c, cs, hcs⟩ := List.exists_cons_of_ne_nil h.2.1
  refine ⟨c, cs, hcs, ?_⟩
  have hleading := h.1
  rw [hcs, leadingNumber] at hleading
  split at hleading
  · simp [*]
  · split at hleading <;> simp_all

/-! ## Lexemes -/

/-- A text with each quote in it written twice. -/
def doubled (inner : List Char) : List Char :=
  inner.flatMap fun c => if c = '\'' then ['\'', '\''] else [c]

@[simp] theorem doubled_nil : doubled [] = [] := rfl

@[simp] theorem doubled_quote (inner : List Char) :
    doubled ('\'' :: inner) = '\'' :: '\'' :: doubled inner := rfl

theorem doubled_cons_of_ne {c : Char} (hc : c ≠ '\'') (inner : List Char) :
    doubled (c :: inner) = c :: doubled inner := by
  rw [doubled, List.flatMap_cons, if_neg hc]
  rfl

/-- The characters of a token. -/
def Token.lexeme : Token → List Char
  | .reference name => '{' :: name.toList ++ ['}']
  | .number digits => digits.toList
  | .literal value => '\'' :: doubled value.toList ++ ['\'']
  | .ident value => value.toList
  | .opening => ['(']
  | .closing => [')']
  | .comma => [',']
  | .op operator => [operator.sign]

/-- References and the names of functions are names, and numbers are numbers. -/
def Token.Valid : Token → Prop
  | .reference name | .ident name => isName name = true
  | .number digits => IsNumber digits
  | .literal _ | .opening | .closing | .comma | .op _ => True

instance : DecidablePred Token.Valid
  | .reference name | .ident name => inferInstanceAs (Decidable (isName name = true))
  | .number digits => inferInstanceAs (Decidable (IsNumber digits))
  | .literal _ | .opening | .closing | .comma | .op _ => .isTrue trivial

/-- The characters are those of the tokens, with white space around them. -/
inductive Spells : List Token → List Char → Prop where
  | nil : Spells [] []
  | blank {ts : List Token} {c : Char} {cs : List Char} (blank : Text.isBlank c = true)
      (rest : Spells ts cs) : Spells ts (c :: cs)
  | token (t : Token) {ts : List Token} {cs : List Char} (rest : Spells ts cs) :
      Spells (t :: ts) (t.lexeme ++ cs)

theorem spells_lexemes (ts : List Token) : Spells ts (ts.flatMap Token.lexeme) := by
  induction ts with
  | nil => exact .nil
  | cons t ts ih => exact .token t ih

/-! ## What a text is split into -/

section

variable {position : Nat} {c : Char} {cs : List Char} {t : Token} {length : Nat}

theorem doubled_of_quotedText? {inner : List Char} (h : quotedText? cs = some (inner, length)) :
    cs = doubled inner ++ '\'' :: cs.drop length := by
  fun_induction quotedText? cs generalizing inner length with
  | case1 => cases h
  | case2 cs ih =>
    obtain ⟨⟨inner', length'⟩, hinner, heq⟩ := Option.map_eq_some_iff.1 h
    obtain ⟨rfl, rfl⟩ := Prod.mk.inj heq
    rw [doubled_quote, List.cons_append, List.cons_append, List.drop_succ_cons,
      List.drop_succ_cons, ← ih hinner]
  | case3 cs =>
    obtain ⟨rfl, rfl⟩ := Prod.mk.inj (Option.some.inj h)
    rfl
  | case4 c cs _ hne ih =>
    obtain ⟨⟨inner', length'⟩, hinner, heq⟩ := Option.map_eq_some_iff.1 h
    obtain ⟨rfl, rfl⟩ := Prod.mk.inj heq
    rw [doubled_cons_of_ne fun hc => hne hc, List.cons_append, List.drop_succ_cons, ← ih hinner]

theorem drop_takeWhile (p : Char → Bool) (cs : List Char) :
    cs.takeWhile p ++ cs.drop (cs.takeWhile p).length = cs :=
  List.prefix_iff_eq_append.1 (List.takeWhile_prefix _)

/-- A reference that is closed has the characters up to its closing brace. -/
theorem lexeme_reference {p : Char → Bool} (hclose : (cs.drop (cs.takeWhile p).length).head? =
    some '}') :
    '{' :: cs = (Token.reference (String.ofList (cs.takeWhile p))).lexeme ++
      cs.drop ((cs.takeWhile p).length + 1) := by
  have hsplit := drop_takeWhile p cs
  obtain ⟨rest, hdrop⟩ := List.head?_eq_some_iff.1 hclose
  have htail : cs.drop ((cs.takeWhile p).length + 1) = rest := by
    rw [← List.drop_drop, hdrop, List.drop_one, List.tail_cons]
  rw [htail]
  rw [hdrop] at hsplit
  simp [Token.lexeme, hsplit]

/-- A number has the characters of the leading number, of which the first has been read. -/
theorem lexeme_number (hc : (c.isDigit || c == '.') = true) :
    c :: cs = (Token.number (String.ofList (leadingNumber false (c :: cs)))).lexeme ++
      cs.drop ((leadingNumber false (c :: cs)).length - 1) := by
  have hleading := leadingNumber_prefix false (c :: cs)
  have hsplit := List.prefix_iff_eq_append.1 hleading
  obtain ⟨d, digits, hdigits⟩ := List.exists_cons_of_ne_nil (leadingNumber_ne_nil hc cs)
  rw [hdigits] at hsplit ⊢
  simpa [Token.lexeme] using hsplit.symm

/-- A token that has been found has the characters that were taken for it. -/
theorem lexeme_of_tokenAt (h : tokenAt position c cs = .ok (t, length)) :
    t.Valid ∧ c :: cs = t.lexeme ++ cs.drop length := by
  rw [tokenAt] at h
  split at h
  · -- a reference
    rename_i hc
    obtain rfl := beq_iff_eq.1 hc
    dsimp only at h
    split at h <;> [cases h; skip]
    rename_i hclose
    split at h <;> [cases h; skip]
    split at h <;> [skip; cases h]
    rename_i hname
    obtain ⟨rfl, rfl⟩ := Prod.mk.inj (Except.ok.inj h)
    exact ⟨hname, lexeme_reference (by simpa using hclose)⟩
  split at h <;> [cases h; skip]
  split at h
  · -- a text
    rename_i hc
    obtain rfl := beq_iff_eq.1 hc
    split at h <;> [skip; cases h]
    rename_i inner length' hquoted
    obtain ⟨rfl, rfl⟩ := Prod.mk.inj (Except.ok.inj h)
    exact ⟨trivial, by simpa [Token.lexeme] using doubled_of_quotedText? hquoted⟩
  split at h
  · -- a number
    rename_i hc
    dsimp only at h
    split at h <;> [cases h; skip]
    rename_i hpoint
    obtain ⟨rfl, rfl⟩ := Prod.mk.inj (Except.ok.inj h)
    exact ⟨isNumber_leadingNumber hc (by simpa using hpoint), lexeme_number hc⟩
  split at h
  · -- the name of a function
    rename_i hc
    obtain ⟨rfl, rfl⟩ := Prod.mk.inj (Except.ok.inj h)
    refine ⟨?_, ?_⟩
    · simpa [Token.Valid, isName] using hc
    · simpa [Token.lexeme] using (drop_takeWhile Text.isNameChar cs).symm
  -- what is left is a token of one character
  iterate 3
    split at h
    · rename_i hc
      obtain rfl := beq_iff_eq.1 hc
      obtain ⟨rfl, rfl⟩ := Prod.mk.inj (Except.ok.inj h)
      exact ⟨trivial, rfl⟩
  split at h <;> [skip; cases h]
  rename_i op hop
  obtain rfl := ArithOp.ofChar?_eq_some_iff.1 hop
  obtain ⟨rfl, rfl⟩ := Prod.mk.inj (Except.ok.inj h)
  exact ⟨trivial, rfl⟩

theorem spells_of_tokensFrom {placed : List Placed} (h : tokensFrom position cs = .ok placed) :
    Spells (placed.map (·.token)) cs ∧ ∀ t ∈ placed, t.token.Valid := by
  fun_induction tokensFrom position cs generalizing placed with
  | case1 =>
    obtain rfl := Except.ok.inj h
    exact ⟨.nil, List.forall_mem_nil _⟩
  | case2 position c cs hblank ih => exact (ih h).imp_left (.blank hblank)
  | case3 position c cs hblank ih =>
    simp only [bind, Except.bind_eq_ok] at h
    obtain ⟨⟨token, length⟩, htoken, rest, hrest, h⟩ := h
    obtain rfl := Except.ok.inj h
    obtain ⟨hvalid, hlexeme⟩ := lexeme_of_tokenAt htoken
    obtain ⟨hspells, hall⟩ := ih _ hrest
    rw [hlexeme]
    exact ⟨.token token hspells, List.forall_mem_cons.2 ⟨hvalid, hall⟩⟩

end

end Formula

end MetricLayer
