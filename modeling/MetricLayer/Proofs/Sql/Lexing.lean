import MetricLayer.Proofs.Formula.References
import MetricLayer.Sql.Render

/-!
# Tokens of an expression

The words of an SQL expression as a warehouse that quotes names by backticks
splits them (`lex`): a quoted name or a text is one token, in which a backslash
stands for the character after it; white space separates tokens; and a comment
is none. `Lexes s ts rest` says that the text `s` is the tokens `ts` if `rest`
comes after it; the lemmas give the tokens of the pieces that expressions are
written in.
-/

namespace MetricLayer.Sql

inductive Token where
  | name (name : String)
  | text (value : String)
  | number (digits : String)
  /-- A word outside quotes, in upper case. -/
  | word (word : String)
  | opening
  | closing
  | comma
  | op (op : BinaryOp)
  deriving DecidableEq, Repr

def BinaryOp.ofChar? : Char → Option BinaryOp
  | '+' => some .add
  | '-' => some .subtract
  | '*' => some .multiply
  | '/' => some .divide
  | '%' => some .modulo
  | _ => none

/-- What stands before the closing quote, each backslash gone that has another
character after it, and the number of characters up to and with that quote. -/
def quoted? (quote : Char) : List Char → Option (List Char × Nat)
  | [] => none
  | '\\' :: c :: cs => (quoted? quote cs).map fun (inner, length) => (c :: inner, length + 2)
  | c :: cs =>
    if c == quote then some ([], 1)
    else (quoted? quote cs).map fun (inner, length) => (c :: inner, length + 1)

/-- Whether `c` would go on with a number or a word before it. -/
def goesOn (c : Char) : Bool := Text.isNameChar c || c == '.'

/-- The token that starts with `c`, with the number of characters after `c` that
belong to it. -/
def tokenAt? (c : Char) (cs : List Char) : Option (Token × Nat) :=
  if c == '\x60' then
    (quoted? c cs).map fun (inner, length) => (.name (String.ofList inner), length)
  else if c == '\'' then
    (quoted? c cs).map fun (inner, length) => (.text (String.ofList inner), length)
  else if c.isDigit || c == '.' then
    let digits := Formula.leadingNumber false (c :: cs)
    if digits == ['.'] || ((c :: cs).drop digits.length).head?.any goesOn then none
    else some (.number (String.ofList digits), digits.length - 1)
  else if c.isAlpha || c == '_' then
    let rest := cs.takeWhile Text.isNameChar
    some (.word (Text.upperAscii (String.ofList (c :: rest))), rest.length)
  else if c == '(' then some (.opening, 0)
  else if c == ')' then some (.closing, 0)
  else if c == ',' then some (.comma, 0)
  else if (c == '-' && cs.head? == some '-') || (c == '/' && cs.head? == some '*') then none
  else (BinaryOp.ofChar? c).map fun op => (.op op, 0)

/-- The tokens that come after so many characters. -/
def lexAfter : Nat → List Char → Option (List Token)
  | _, [] => some []
  | skip + 1, _ :: cs => lexAfter skip cs
  | 0, c :: cs =>
    if Text.isBlank c then lexAfter 0 cs
    else (tokenAt? c cs).bind fun (token, length) => (lexAfter length cs).map (token :: ·)

def lex (cs : List Char) : Option (List Token) := lexAfter 0 cs

/-- In front of `rest`, the text `s` is the tokens `ts`. -/
def Lexes (s : String) (ts : List Token) (rest : List Char) : Prop :=
  lex (s.toList ++ rest) = (lex rest).map (ts ++ ·)

/-- What comes next does not go on with the number or word before it. -/
def Ends (rest : List Char) : Prop := rest.head?.any goesOn = false

@[simp] theorem lex_nil : lex [] = some [] := rfl

theorem lexAfter_eq (skip : Nat) (cs : List Char) : lexAfter skip cs = lex (cs.drop skip) := by
  induction cs generalizing skip with
  | nil => simp [lexAfter]
  | cons c cs ih =>
    cases skip with
    | zero => rfl
    | succ skip => exact ih skip

theorem lex_of_blank {c : Char} {cs : List Char} (hc : Text.isBlank c = true) :
    lex (c :: cs) = lex cs :=
  if_pos hc

theorem lex_of_token {c : Char} {cs : List Char} {token : Token} {length : Nat}
    (hc : Text.isBlank c = false) (h : tokenAt? c cs = some (token, length)) :
    lex (c :: cs) = (lex (cs.drop length)).map (token :: ·) := by
  rw [lex, lexAfter, if_neg (by simp [hc]), h, ← lexAfter_eq]
  rfl

theorem Lexes.append {s s' : String} {ts ts' : List Token} {rest : List Char}
    (h : Lexes s ts (s'.toList ++ rest)) (h' : Lexes s' ts' rest) :
    Lexes (s ++ s') (ts ++ ts') rest := by
  rw [Lexes, String.toList_append, List.append_assoc, h, h', Option.map_map]
  simp [Function.comp_def]

/-! ## Quoted tokens -/

theorem quoted?_of_ne {quote c : Char} (hc : c ≠ '\\') (cs : List Char) :
    quoted? quote (c :: cs) = if c == quote then some ([], 1)
      else (quoted? quote cs).map fun (inner, length) => (c :: inner, length + 1) := by
  rw [quoted?]
  intro _ _ h _
  exact hc h

/-- Quotes around text whose characters stand for themselves or after a
backslash. -/
theorem quoted?_flatMap {quote : Char} (hquote : quote ≠ '\\') {escape : Char → List Char}
    {inner : List Char} (h : ∀ c ∈ inner, escape c = ['\\', c] ∨
      escape c = [c] ∧ c ≠ quote ∧ c ≠ '\\') (rest : List Char) :
    quoted? quote (inner.flatMap escape ++ quote :: rest) =
      some (inner, (inner.flatMap escape).length + 1) := by
  induction inner with
  | nil =>
    rw [List.flatMap_nil, List.nil_append, quoted?_of_ne hquote, if_pos (beq_self_eq_true _)]
    rfl
  | cons c inner ih =>
    have ih := ih fun d hd => h d (List.mem_cons_of_mem _ hd)
    rw [List.flatMap_cons, List.append_assoc]
    rcases h c List.mem_cons_self with hc | ⟨hc, hne, hslash⟩
    · simp [hc, quoted?, ih]
    · simp [hc, quoted?_of_ne hslash, hne, ih]

theorem lexes_of_quoted (quote : Char) (kind : String → Token) (escape : Char → List Char)
    {inner : List Char} (hquote : quote ≠ '\\') (hblank : Text.isBlank quote = false)
    (hkind : ∀ cs, tokenAt? quote cs = (quoted? quote cs).map fun (inner, length) =>
      (kind (String.ofList inner), length))
    (h : ∀ c ∈ inner, escape c = ['\\', c] ∨ escape c = [c] ∧ c ≠ quote ∧ c ≠ '\\')
    (rest : List Char) :
    Lexes (String.ofList (quote :: inner.flatMap escape ++ [quote]))
      [kind (String.ofList inner)] rest := by
  have htoken : tokenAt? quote (inner.flatMap escape ++ quote :: rest) =
      some (kind (String.ofList inner), (inner.flatMap escape).length + 1) := by
    rw [hkind, quoted?_flatMap hquote h, Option.map_some]
  have hdrop : (inner.flatMap escape ++ quote :: rest).drop ((inner.flatMap escape).length + 1) =
      rest := by
    rw [← List.drop_drop, List.drop_left, List.drop_one, List.tail_cons]
  rw [Lexes, String.toList_ofList, List.append_assoc, List.cons_append, List.singleton_append,
    lex_of_token hblank htoken, hdrop]
  rfl

/-- A quoted name without a backslash. -/
theorem lexes_name {name : String} (h : '\\' ∉ name.toList) (rest : List Char) :
    Lexes (Dialect.quoteName .bigQuery name) [.name name] rest := by
  have hlexes := lexes_of_quoted '\x60' .name (Dialect.escapeInName .bigQuery) (by decide)
    (by decide) (fun _ => rfl) (fun c (hc : c ∈ name.toList) => ?_) rest
  · rwa [String.ofList_toList] at hlexes
  · by_cases hquote : c = '\x60'
    · exact .inl (by simp [Dialect.escapeInName, Dialect.nameQuote, hquote])
    · exact .inr ⟨by simp [Dialect.escapeInName, Dialect.nameQuote, hquote], hquote,
        fun hslash => h (hslash ▸ hc)⟩

theorem lexes_text (s : String) (rest : List Char) :
    Lexes (Dialect.quoteText .bigQuery s) [.text s] rest := by
  have hlexes := lexes_of_quoted '\'' .text (Dialect.escapeInText .bigQuery) (by decide)
    (by decide) (fun _ => rfl) (fun c (_ : c ∈ s.toList) => ?_) rest
  · rwa [String.ofList_toList] at hlexes
  · by_cases hescaped : c = '\\' ∨ c = '\''
    · exact .inl (by simp [Dialect.escapeInText, hescaped])
    · rw [not_or] at hescaped
      exact .inr ⟨by simp [Dialect.escapeInText, hescaped], hescaped.2, hescaped.1⟩

/-! ## Numbers and words -/

/-- A name in upper case. -/
def IsWord (w : String) : Prop := isName w = true ∧ Text.upperAscii w = w

instance (w : String) : Decidable (IsWord w) := inferInstanceAs (Decidable (_ ∧ _))

theorem isBlank_of_goesOn {c : Char} (h : goesOn c = true) : Text.isBlank c = false := by
  rw [goesOn, Bool.or_eq_true, beq_iff_eq] at h
  rcases h with h | rfl
  · exact isBlank_of_isNameChar h
  · decide

theorem goesOn_of_isDigit {c : Char} (h : (c.isDigit || c == '.') = true) : goesOn c = true := by
  rcases Bool.or_eq_true_iff.1 h with h | h
  · simp [goesOn, Text.isNameChar, Char.isAlphanum, h]
  · simp [goesOn, h]

theorem digit_or_point_eq_false_of_ends {rest : List Char} (h : Ends rest) :
    rest.head?.any (fun c => c.isDigit || c == '.') = false := by
  cases rest with
  | nil => rfl
  | cons c rest =>
    refine Bool.eq_false_iff.2 fun hc => ?_
    simp [Ends, goesOn_of_isDigit hc] at h

theorem beq_eq_false_of_goesOn {c d : Char} (hc : goesOn c = true) (hd : goesOn d = false) :
    (c == d) = false := by
  rw [beq_eq_false_iff_ne]
  rintro rfl
  rw [hc] at hd
  cases hd

/-- A number is one token, before something that does not go on with it. -/
theorem tokenAt?_of_isNumber {digits : String} (h : Formula.IsNumber digits) {rest : List Char}
    (hrest : Ends rest) : ∃ c cs, digits.toList = c :: cs ∧ goesOn c = true ∧
      tokenAt? c (cs ++ rest) = some (.number digits, cs.length) := by
  obtain ⟨c, cs, hcs, hc⟩ := h.exists_cons
  obtain ⟨hleading, -, hpoint⟩ := h
  have hall : Formula.leadingNumber false (c :: (cs ++ rest)) = c :: cs := by
    rw [← List.cons_append, ← hcs]
    exact Formula.leadingNumber_append hleading (digit_or_point_eq_false_of_ends hrest)
  have hstart := goesOn_of_isDigit hc
  refine ⟨c, cs, hcs, hstart, ?_⟩
  have hdrop : (c :: (cs ++ rest)).drop (c :: cs).length = rest := by
    rw [← List.cons_append, List.drop_left]
  rw [tokenAt?, beq_eq_false_of_goesOn hstart (by decide), if_neg (by decide),
    beq_eq_false_of_goesOn hstart (by decide), if_neg (by decide), if_pos hc]
  simp only [hall, hdrop]
  rw [if_neg (by rw [hrest]; simpa [hcs] using hpoint), ← hcs, String.ofList_toList, hcs]
  rfl

theorem lexes_number {digits : String} (h : Formula.IsNumber digits) {rest : List Char}
    (hrest : Ends rest) : Lexes digits [.number digits] rest := by
  obtain ⟨c, cs, hcs, hstart, htoken⟩ := tokenAt?_of_isNumber h hrest
  rw [Lexes, hcs, List.cons_append, lex_of_token (isBlank_of_goesOn hstart) htoken, List.drop_left]
  rfl

/-- A name outside quotes is one token, whatever its case. -/
theorem tokenAt?_of_isName {w : String} (hname : isName w = true) {rest : List Char}
    (hrest : rest.head?.any Text.isNameChar = false) : ∃ c cs, w.toList = c :: cs ∧
      goesOn c = true ∧ tokenAt? c (cs ++ rest) = some (.word (Text.upperAscii w), cs.length) := by
  obtain ⟨c, cs, hcs, hc, hall⟩ := exists_cons_of_isName hname
  have hdigit := isDigit_or_point_eq_false hc
  have hstart : goesOn c = true := by simp [goesOn, isNameChar_of_isAlpha hc]
  have htake := takeWhile_append_of_ends hall hrest
  refine ⟨c, cs, hcs, hstart, ?_⟩
  rw [tokenAt?, beq_eq_false_of_goesOn hstart (by decide), if_neg (by decide),
    beq_eq_false_of_goesOn hstart (by decide), if_neg (by decide), if_neg (by simp [hdigit]),
    if_pos hc]
  simp only [htake]
  rw [← hcs, String.ofList_toList]

theorem lexes_word {w : String} (h : IsWord w) {rest : List Char}
    (hrest : rest.head?.any Text.isNameChar = false) : Lexes w [.word w] rest := by
  obtain ⟨hname, hupper⟩ := h
  obtain ⟨c, cs, hcs, hstart, htoken⟩ := tokenAt?_of_isName hname hrest
  rw [Lexes, hcs, List.cons_append, lex_of_token (isBlank_of_goesOn hstart) htoken, List.drop_left,
    hupper]
  rfl

/-! ## Signs -/

theorem lexes_char {s : String} {c : Char} {token : Token} {rest : List Char}
    (hs : s.toList = [c]) (hc : Text.isBlank c = false)
    (htoken : tokenAt? c rest = some (token, 0)) : Lexes s [token] rest := by
  rw [Lexes, hs, List.singleton_append, lex_of_token hc htoken]
  rfl

theorem lexes_opening (rest : List Char) : Lexes "(" [.opening] rest :=
  lexes_char rfl (by decide) rfl

theorem lexes_closing (rest : List Char) : Lexes ")" [.closing] rest :=
  lexes_char rfl (by decide) rfl

theorem lexes_blank (rest : List Char) : Lexes " " [] rest := by
  rw [Lexes, show " ".toList = [' '] from rfl, List.singleton_append, lex_of_blank (by decide)]
  simp

theorem lexes_comma (rest : List Char) : Lexes ", " [.comma] rest :=
  Lexes.append (s := ",") (lexes_char rfl (by decide) rfl) (lexes_blank rest)

theorem lexes_minus {rest : List Char} (hrest : rest.head? ≠ some '-') :
    Lexes "-" [.op .subtract] rest := by
  refine lexes_char (c := '-') rfl (by decide) ?_
  simp [tokenAt?, BinaryOp.ofChar?, hrest]

theorem lexes_symbol {op : BinaryOp} (hand : op ≠ .and) (heq : op ≠ .eq) (rest : List Char) :
    Lexes op.symbol [.op op] (' ' :: rest) := by
  cases op with
  | and => exact absurd rfl hand
  | eq => exact absurd rfl heq
  | add | subtract | multiply | divide | modulo => exact lexes_char rfl (by decide) rfl

end MetricLayer.Sql
