import MetricLayer.Proofs.Sql.Written

/-!
# Reading the other dialect

`readDuckDb` reads an expression by the grammar of `Sql.read`, from the tokens of a
warehouse that quotes names by double quotes, in which a quote stands for itself
where it is doubled. `Spells s t` says that `s` has the tokens there that `t` has
where names stand in backticks, so `ReadsInDuckDb s e n` follows from `Reads t e n`;
the lemmas give the texts that expressions are written in. A quotient is written
without parentheses around it (`ReadsInDuckDb.divide`).
-/

namespace MetricLayer.Sql

/-! ## Tokens -/

/-- What stands before the closing quote, two quotes being one, and the number of
characters up to and with that quote. -/
def doubled? (quote : Char) : List Char → Option (List Char × Nat)
  | [] => none
  | [c] => if c == quote then some ([], 1) else none
  | c :: d :: cs =>
    if c == quote then
      if d == quote then (doubled? quote cs).map fun (inner, length) => (quote :: inner, length + 2)
      else some ([], 1)
    else (doubled? quote (d :: cs)).map fun (inner, length) => (c :: inner, length + 1)

/-- The type of texts has two names. -/
def Token.canonical : Token → Token
  | .word "VARCHAR" => .word "STRING"
  | token => token

def tokenInDuckDb? (c : Char) (cs : List Char) : Option (Token × Nat) :=
  if c == '"' then
    (doubled? c cs).map fun (inner, length) => (.name (String.ofList inner), length)
  else if c == '\'' then
    (doubled? c cs).map fun (inner, length) => (.text (String.ofList inner), length)
  else if c == '\x60' then none
  else (tokenAt? c cs).map fun (token, length) => (token.canonical, length)

/-- The tokens that come after so many characters. -/
def lexInDuckDbAfter : Nat → List Char → Option (List Token)
  | _, [] => some []
  | skip + 1, _ :: cs => lexInDuckDbAfter skip cs
  | 0, c :: cs =>
    if Text.isBlank c then lexInDuckDbAfter 0 cs
    else (tokenInDuckDb? c cs).bind fun (token, length) =>
      (lexInDuckDbAfter length cs).map (token :: ·)

def lexInDuckDb (cs : List Char) : Option (List Token) := lexInDuckDbAfter 0 cs

/-- The expression that a text is. -/
def readDuckDb (sql : String) : Option Expr := do
  let tokens ← lexInDuckDb sql.toList
  let reading ← tokens.foldlM Reader.next (.operand [])
  Reader.finish reading

/-- In front of `rest`, the text `s` is the tokens `ts`. -/
def LexesInDuckDb (s : String) (ts : List Token) (rest : List Char) : Prop :=
  lexInDuckDb (s.toList ++ rest) = (lexInDuckDb rest).map (ts ++ ·)

theorem lexInDuckDbAfter_eq (skip : Nat) (cs : List Char) :
    lexInDuckDbAfter skip cs = lexInDuckDb (cs.drop skip) := by
  induction cs generalizing skip with
  | nil => simp [lexInDuckDb, lexInDuckDbAfter]
  | cons c cs ih =>
    cases skip with
    | zero => rfl
    | succ skip => exact ih skip

theorem lexInDuckDb_of_blank {c : Char} {cs : List Char} (hc : Text.isBlank c = true) :
    lexInDuckDb (c :: cs) = lexInDuckDb cs :=
  if_pos hc

theorem lexesInDuckDb_of_token {s : String} {c : Char} {cs rest : List Char} {token : Token}
    (hs : s.toList = c :: cs) (hc : Text.isBlank c = false)
    (h : tokenInDuckDb? c (cs ++ rest) = some (token, cs.length)) :
    LexesInDuckDb s [token] rest := by
  have hdrop := lexInDuckDbAfter_eq cs.length (cs ++ rest)
  rw [List.drop_left] at hdrop
  rw [LexesInDuckDb, hs, List.cons_append, lexInDuckDb, lexInDuckDbAfter, if_neg (by simp [hc]), h,
    Option.bind_some, ← hdrop]
  rfl

theorem doubled?_of_ne {quote c : Char} (hc : c ≠ quote) (cs : List Char) :
    doubled? quote (c :: cs) =
      (doubled? quote cs).map fun (inner, length) => (c :: inner, length + 1) := by
  cases cs with
  | nil => simp [doubled?, hc]
  | cons d cs => rw [doubled?, if_neg (by simpa using hc)]

/-- Quotes around text whose quotes are doubled. -/
theorem doubled?_flatMap {quote : Char} {escape : Char → List Char}
    (hquote : escape quote = [quote, quote]) (hother : ∀ c, c ≠ quote → escape c = [c])
    (inner : List Char) {rest : List Char} (hrest : rest.head? ≠ some quote) :
    doubled? quote (inner.flatMap escape ++ quote :: rest) =
      some (inner, (inner.flatMap escape).length + 1) := by
  induction inner with
  | nil =>
    cases rest with
    | nil => simp [doubled?]
    | cons d rest =>
      have hd : d ≠ quote := by simpa using hrest
      simp [doubled?, hd]
  | cons c inner ih =>
    rw [List.flatMap_cons, List.append_assoc]
    by_cases hc : c = quote
    · subst hc
      simp [hquote, doubled?, ih]
    · simp [hother c hc, doubled?_of_ne hc, ih]

/-! ## Texts with the same tokens -/

/-- Whether `c` ends the number, the word or the quotes before it. -/
def isStop (c : Char) : Bool := !(goesOn c || c == '"' || c == '\'')

def Stops (rest : List Char) : Prop := rest.head?.all isStop = true

theorem Stops.ends {rest : List Char} (h : Stops rest) : Ends rest := by
  cases rest with
  | nil => rfl
  | cons c rest =>
    simp only [Stops, List.head?_cons, Option.all_some, isStop, Bool.not_eq_true',
      Bool.or_eq_false_iff] at h
    exact h.1.1

theorem Stops.head?_ne {rest : List Char} (h : Stops rest) {quote : Char}
    (hquote : isStop quote = false) : rest.head? ≠ some quote := by
  intro hhead
  rw [Stops, hhead, Option.all_some, hquote] at h
  cases h

/-- The text begins with something that ends what is before it. -/
def Starts (s : String) : Prop := s.toList.head?.any isStop = true

theorem Starts.stops {s : String} (h : Starts s) (rest : List Char) : Stops (s.toList ++ rest) := by
  rw [Starts] at h
  cases hs : s.toList with
  | nil => simp [hs] at h
  | cons c cs => simpa [Stops, hs] using h

/-- Where the rest has the same tokens in both dialects, so it has with `s` and `t`
in front. -/
def Spells (s t : String) : Prop :=
  ∀ rest rest', Stops rest → Stops rest' → lexInDuckDb rest = lex rest' →
    lexInDuckDb (s.toList ++ rest) = lex (t.toList ++ rest')

/-- The same, whatever comes next. -/
def Signs (s t : String) : Prop :=
  ∀ rest rest', lexInDuckDb rest = lex rest' →
    lexInDuckDb (s.toList ++ rest) = lex (t.toList ++ rest')

section Spells

variable {s t p q : String} {ts : List Token}

theorem Signs.spells (h : Signs s t) : Spells s t := fun rest rest' _ _ => h rest rest'

theorem toList_append_append (s p : String) (rest : List Char) :
    (s ++ p).toList ++ rest = s.toList ++ (p.toList ++ rest) := by
  rw [String.toList_append, List.append_assoc]

theorem Signs.append (h : Signs s t) (h' : Signs p q) : Signs (s ++ p) (t ++ q) := by
  intro rest rest' hrest
  rw [toList_append_append, toList_append_append]
  exact h _ _ (h' _ _ hrest)

theorem Signs.append_spells (h : Signs p q) (h' : Spells s t) : Spells (p ++ s) (q ++ t) := by
  intro rest rest' hstops hstops' hrest
  rw [toList_append_append, toList_append_append]
  exact h _ _ (h' _ _ hstops hstops' hrest)

theorem Spells.append (h : Spells s t) (h' : Signs p q) (hp : Starts p) (hq : Starts q) :
    Signs (s ++ p) (t ++ q) := by
  intro rest rest' hrest
  rw [toList_append_append, toList_append_append]
  exact h _ _ (hp.stops rest) (hq.stops rest') (h' _ _ hrest)

/-- The same tokens in front of the same tokens. -/
theorem LexesInDuckDb.eq_lex {rest rest' : List Char} (hs : LexesInDuckDb s ts rest)
    (ht : Lexes t ts rest') (hrest : lexInDuckDb rest = lex rest') :
    lexInDuckDb (s.toList ++ rest) = lex (t.toList ++ rest') := by
  rw [LexesInDuckDb, hrest] at hs
  rw [Lexes] at ht
  rw [hs, ht]

theorem spells_of_lexes (h : ∀ rest, Stops rest → LexesInDuckDb s ts rest)
    (h' : ∀ rest, Stops rest → Lexes t ts rest) : Spells s t :=
  fun rest rest' hstops hstops' hrest => (h rest hstops).eq_lex (h' rest' hstops') hrest

theorem signs_of_lexes (h : ∀ rest, LexesInDuckDb s ts rest) (h' : ∀ rest, Lexes t ts rest) :
    Signs s t :=
  fun rest rest' hrest => (h rest).eq_lex (h' rest') hrest

theorem lexesInDuckDb_of_quoted (quote : Char) (kind : String → Token)
    (escape : Char → List Char) (hstop : isStop quote = false)
    (hblank : Text.isBlank quote = false) (hescape : escape quote = [quote, quote])
    (hother : ∀ c, c ≠ quote → escape c = [c])
    (hkind : ∀ cs, tokenInDuckDb? quote cs = (doubled? quote cs).map fun (inner, length) =>
      (kind (String.ofList inner), length))
    (inner : List Char) {rest : List Char} (hrest : Stops rest) :
    LexesInDuckDb (String.ofList (quote :: inner.flatMap escape ++ [quote]))
      [kind (String.ofList inner)] rest := by
  have hs : (String.ofList (quote :: inner.flatMap escape ++ [quote])).toList =
      quote :: (inner.flatMap escape ++ [quote]) := String.toList_ofList
  refine lexesInDuckDb_of_token hs hblank ?_
  rw [List.append_assoc, List.singleton_append, hkind,
    doubled?_flatMap hescape hother inner (hrest.head?_ne hstop), Option.map_some,
    List.length_append]
  rfl

theorem spells_name {name : String} (h : '\\' ∉ name.toList) :
    Spells (Dialect.quoteName .duckDb name) (Dialect.quoteName .bigQuery name) := by
  refine spells_of_lexes (fun rest hrest => ?_) fun rest _ => lexes_name h rest
  have hlexes := lexesInDuckDb_of_quoted '"' .name (Dialect.escapeInName .duckDb) (by decide)
    (by decide) rfl (fun c hc => if_neg (by simpa [Dialect.nameQuote] using hc)) (fun _ => rfl)
    name.toList hrest
  rwa [String.ofList_toList] at hlexes

theorem spells_text (value : String) :
    Spells (Dialect.quoteText .duckDb value) (Dialect.quoteText .bigQuery value) := by
  refine spells_of_lexes (fun rest hrest => ?_) fun rest _ => lexes_text value rest
  have hlexes := lexesInDuckDb_of_quoted '\'' .text (Dialect.escapeInText .duckDb) (by decide)
    (by decide) rfl (fun c hc => if_neg (by simpa using hc)) (fun _ => rfl) value.toList hrest
  rwa [String.ofList_toList] at hlexes

/-- Outside quotes the dialects split a text in one way. -/
theorem tokenInDuckDb?_of_goesOn {c : Char} (hc : goesOn c = true) (cs : List Char) :
    tokenInDuckDb? c cs = (tokenAt? c cs).map fun (token, length) => (token.canonical, length) := by
  rw [tokenInDuckDb?, beq_eq_false_of_goesOn hc (by decide), if_neg (by decide),
    beq_eq_false_of_goesOn hc (by decide), if_neg (by decide),
    beq_eq_false_of_goesOn hc (by decide), if_neg (by decide)]

theorem spells_number {digits : String} (h : Formula.IsNumber digits) : Spells digits digits := by
  refine spells_of_lexes (fun rest hrest => ?_) fun rest hrest => lexes_number h hrest.ends
  obtain ⟨c, cs, hcs, hc, htoken⟩ := tokenAt?_of_isNumber h hrest.ends
  refine lexesInDuckDb_of_token hcs (isBlank_of_goesOn hc) ?_
  rw [tokenInDuckDb?_of_goesOn hc, htoken]
  rfl

theorem isNameChar_of_ends {rest : List Char} (h : Ends rest) :
    rest.head?.any Text.isNameChar = false := by
  cases rest with
  | nil => rfl
  | cons c rest =>
    have hc : goesOn c = false := h
    rw [goesOn, Bool.or_eq_false_iff] at hc
    exact hc.1

theorem lexesInDuckDb_word {w : String} (hname : isName w = true) {rest : List Char}
    (hrest : Stops rest) :
    LexesInDuckDb w [(Token.word (Text.upperAscii w)).canonical] rest := by
  obtain ⟨c, cs, hcs, hc, htoken⟩ := tokenAt?_of_isName hname (isNameChar_of_ends hrest.ends)
  refine lexesInDuckDb_of_token hcs (isBlank_of_goesOn hc) ?_
  rw [tokenInDuckDb?_of_goesOn hc, htoken]
  rfl

/-- A word in any case, that is none of the names of the type of texts. -/
theorem spells_word {w w' : String} (hname : isName w = true) (hupper : Text.upperAscii w = w')
    (hword : IsWord w') (htype : (Token.word w').canonical = .word w') : Spells w w' := by
  refine spells_of_lexes (fun rest hrest => ?_) fun rest hrest =>
    lexes_word hword (isNameChar_of_ends hrest.ends)
  have hlexes := lexesInDuckDb_word hname hrest
  rwa [hupper, htype] at hlexes

theorem spells_upper {w : String} (hword : IsWord w)
    (htype : (Token.word w).canonical = .word w) : Spells w w :=
  spells_word hword.1 hword.2 hword htype

theorem spells_spelling (f : Function) :
    Spells (Dialect.spelling .duckDb f) (Dialect.functionName f) :=
  spells_word (by cases f <;> decide) (by cases f <;> decide)
    (isWord_functionName f) (by cases f <;> rfl)

theorem spells_textType : Spells (Dialect.textType .duckDb) (Dialect.textType .bigQuery) :=
  spells_of_lexes (fun _ hrest => lexesInDuckDb_word (by decide) hrest) fun _ hrest =>
    lexes_word (by decide) (isNameChar_of_ends hrest.ends)

/-! ## Signs -/

theorem signs_char {s : String} {c : Char} {token : Token} (hs : s.toList = [c])
    (hc : Text.isBlank c = false) (h : ∀ rest, tokenInDuckDb? c rest = some (token, 0))
    (h' : ∀ rest, tokenAt? c rest = some (token, 0)) : Signs s s :=
  signs_of_lexes (fun rest => lexesInDuckDb_of_token hs hc (h rest)) fun rest =>
    lexes_char hs hc (h' rest)

theorem signs_opening : Signs "(" "(" := signs_char rfl (by decide) (fun _ => rfl) fun _ => rfl

theorem signs_closing : Signs ")" ")" := signs_char rfl (by decide) (fun _ => rfl) fun _ => rfl

theorem signs_blank : Signs " " " " := by
  intro rest rest' hrest
  rw [show " ".toList = [' '] from rfl, List.singleton_append, List.singleton_append,
    lexInDuckDb_of_blank (by decide), lex_of_blank (by decide), hrest]

theorem signs_comma : Signs ", " ", " :=
  Signs.append (s := ",") (signs_char rfl (by decide) (fun _ => rfl) fun _ => rfl) signs_blank

/-- A minus, before something else than a second one. -/
theorem spells_minus (h : Spells s t) (hs : Unsigned s) (ht : Unsigned t) :
    Spells ("-" ++ s) ("-" ++ t) := by
  obtain ⟨c, cs, hcs, hc⟩ := hs
  obtain ⟨c', cs', hcs', hc'⟩ := ht
  intro rest rest' hstops hstops' hrest
  have hnext := h rest rest' hstops hstops' hrest
  have hminus : LexesInDuckDb "-" [.op .subtract] (s.toList ++ rest) := by
    have hsign : "-".toList = ['-'] := rfl
    refine lexesInDuckDb_of_token hsign (by decide) ?_
    simp [hcs, tokenInDuckDb?, tokenAt?, BinaryOp.ofChar?, hc, Token.canonical]
  have hminus' : Lexes "-" [.op .subtract] (t.toList ++ rest') :=
    lexes_minus (by simpa [hcs'] using hc')
  rw [toList_append_append, toList_append_append]
  exact hminus.eq_lex hminus' hnext

/-- An operator between blanks. -/
theorem signs_symbol {op : BinaryOp} (hop : 0 < op.precedence) :
    Signs (" " ++ op.symbol ++ " ") (" " ++ op.symbol ++ " ") := by
  have hsymbol : Signs (op.symbol ++ " ") (op.symbol ++ " ") := by
    intro rest rest' hrest
    have hblank := signs_blank rest rest' hrest
    have hduck : LexesInDuckDb op.symbol [.op op] (' ' :: rest) := by
      cases op with
      | and | eq => cases hop
      | add | subtract | multiply | divide | modulo =>
        exact lexesInDuckDb_of_token rfl (by decide) rfl
    have hlexes : Lexes op.symbol [.op op] (' ' :: rest') :=
      lexes_symbol (by rintro rfl; cases hop) (by rintro rfl; cases hop) rest'
    rw [toList_append_append, toList_append_append]
    exact hduck.eq_lex hlexes hblank
  rw [String.append_assoc]
  exact signs_blank.append hsymbol

end Spells

/-! ## Texts that are read as an expression -/

/-- The text `s` has the tokens of a text that is read as `e` wherever an operand of the
level `n` may stand. -/
def ReadsInDuckDb (s : String) (e : Expr) (n : Nat) : Prop :=
  ∃ t, Spells s t ∧ Reads t e n ∧ (4 ≤ n → Unsigned s)

theorem readDuckDb_of_reads {s : String} {e : Expr} {n : Nat} (h : ReadsInDuckDb s e n) :
    readDuckDb s = some e := by
  obtain ⟨t, hspells, hreads, -⟩ := h
  have htokens := hspells [] [] rfl rfl rfl
  rw [List.append_nil, List.append_nil] at htokens
  rw [readDuckDb, htokens]
  exact read_of_reads hreads

section Reads

variable {s t : String} {e e' : Expr} {n m : Nat}

theorem Reads.unsigned (h : Reads s e n) (hn : 4 ≤ n) : Unsigned s := by
  obtain ⟨_, -, -, hunsigned⟩ := h
  exact hunsigned hn

namespace ReadsInDuckDb

theorem mono (h : ReadsInDuckDb s e n) (hm : m ≤ n) : ReadsInDuckDb s e m := by
  obtain ⟨t, hspells, hreads, hunsigned⟩ := h
  exact ⟨t, hspells, hreads.mono hm, fun h => hunsigned (h.trans hm)⟩

theorem name {name : String} (h : '\\' ∉ name.toList) :
    ReadsInDuckDb (Dialect.quoteName .duckDb name) (.ofColumn name) 4 :=
  ⟨_, spells_name h, reads_name h, fun _ => ⟨'"', _, String.toList_ofList, by decide⟩⟩

theorem text (value : String) :
    ReadsInDuckDb (Dialect.quoteText .duckDb value) (.ofText value) 4 :=
  ⟨_, spells_text value, reads_text value, fun _ => ⟨'\'', _, String.toList_ofList, by decide⟩⟩

theorem number {digits : String} (h : Formula.IsNumber digits) :
    ReadsInDuckDb digits (.raw digits) 4 :=
  ⟨_, spells_number h, reads_number h, (reads_number h).unsigned⟩

theorem group (h : ReadsInDuckDb s e n) : ReadsInDuckDb ("(" ++ s ++ ")") e 4 := by
  obtain ⟨t, hspells, hreads, -⟩ := h
  refine ⟨_, ((signs_opening.append_spells hspells).append signs_closing rfl rfl).spells,
    hreads.group, fun _ => ?_⟩
  exact Unsigned.append (Unsigned.append ⟨'(', [], rfl, by decide⟩ s) ")"

theorem parenthesizedIf (h : ReadsInDuckDb s e n) {needed : Bool} (hm : m ≤ 4)
    (hn : needed = true ∨ m ≤ n) : ReadsInDuckDb (Expr.parenthesizedIf needed s) e m := by
  cases needed with
  | false => exact h.mono (hn.resolve_left Bool.false_ne_true)
  | true => exact h.group.mono hm

theorem negate (h : ReadsInDuckDb s e 4) : ReadsInDuckDb ("-" ++ s) (.negate e) 3 := by
  obtain ⟨t, hspells, hreads, hunsigned⟩ := h
  exact ⟨_, spells_minus hspells (hunsigned (Nat.le_refl 4)) (hreads.unsigned (Nat.le_refl 4)),
    hreads.negate, fun h => absurd h (by decide)⟩

theorem binary {op : BinaryOp} (hl : ReadsInDuckDb s e n) (hr : ReadsInDuckDb t e' m)
    (hop : 0 < op.precedence) (hn : op.precedence ≤ n) (hm : op.precedence < m) :
    ReadsInDuckDb (s ++ " " ++ op.symbol ++ " " ++ t) (.binary op e e') op.precedence := by
  obtain ⟨l, hspells, hreads, -⟩ := hl
  obtain ⟨r, hspells', hreads', -⟩ := hr
  refine ⟨_, ?_, hreads.binary hreads' hop hn hm, fun h => absurd h (by cases op <;> decide)⟩
  have hsymbol (s t : String) :
      s ++ " " ++ op.symbol ++ " " ++ t = s ++ (" " ++ op.symbol ++ " ") ++ t := by
    simp only [String.append_assoc]
  have hstarts : Starts (" " ++ op.symbol ++ " ") := by
    rw [Starts, String.append_assoc, String.toList_append]
    rfl
  rw [hsymbol, hsymbol]
  exact (hspells.append (signs_symbol hop) hstarts hstarts).append_spells hspells'

/-! ## Calls -/

/-- Arguments have the tokens of arguments. -/
theorem exists_spells {ss : List String} {es : List Expr}
    (h : List.Forall₂ (fun s e => ∃ n, ReadsInDuckDb s e n) ss es) :
    ∃ ts, Spells (", ".intercalate ss) (", ".intercalate ts) ∧
      List.Forall₂ (fun t e => ∃ n, Reads t e n) ts es := by
  induction h with
  | nil => exact ⟨[], fun _ _ _ _ h => h, .nil⟩
  | @cons s e ss es hs hrest ih =>
    obtain ⟨n, t, hspells, hreads, -⟩ := hs
    obtain ⟨ts, hspells', hreads'⟩ := ih
    refine ⟨t :: ts, ?_, .cons ⟨n, hreads⟩ hreads'⟩
    cases hrest with
    | nil =>
      cases hreads'
      rwa [String.intercalate_singleton, String.intercalate_singleton]
    | cons _ _ =>
      cases hreads'
      rw [String.intercalate_cons_cons, String.intercalate_cons_cons]
      exact (hspells.append signs_comma rfl rfl).append_spells hspells'

theorem call {w w' : String} (hspells : Spells w w') (hunsigned : Unsigned w) (hword : IsWord w')
    (hdistinct : w' ≠ "DISTINCT") (hcomma : Reader.separator w' = .comma) {ss : List String}
    {es : List Expr} (h : List.Forall₂ (fun s e => ∃ n, ReadsInDuckDb s e n) ss es) (hne : es ≠ [])
    (hcall : Reader.call? w' es = some e) :
    ReadsInDuckDb (w ++ "(" ++ ", ".intercalate ss ++ ")") e 4 := by
  obtain ⟨ts, hinner, hreads⟩ := exists_spells h
  exact ⟨_, (((hspells.append signs_opening rfl rfl).append_spells hinner).append signs_closing
    rfl rfl).spells, reads_call w' hword hdistinct hcomma hreads hne hcall,
    fun _ => ((hunsigned.append _).append _).append _⟩

/-- A quotient, whose dividend may be a product. -/
theorem divide (hs : ReadsInDuckDb s e n) (hn : 2 ≤ n) (ht : ReadsInDuckDb t e' m) :
    ReadsInDuckDb (s ++ " / NULLIF(" ++ t ++ ", 0)")
      (.binary .divide e (.call .nullIf [e', .raw "0"])) 2 := by
  have hzero : ReadsInDuckDb "0" (.raw "0") 4 := number (by unfold Formula.IsNumber; decide)
  have hdivisor : ReadsInDuckDb ("NULLIF" ++ "(" ++ ", ".intercalate [t, "0"] ++ ")")
      (.call .nullIf [e', .raw "0"]) 4 :=
    call (spells_upper (by decide) rfl) ⟨'N', _, rfl, by decide⟩ (by decide)
      (by decide) rfl (.cons ⟨m, ht⟩ (.cons ⟨4, hzero⟩ .nil)) (List.cons_ne_nil _ _) rfl
  have htext : s ++ " / NULLIF(" ++ t ++ ", 0)" = s ++ " " ++ BinaryOp.divide.symbol ++ " " ++
      ("NULLIF" ++ "(" ++ ", ".intercalate [t, "0"] ++ ")") := by
    rw [String.intercalate_cons_cons, String.intercalate_singleton,
      show " / NULLIF(" = " " ++ BinaryOp.divide.symbol ++ " " ++ ("NULLIF" ++ "(") by decide,
      show ", 0)" = ", " ++ "0" ++ ")" by decide]
    simp only [String.append_assoc]
  rw [htext]
  exact hs.binary hdivisor (by decide) hn (by decide)

theorem cast (h : ReadsInDuckDb s e n) :
    ReadsInDuckDb ("CAST(" ++ s ++ " AS " ++ Dialect.textType .duckDb ++ ")")
      (.call .castToString [e]) 4 := by
  obtain ⟨t, hspells, hreads, -⟩ := h
  have hunsigned : Unsigned "CAST(" := ⟨'C', _, rfl, by decide⟩
  refine ⟨"CAST(" ++ t ++ " AS " ++ Dialect.textType .bigQuery ++ ")", ?_, reads_cast hreads,
    fun _ => (((hunsigned.append s).append " AS ").append (Dialect.textType .duckDb)).append ")"⟩
  have hcast : Signs "CAST(" "CAST(" := by
    rw [show "CAST(" = "CAST" ++ "(" by decide]
    exact (spells_upper (by decide) rfl).append signs_opening rfl rfl
  have has : Signs " AS " " AS " := by
    rw [show " AS " = " " ++ "AS" ++ " " by decide]
    exact (signs_blank.append_spells (spells_upper (by decide) rfl)).append signs_blank
      rfl rfl
  exact ((((hcast.append_spells hspells).append has rfl rfl).append_spells
    spells_textType).append signs_closing rfl rfl).spells

theorem aggregate (a : Aggregation) (h : ReadsInDuckDb s e n) :
    ReadsInDuckDb (Dialect.aggregate a s) (.aggregate a e) 4 := by
  obtain ⟨t, hspells, hreads, -⟩ := h
  by_cases ha : a = .countDistinct
  · subst ha
    have hunsigned : Unsigned "COUNT(DISTINCT " := ⟨'C', _, rfl, by decide⟩
    have hstart : Signs "COUNT(DISTINCT " "COUNT(DISTINCT " := by
      rw [show "COUNT(DISTINCT " = "COUNT" ++ "(" ++ ("DISTINCT" ++ " ") by decide]
      exact ((spells_upper (by decide) rfl).append signs_opening rfl rfl).append
        ((spells_upper (by decide) rfl).append signs_blank rfl rfl)
    have htext (s : String) :
        Dialect.aggregate .countDistinct s = "COUNT(DISTINCT " ++ s ++ ")" := rfl
    have hspells' := (hstart.append_spells hspells).append signs_closing rfl rfl
    rw [← htext, ← htext] at hspells'
    refine ⟨_, hspells'.spells, reads_aggregate _ hreads, fun _ => ?_⟩
    rw [htext]
    exact (hunsigned.append s).append ")"
  · have hname : Spells a.name a.name :=
      spells_upper (by cases a <;> decide) (by cases a <;> rfl)
    have hunsigned : Unsigned a.name := by cases a <;> exact ⟨_, _, rfl, by decide⟩
    have hspells' := ((hname.append signs_opening rfl rfl).append_spells hspells).append
      signs_closing rfl rfl
    rw [← aggregate_eq ha, ← aggregate_eq ha] at hspells'
    refine ⟨_, hspells'.spells, reads_aggregate a hreads, fun _ => ?_⟩
    rw [aggregate_eq ha]
    exact ((hunsigned.append "(").append s).append ")"

/-- A call that is written as one. -/
theorem scalar {f : Function} {es es' : List Expr} (hdivide : f ≠ .safeDivide)
    (hcast : f ≠ .castToString) (hdate : f ≠ .dateDiff)
    (hcan : Dialect.canCall f es.length = true) (hne : es ≠ [])
    (h : List.Forall₂ (fun s e' => ∃ n, ReadsInDuckDb s e' n) (es.map (Expr.render .duckDb)) es') :
    ReadsInDuckDb ((Expr.call f es).render .duckDb) (.call f es') 4 := by
  have hlength := h.length_eq
  rw [List.length_map] at hlength
  have htext : (Expr.call f es).render .duckDb = Dialect.spelling .duckDb f ++ "(" ++
      ", ".intercalate (es.map (Expr.render .duckDb)) ++ ")" := by
    rw [Expr.render, Expr.renderList_eq_map, Dialect.call, if_neg (by simp [hcan])]
    · exact fun _ h _ => hcast h
    · rintro _ _ ⟨⟩
    · exact fun _ _ _ h _ => hdate h
    · exact fun _ _ _ h _ => hdivide h
  rw [htext]
  refine call (spells_spelling f) ?_ (isWord_functionName f) (by cases f <;> decide) ?_ h ?_
    (call?_functionName hcast hdate es')
  · cases f <;> exact ⟨_, _, rfl, by decide⟩
  · cases f <;> first | exact absurd rfl hcast | rfl
  · rintro rfl
    exact hne (List.eq_nil_of_length_eq_zero hlength)

/-! ## Composite keys -/

theorem keyPart {column : String} (h : '\\' ∉ column.toList) :
    ReadsInDuckDb ((Expr.keyPart column).render .duckDb) (.keyPart column) 4 := by
  have hreplace {e : Expr} (he : ReadsInDuckDb (e.render .duckDb) e 4)
      (part replacement : String) :
      ReadsInDuckDb ((e.replaceAll part replacement).render .duckDb)
        (e.replaceAll part replacement) 4 :=
    scalar (by decide) (by decide) (by decide) rfl (List.cons_ne_nil _ _)
      (.cons ⟨4, he⟩ (.cons ⟨4, text part⟩ (.cons ⟨4, text replacement⟩ .nil)))
  have hcast : ReadsInDuckDb ((Expr.call .castToString [.ofColumn column]).render .duckDb)
      (.call .castToString [.ofColumn column]) 4 := (name h).cast
  have hinner := hreplace (hreplace hcast "~" "~~") "|" "~p"
  exact scalar (by decide) (by decide) (by decide) rfl (List.cons_ne_nil _ _)
    (.cons ⟨4, hinner⟩ (.cons ⟨4, text "~n"⟩ .nil))

/-- The key that several columns make up. -/
theorem compositeKey {columns : List String} (hne : columns ≠ [])
    (h : ∀ node ∈ (Expr.compositeKey columns).nodes, node.Plain) :
    ReadsInDuckDb ((Expr.compositeKey columns).render .duckDb) (.compositeKey columns) 4 := by
  have hplain (column : String) (hcolumn : column ∈ columns) : '\\' ∉ column.toList :=
    h (.ofColumn column) (ofColumn_mem_nodes_compositeKey hcolumn)
  refine scalar (by decide) (by decide) (by decide) rfl ?_ ?_
  · obtain ⟨column, hcolumn⟩ := List.exists_mem_of_ne_nil _ hne
    exact List.ne_nil_of_mem (mem_intersperse_of_mem (List.mem_map_of_mem hcolumn))
  · rw [List.forall₂_map_left_iff, List.forall₂_same]
    intro e he
    rcases eq_or_mem_of_mem_intersperse he with rfl | he
    · exact ⟨4, text "|"⟩
    · obtain ⟨column, hcolumn, rfl⟩ := List.mem_map.1 he
      exact ⟨4, keyPart (hplain column hcolumn)⟩

end ReadsInDuckDb

end Reads

end MetricLayer.Sql
