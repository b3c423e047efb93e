import Mathlib.Data.List.Forall2
import MetricLayer.Proofs.Sql.Lexing

/-!
# Reading an expression

`Sql.read` reads the text of an expression by the usual grammar: operators
associate to the left, `*`, `/` and `%` binding tighter than `+` and `-`; a sign
binds tighter than every operator; a name before a parenthesis is called; and
parentheses leave no trace (`Expr.bare`). As in the reading of formulas, the
tokens are taken one by one, with a stack of what is still open.

`Reads s e n` says that the text `s` is read as `e` wherever an operand of the
level `n` may stand. The lemmas put such texts together as expressions are
written, and `read_of_reads` is the whole.
-/

namespace MetricLayer.Sql

/-- How tightly an operator binds its operands. -/
def BinaryOp.precedence : BinaryOp → Nat
  | .and | .eq => 0
  | .add | .subtract => 1
  | .multiply | .divide | .modulo => 2

namespace Expr

mutual

/-- The expression without the parentheses written in it. -/
def bare : Expr → Expr
  | .nested inner => inner.bare
  | .call f arguments => .call f (bareAll arguments)
  | .cases branches otherwise => .cases (bareBranches branches) otherwise.bare
  | .binary op l r => .binary op l.bare r.bare
  | .negate e => .negate e.bare
  | .aggregate a e => .aggregate a e.bare
  | .countIf e => .countIf e.bare
  | .inList e list negated => .inList e.bare (bareAll list) negated
  | .column table name => .column table name
  | .literal v => .literal v
  | .date d => .date d
  | .wildcard => .wildcard
  | .raw sql => .raw sql

def bareAll : List Expr → List Expr
  | [] => []
  | e :: rest => e.bare :: bareAll rest

def bareBranches : List (Expr × Expr) → List (Expr × Expr)
  | [] => []
  | (w, t) :: rest => (w.bare, t.bare) :: bareBranches rest

end

end Expr

/-! ## The grammar -/

namespace Reader

/-- A part of an expression that is still open. -/
inductive Frame where
  | negate
  | binary (op : BinaryOp) (left : Expr)
  | group
  | call (word : String) (done : List Expr)

/-- What has been read, the stack being what is open around it. -/
inductive Reading where
  /-- An operand must come. -/
  | operand (stack : List Frame)
  /-- A word, which a parenthesis makes the name of a function. -/
  | word (word : String) (stack : List Frame)
  /-- An operand, after which an operator or an end may come. -/
  | operator (read : Expr) (stack : List Frame)

/-- The aggregates by their names, `DISTINCT` being a part of the name. -/
def aggregate? : String → Option Aggregation
  | "SUM" => some .sum
  | "COUNT" => some .count
  | "AVG" => some .avg
  | "MIN" => some .min
  | "MAX" => some .max
  | "COUNT DISTINCT" => some .countDistinct
  | "APPROX_COUNT_DISTINCT" => some .approxCountDistinct
  | _ => none

/-- The functions that take expressions only, by their names. -/
def function? : String → Option Function
  | "SAFE_DIVIDE" => some .safeDivide
  | "COALESCE" => some .coalesce
  | "IFNULL" => some .ifNull
  | "NULLIF" => some .nullIf
  | "CONCAT" => some .concat
  | "REPLACE" => some .replace
  | "ROUND" => some .round
  | "ABS" => some .abs
  | "CEIL" => some .ceil
  | "FLOOR" => some .floor
  | "GREATEST" => some .greatest
  | "LEAST" => some .least
  | "SQRT" => some .sqrt
  | "POWER" => some .power
  | "LN" => some .ln
  | "LOG10" => some .log10
  | "EXP" => some .exp
  | "SIGN" => some .sign
  | _ => none

/-- What the call of `word` is, if it can be called so. -/
def call? (word : String) (arguments : List Expr) : Option Expr :=
  match word, arguments with
  | "CAST", [e, .raw "STRING"] => some (.call .castToString [e])
  | "DATE_DIFF", [stop, start, .raw "DAY"] => some (.call .dateDiff [start, stop])
  | word, arguments =>
    match aggregate? word, arguments with
    | some a, [e] => some (.aggregate a e)
    | _, arguments => (function? word).map fun f => .call f arguments

/-- What stands between the arguments of a call. -/
def separator (word : String) : Token := if word = "CAST" then .word "AS" else .comma

/-- A word that is not called. -/
def ofWord (word : String) : Expr := if word = "NULL" then .literal .null else .raw word

/-- An operand is complete: the signs before it take it. -/
def complete (operand : Expr) : List Frame → Expr × List Frame
  | .negate :: below => complete (.negate operand) below
  | stack => (operand, stack)

/-- The operators of at least the given precedence take `operand` as their right
operand. -/
def reduce (precedence : Nat) (operand : Expr) : List Frame → Expr × List Frame
  | .binary op left :: below =>
    if precedence ≤ op.precedence then reduce precedence (.binary op left operand) below
    else (operand, .binary op left :: below)
  | stack => (operand, stack)

def Reading.after (read : Expr × List Frame) : Reading := .operator read.1 read.2

/-- A token where an operand must come. -/
def operandAt (stack : List Frame) : Token → Option Reading
  | .name name => some (.after (complete (.ofColumn name) stack))
  | .text s => some (.after (complete (.ofText s) stack))
  | .number digits => some (.after (complete (.raw digits) stack))
  | .word word =>
    match word, stack with
    | "DISTINCT", .call name [] :: below =>
      some (.operand (.call (name ++ " DISTINCT") [] :: below))
    | word, stack => some (.word word stack)
  | .opening => some (.operand (.group :: stack))
  | .op .subtract => some (.operand (.negate :: stack))
  | .op .add => some (.operand stack)
  | _ => none

/-- A token that ends the expression `operand`, which is all there is between
the stack's top and it. -/
def endAt (operand : Expr) (stack : List Frame) (token : Token) : Option Reading :=
  match stack, token with
  | .group :: below, .closing => some (.after (complete operand below))
  | .call word done :: below, .closing =>
    (call? word (operand :: done).reverse).map fun e => .after (complete e below)
  | .call word done :: below, token =>
    if token = separator word then some (.operand (.call word (operand :: done) :: below)) else none
  | _, _ => none

/-- A token where an operator or an end must come. -/
def operatorAt (operand : Expr) (stack : List Frame) : Token → Option Reading
  | .op op =>
    let (left, below) := reduce op.precedence operand stack
    some (.operand (.binary op left :: below))
  | token =>
    let (operand, stack) := reduce 0 operand stack
    endAt operand stack token

def next : Reading → Token → Option Reading
  | .operand stack, token => operandAt stack token
  | .word word stack, token =>
    if token = .opening then some (.operand (.call word [] :: stack))
    else
      let (operand, stack) := complete (ofWord word) stack
      operatorAt operand stack token
  | .operator operand stack, token => operatorAt operand stack token

/-- The expression that ends with `operand`, if nothing else is open. -/
def whole? (operand : Expr) (stack : List Frame) : Option Expr :=
  match reduce 0 operand stack with
  | (e, []) => some e
  | _ => none

/-- The expression read, once the tokens are used up. -/
def finish : Reading → Option Expr
  | .operand _ => none
  | .word word stack =>
    let (operand, stack) := complete (ofWord word) stack
    whole? operand stack
  | .operator operand stack => whole? operand stack

end Reader

/-- The expression that a text is. -/
def read (sql : String) : Option Expr := do
  let tokens ← lex sql.toList
  let reading ← tokens.foldlM Reader.next (.operand [])
  Reader.finish reading

/-! ## Operands of a level -/

namespace Reader

/-- Whether an operand may stand on top of `stack`: a sign takes signed operands
only, and an operator those that bind tighter. -/
def Opens (n : Nat) : List Frame → Prop
  | .negate :: _ => 3 ≤ n
  | .binary op _ :: _ => op.precedence < n
  | _ => True

/-- Wherever an operand of the level `n` may stand, the tokens are read as `e`,
as far as operators up to this level can tell. The levels are the precedences of
operators, 3 for a negation and 4 for what stands by itself. -/
def Parses (ts : List Token) (e : Expr) (n : Nat) : Prop :=
  ∀ stack, Opens n stack → ∃ operand below,
    ts.foldlM next (.operand stack) = some (.operator operand below) ∧
    ∀ p ≤ n, reduce p operand below = reduce p (complete e stack).1 (complete e stack).2

theorem complete_of_opens {n : Nat} {stack : List Frame} (hn : n < 3) (h : Opens n stack)
    (e : Expr) : complete e stack = (e, stack) := by
  unfold complete
  split
  · exact absurd hn (Nat.not_lt.2 h)
  · rfl

theorem reduce_of_opens {n : Nat} {stack : List Frame} (h : Opens n stack) (e : Expr) :
    reduce n e stack = (e, stack) := by
  unfold reduce
  split
  · rename_i op left below
    exact if_neg (Nat.not_le.2 h)
  · rfl

theorem Opens.mono {n m : Nat} {stack : List Frame} (h : Opens n stack) (hnm : n ≤ m) :
    Opens m stack := by
  unfold Opens at h ⊢
  split
  · exact Nat.le_trans h hnm
  · exact Nat.lt_of_lt_of_le h hnm
  · trivial

theorem parses_of_token {token : Token} {e : Expr}
    (h : ∀ stack, operandAt stack token = some (.after (complete e stack))) :
    Parses [token] e 4 := by
  intro stack _
  refine ⟨_, _, ?_, fun _ _ => rfl⟩
  rw [List.foldlM_cons, next, h]
  rfl

/-- Inside parentheses nothing is left to be done but for the expression read. -/
theorem Parses.inside {ts : List Token} {e : Expr} {n : Nat} (h : Parses ts e n) {f : Frame}
    (hf : f = .group ∨ ∃ word done, f = .call word done) (stack : List Frame) :
    ∃ operand below, ts.foldlM next (.operand (f :: stack)) = some (.operator operand below) ∧
      reduce 0 operand below = (e, f :: stack) := by
  have hopens (m : Nat) : Opens m (f :: stack) := by
    rcases hf with rfl | ⟨_, _, rfl⟩ <;> exact trivial
  have hcomplete : complete e (f :: stack) = (e, f :: stack) := by
    rcases hf with rfl | ⟨_, _, rfl⟩ <;> rfl
  obtain ⟨operand, below, hrun, hreduce⟩ := h _ (hopens n)
  refine ⟨operand, below, hrun, ?_⟩
  rw [hreduce 0 (Nat.zero_le _), hcomplete, reduce_of_opens (hopens 0)]

theorem Parses.group {ts : List Token} {e : Expr} {n : Nat} (h : Parses ts e n) :
    Parses (.opening :: ts ++ [.closing]) e 4 := by
  intro stack _
  obtain ⟨operand, below, hrun, hreduce⟩ := h.inside (.inl rfl) stack
  refine ⟨_, _, ?_, fun _ _ => rfl⟩
  rw [List.cons_append, List.foldlM_cons, next, operandAt, Option.bind_eq_bind, Option.bind_some,
    List.foldlM_append, hrun]
  simp [next, operatorAt, hreduce, endAt, Reading.after]

theorem Parses.negate {ts : List Token} {e : Expr} (h : Parses ts e 4) :
    Parses (.op .subtract :: ts) (.negate e) 3 := by
  intro stack _
  obtain ⟨operand, below, hrun, hreduce⟩ := h (.negate :: stack) (by simp [Opens])
  refine ⟨operand, below, ?_, fun p hp => hreduce p (by omega)⟩
  rw [List.foldlM_cons, next, operandAt, Option.bind_eq_bind, Option.bind_some, hrun]

theorem Parses.binary {ts ts' : List Token} {l r : Expr} {n m : Nat} {op : BinaryOp}
    (hl : Parses ts l n) (hr : Parses ts' r m) (hn : op.precedence ≤ n) (hm : op.precedence < m) :
    Parses (ts ++ .op op :: ts') (.binary op l r) op.precedence := by
  intro stack hstack
  have hop : op.precedence < 3 := by cases op <;> decide
  have hcomplete (e : Expr) := complete_of_opens hop hstack e
  -- what stands before the operator is its left operand
  obtain ⟨left, below, hleft, hreduce⟩ := hl stack (hstack.mono hn)
  have hreduce := hreduce _ hn
  rw [hcomplete, reduce_of_opens hstack] at hreduce
  obtain ⟨right, below', hright, hreduce'⟩ := hr (.binary op l :: stack) hm
  refine ⟨right, below', ?_, fun p hp => ?_⟩
  · rw [List.foldlM_append, hleft, Option.bind_eq_bind, Option.bind_some, List.foldlM_cons, next,
      operatorAt, hreduce, Option.bind_eq_bind, Option.bind_some, hright]
  · rw [hreduce' p (by omega), hcomplete]
    change reduce p r (.binary op l :: stack) = _
    rw [reduce, if_pos hp]

end Reader

/-! ## Texts that are read as an expression -/

/-- The text begins with something else than a sign. -/
def Unsigned (s : String) : Prop := ∃ c cs, s.toList = c :: cs ∧ c ≠ '-'

theorem Unsigned.append {s : String} (h : Unsigned s) (t : String) : Unsigned (s ++ t) := by
  obtain ⟨c, cs, hs, hc⟩ := h
  exact ⟨c, cs ++ t.toList, by rw [String.toList_append, hs, List.cons_append], hc⟩

theorem unsigned_of_isWord {w : String} (h : IsWord w) : Unsigned w := by
  have hname := h.1
  rw [isName] at hname
  split at hname
  · cases hname
  rename_i c cs hcs
  refine ⟨c, cs, hcs, ?_⟩
  rintro rfl
  exact absurd (Bool.and_eq_true_iff.1 hname).1 (by decide)

/-- The text `s` is read as `e` wherever an operand of the level `n` may stand. An
operand that stands by itself does not begin with a sign. -/
def Reads (s : String) (e : Expr) (n : Nat) : Prop :=
  ∃ ts, (∀ rest, Ends rest → Lexes s ts rest) ∧ Reader.Parses ts e n ∧ (4 ≤ n → Unsigned s)

theorem read_of_reads {s : String} {e : Expr} {n : Nat} (h : Reads s e n) : read s = some e := by
  obtain ⟨ts, hlexes, hparses, -⟩ := h
  have hlex := hlexes [] rfl
  rw [Lexes, List.append_nil, lex_nil, Option.map_some, List.append_nil] at hlex
  obtain ⟨operand, below, hrun, hreduce⟩ := hparses [] trivial
  have hwhole : Reader.whole? operand below = some e := by
    rw [Reader.whole?, hreduce 0 (Nat.zero_le _)]
    rfl
  rw [read, hlex, Option.bind_eq_bind, Option.bind_some, hrun, Option.bind_eq_bind,
    Option.bind_some, Reader.finish, hwhole]

section Reads

variable {s t : String} {e e' : Expr} {n m : Nat}

theorem Reads.mono (h : Reads s e n) (hm : m ≤ n) : Reads s e m := by
  obtain ⟨ts, hlexes, hparses, hunsigned⟩ := h
  refine ⟨ts, hlexes, fun stack hstack => ?_, fun h => hunsigned (h.trans hm)⟩
  obtain ⟨operand, below, hrun, hreduce⟩ := hparses stack (hstack.mono hm)
  exact ⟨operand, below, hrun, fun p hp => hreduce p (hp.trans hm)⟩

theorem reads_name {name : String} (h : '\\' ∉ name.toList) :
    Reads (Dialect.quoteName .bigQuery name) (.ofColumn name) 4 :=
  ⟨_, fun rest _ => lexes_name h rest, Reader.parses_of_token fun _ => rfl, fun _ =>
    ⟨'\x60', _, String.toList_ofList, by decide⟩⟩

theorem reads_text (value : String) :
    Reads (Dialect.quoteText .bigQuery value) (.ofText value) 4 :=
  ⟨_, fun rest _ => lexes_text value rest, Reader.parses_of_token fun _ => rfl, fun _ =>
    ⟨'\'', _, String.toList_ofList, by decide⟩⟩

theorem reads_number {digits : String} (h : Formula.IsNumber digits) :
    Reads digits (.raw digits) 4 := by
  refine ⟨_, fun rest hrest => lexes_number h hrest, Reader.parses_of_token fun _ => rfl,
    fun _ => ?_⟩
  obtain ⟨c, cs, hcs, hc⟩ := h.exists_cons
  exact ⟨c, cs, hcs, by rintro rfl; revert hc; decide⟩

theorem Reads.group (h : Reads s e n) : Reads ("(" ++ s ++ ")") e 4 := by
  obtain ⟨ts, hlexes, hparses, -⟩ := h
  refine ⟨_, fun rest _ => ?_, hparses.group, fun _ => ?_⟩
  · refine .append (.append (lexes_opening _) (hlexes _ ?_)) (lexes_closing rest)
    rfl
  · exact Unsigned.append (Unsigned.append ⟨'(', [], rfl, by decide⟩ s) ")"

/-- An operand that gets parentheses if it does not bind tightly enough. -/
theorem Reads.parenthesizedIf (h : Reads s e n) {needed : Bool} (hm : m ≤ 4)
    (hn : needed = true ∨ m ≤ n) : Reads (Expr.parenthesizedIf needed s) e m := by
  cases needed with
  | false => exact h.mono (hn.resolve_left Bool.false_ne_true)
  | true => exact h.group.mono hm

theorem Reads.negate (h : Reads s e 4) : Reads ("-" ++ s) (.negate e) 3 := by
  obtain ⟨ts, hlexes, hparses, hunsigned⟩ := h
  obtain ⟨c, cs, hs, hc⟩ := hunsigned (Nat.le_refl 4)
  refine ⟨_, fun rest hrest => ?_, hparses.negate, fun h => absurd h (by decide)⟩
  exact (lexes_minus (by simpa [hs] using hc)).append (hlexes rest hrest)

theorem Reads.binary {op : BinaryOp} (hl : Reads s e n) (hr : Reads t e' m)
    (hop : 0 < op.precedence) (hn : op.precedence ≤ n) (hm : op.precedence < m) :
    Reads (s ++ " " ++ op.symbol ++ " " ++ t) (.binary op e e') op.precedence := by
  obtain ⟨ts, hlexes, hparses, -⟩ := hl
  obtain ⟨ts', hlexes', hparses', -⟩ := hr
  have hsymbol (rest : List Char) : Lexes op.symbol [.op op] (' ' :: rest) :=
    lexes_symbol (by rintro rfl; cases hop) (by rintro rfl; cases hop) rest
  refine ⟨ts ++ [] ++ [.op op] ++ [] ++ ts', fun rest hrest => ?_, ?_, fun h => ?_⟩
  · refine .append (.append (.append (.append (hlexes _ ?_) (lexes_blank _)) (hsymbol _))
      (lexes_blank _)) (hlexes' rest hrest)
    rfl
  · simpa using hparses.binary hparses' hn hm
  · exact absurd h (by cases op <;> decide)

/-! ## Calls -/

section Steps

variable {word : String} {operand : Expr} {below stack : List Reader.Frame} {done : List Expr}

theorem next_closing (h : Reader.reduce 0 operand below = (e, .call word done :: stack)) :
    Reader.next (.operator operand below) .closing =
      (Reader.call? word (e :: done).reverse).map fun e => .after (Reader.complete e stack) := by
  rw [Reader.next, Reader.operatorAt, h]
  · rfl
  · rintro _ ⟨⟩

/-- Before a separator an argument is done. -/
theorem next_separator (h : Reader.reduce 0 operand below = (e, .call word done :: stack)) :
    Reader.next (.operator operand below) (Reader.separator word) =
      some (.operand (.call word (e :: done) :: stack)) := by
  unfold Reader.separator
  split
  all_goals
    rw [Reader.next, Reader.operatorAt, h]
    · simp [Reader.endAt, Reader.separator, *]
    · rintro _ ⟨⟩

end Steps

/-- Between the parentheses of a call of `word`, the tokens make it `e`. -/
def Fills (word : String) (ts : List Token) (e : Expr) : Prop :=
  ∀ stack, (ts ++ [Token.closing]).foldlM Reader.next (.operand (.call word [] :: stack)) =
    some (.after (Reader.complete e stack))

theorem reads_of_fills {word inner : String} (ts : List Token) (hword : IsWord word)
    (hdistinct : word ≠ "DISTINCT") (hlexes : ∀ rest, Lexes inner ts (')' :: rest))
    (hfills : Fills word ts e) : Reads (word ++ "(" ++ inner ++ ")") e 4 := by
  refine ⟨[.word word] ++ [.opening] ++ ts ++ [.closing], fun rest _ => ?_, fun stack _ => ?_,
    fun _ => (((unsigned_of_isWord hword).append _).append _).append _⟩
  · refine .append (.append (.append (lexes_word hword ?_) (lexes_opening _)) (hlexes rest))
      (lexes_closing rest)
    rfl
  · refine ⟨_, _, ?_, fun _ _ => rfl⟩
    have hopen : [.word word, .opening].foldlM Reader.next (.operand stack) =
        some (.operand (.call word [] :: stack)) := by
      simp [Reader.next, Reader.operandAt, hdistinct]
    rw [List.append_assoc, List.foldlM_append, List.singleton_append, hopen, Option.bind_eq_bind,
      Option.bind_some, hfills, Reader.Reading.after]

/-- In a call, every argument but the last is done. -/
theorem parses_arguments (word : String) (hcomma : Reader.separator word = .comma)
    {ss : List String} {es : List Expr} (h : List.Forall₂ (fun s e => ∃ n, Reads s e n) ss es)
    (hne : es ≠ []) :
    ∃ ts, (∀ rest, Ends rest → Lexes (", ".intercalate ss) ts rest) ∧
      ∀ done stack, ∃ operand below last done',
        ts.foldlM Reader.next (.operand (.call word done :: stack)) =
          some (.operator operand below) ∧
        Reader.reduce 0 operand below = (last, .call word done' :: stack) ∧
        last :: done' = es.reverse ++ done := by
  induction h with
  | nil => exact absurd rfl hne
  | @cons s e ss es hs hrest ih =>
    obtain ⟨n, ts, hlexes, hparses, -⟩ := hs
    have hinside := fun done => hparses.inside (.inr ⟨word, done, rfl⟩)
    cases hrest with
    | nil =>
      refine ⟨ts, by rwa [String.intercalate_singleton], fun done stack => ?_⟩
      obtain ⟨operand, below, hrun, hreduce⟩ := hinside done stack
      exact ⟨operand, below, e, done, hrun, hreduce, rfl⟩
    | @cons s' e' ss es _ _ =>
      obtain ⟨ts', hlexes', hparses'⟩ := ih (List.cons_ne_nil _ _)
      refine ⟨ts ++ [.comma] ++ ts', fun rest hends => ?_, fun done stack => ?_⟩
      · rw [String.intercalate_cons_cons]
        refine .append (.append (hlexes _ ?_) (lexes_comma _)) (hlexes' rest hends)
        rfl
      · obtain ⟨operand, below, hrun, hreduce⟩ := hinside done stack
        obtain ⟨operand', below', last, done', hrun', hreduce', hdone⟩ := hparses' (e :: done) stack
        refine ⟨operand', below', last, done', ?_, hreduce', by simpa using hdone⟩
        simp [List.foldlM_append, hrun, ← hcomma, next_separator hreduce, hrun']

theorem reads_call (word : String) (hword : IsWord word) (hdistinct : word ≠ "DISTINCT")
    (hcomma : Reader.separator word = .comma) {ss : List String} {es : List Expr}
    (h : List.Forall₂ (fun s e => ∃ n, Reads s e n) ss es) (hne : es ≠ [])
    (hcall : Reader.call? word es = some e) :
    Reads (word ++ "(" ++ ", ".intercalate ss ++ ")") e 4 := by
  obtain ⟨ts, hlexes, hparses⟩ := parses_arguments word hcomma h hne
  refine reads_of_fills ts hword hdistinct (fun rest => hlexes _ rfl) fun stack => ?_
  obtain ⟨operand, below, last, done, hrun, hreduce, hdone⟩ := hparses [] stack
  rw [List.foldlM_append, hrun, Option.bind_eq_bind, Option.bind_some]
  simp [next_closing hreduce, hdone, hcall]

/-- A call whose only argument comes after `DISTINCT`. -/
theorem reads_distinct {word start : String} (hword : IsWord word) (hdistinct : word ≠ "DISTINCT")
    (hstart : start = word ++ "(" ++ ("DISTINCT" ++ " ")) (h : Reads s e n)
    (hcall : Reader.call? (word ++ " DISTINCT") [e] = some e') :
    Reads (start ++ s ++ ")") e' 4 := by
  obtain ⟨ts, hlexes, hparses, -⟩ := h
  have htext : start ++ s ++ ")" = word ++ "(" ++ ("DISTINCT" ++ " " ++ s) ++ ")" := by
    rw [hstart]
    simp only [String.append_assoc]
  rw [htext]
  refine reads_of_fills ([.word "DISTINCT"] ++ [] ++ ts) hword hdistinct (fun rest => ?_)
    fun stack => ?_
  · refine .append (.append (lexes_word (by decide) ?_) (lexes_blank _)) (hlexes _ ?_)
    · rfl
    · rfl
  · obtain ⟨operand, below, hrun, hreduce⟩ :=
      hparses.inside (.inr ⟨word ++ " DISTINCT", [], rfl⟩) stack
    have hmark : Reader.next (.operand (.call word [] :: stack)) (.word "DISTINCT") =
        some (.operand (.call (word ++ " DISTINCT") [] :: stack)) := rfl
    simp [List.foldlM_append, hmark, hrun, next_closing hreduce, hcall]

theorem reads_cast (h : Reads s e n) :
    Reads ("CAST(" ++ s ++ " AS " ++ "STRING" ++ ")") (.call .castToString [e]) 4 := by
  obtain ⟨ts, hlexes, hparses, -⟩ := h
  have hreads : Reads ("CAST" ++ "(" ++ (s ++ " " ++ "AS" ++ " " ++ "STRING") ++ ")")
      (.call .castToString [e]) 4 := by
    refine reads_of_fills (ts ++ [] ++ [.word "AS"] ++ [] ++ [.word "STRING"])
      (by decide) (by decide) (fun rest => ?_) fun stack => ?_
    · refine .append (.append (.append (.append (hlexes _ ?_) (lexes_blank _))
        (lexes_word (by decide) ?_)) (lexes_blank _)) (lexes_word (by decide) ?_)
      · rfl
      · rfl
      · rfl
    · obtain ⟨operand, below, hrun, hreduce⟩ := hparses.inside (.inr ⟨"CAST", [], rfl⟩) stack
      have has : Reader.next (.operator operand below) (.word "AS") =
          some (.operand (.call "CAST" [e] :: stack)) := next_separator hreduce
      simp only [List.append_nil, List.append_assoc, List.foldlM_append, hrun]
      simp [has]
      rfl
  have htext : "CAST(" ++ s ++ " AS " ++ "STRING" ++ ")" =
      "CAST" ++ "(" ++ (s ++ " " ++ "AS" ++ " " ++ "STRING") ++ ")" := by
    rw [show "CAST(" = "CAST" ++ "(" from rfl,
      show " AS " = " " ++ "AS" ++ " " from rfl]
    simp only [String.append_assoc]
  exact htext ▸ hreads

/-- The later date comes first, and what the difference is counted in last. -/
theorem reads_dateDiff (hs : Reads s e n) (ht : Reads t e' m) :
    Reads ("DATE_DIFF(" ++ t ++ ", " ++ s ++ ", DAY)") (.call .dateDiff [e, e']) 4 := by
  obtain ⟨ts, hlexes, hparses⟩ := parses_arguments "DATE_DIFF" rfl
    (.cons ⟨m, ht⟩ (.cons ⟨n, hs⟩ .nil)) (List.cons_ne_nil _ _)
  have hreads : Reads ("DATE_DIFF" ++ "(" ++ (", ".intercalate [t, s] ++ ", " ++ "DAY") ++ ")")
      (.call .dateDiff [e, e']) 4 := by
    refine reads_of_fills (ts ++ [.comma] ++ [.word "DAY"])
      (by decide) (by decide) (fun rest => ?_) fun stack => ?_
    · refine .append (.append (hlexes _ ?_) (lexes_comma _)) (lexes_word (by decide) ?_)
      · rfl
      · rfl
    · obtain ⟨operand, below, last, done, hrun, hreduce, hdone⟩ := hparses [] stack
      obtain ⟨hlast, hdone⟩ := List.cons.inj hdone
      rw [hlast, hdone] at hreduce
      have hcomma : Reader.next (.operator operand below) .comma =
          some (.operand (.call "DATE_DIFF" [e, e'] :: stack)) :=
        next_separator hreduce
      simp only [List.append_assoc, List.foldlM_append, hrun]
      simp [hcomma]
      rfl
  have htext : "DATE_DIFF(" ++ t ++ ", " ++ s ++ ", DAY)" =
      "DATE_DIFF" ++ "(" ++ (", ".intercalate [t, s] ++ ", " ++ "DAY") ++ ")" := by
    rw [String.intercalate_cons_cons, String.intercalate_singleton,
      show "DATE_DIFF(" = "DATE_DIFF" ++ "(" from rfl,
      show ", DAY)" = ", " ++ "DAY" ++ ")" from rfl]
    simp only [String.append_assoc]
  exact htext ▸ hreads

end Reads

end MetricLayer.Sql
