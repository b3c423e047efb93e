import MetricLayer.Proofs.Sql.Guarding
import MetricLayer.Proofs.Sql.Keys
import MetricLayer.Proofs.Sql.Names
import MetricLayer.Proofs.Time.Date

/-!
# Texts between quotes

A text literal comes back from its quotes with all that was written after it, if no
quote follows at once (`Dialect.nextToken?_quoteText`); its escapes are replacements
in the whole value (`Dialect.quoteText_eq_replace`). The names and texts of an
expression are its only quoted tokens (`Expr.quoted`). Its text is `Woven` of them: it
is characters that quote nothing, names between quotes, and literals of which each is
read as its value from where it stands (`weaves_render`). A reader that looks for
quotes finds just these tokens, unless a name is one that does not come back
(`Woven.quotedIn?_eq_some`).
-/

namespace MetricLayer.Sql

namespace Dialect

/-! ## Literals that come back -/

/-- What stands before the closing quote of a text, and the number of characters up to
and with that quote. -/
def inText? : Dialect → List Char → Option (List Char × Nat)
  | .bigQuery => quoted? '\''
  | .duckDb => doubled? '\''

theorem tokenAt?_quote (d : Dialect) (cs : List Char) :
    d.tokenAt? '\'' cs =
      (d.inText? cs).map fun (inner, length) => (.text (String.ofList inner), length) := by
  cases d <;> rfl

theorem inText?_flatMap (d : Dialect) (inner : List Char) {rest : List Char}
    (hrest : rest.head? ≠ some '\'') :
    d.inText? (inner.flatMap d.escapeInText ++ '\'' :: rest) =
      some (inner, (inner.flatMap d.escapeInText).length + 1) := by
  cases d with
  | bigQuery =>
    refine quoted?_flatMap (by decide) (fun c _ => ?_) rest
    by_cases hc : c = '\\' ∨ c = '\''
    · exact .inl (by simp [escapeInText, hc])
    · rw [not_or] at hc
      exact .inr ⟨by simp [escapeInText, hc], hc.2, hc.1⟩
  | duckDb => exact doubled?_flatMap rfl (fun c hc => if_neg (by simpa using hc)) inner hrest

theorem nextToken?_quoteText (d : Dialect) (s : String) {rest : List Char}
    (hrest : rest.head? ≠ some '\'') :
    d.nextToken? ((d.quoteText s).toList ++ rest) = some (.text s, rest) := by
  rw [quoteText, String.toList_ofList, List.cons_append, List.cons_append, List.append_assoc,
    List.singleton_append, nextToken?, tokenAt?_quote, inText?_flatMap d _ hrest]
  simp [← List.drop_drop]

/-- The text of a literal in replacements of the whole value. Where a backslash escapes,
backslashes are escaped before quotes get theirs. -/
theorem quoteText_eq_replace (s : String) :
    quoteText .bigQuery s =
        "'" ++ Text.replace (Text.replace s "\\" "\\\\") "'" "\\'" ++ "'" ∧
      quoteText .duckDb s = "'" ++ Text.replace s "'" "''" ++ "'" := by
  have hquote : "'" = String.ofList ['\''] := rfl
  have hslash : "\\" = String.ofList ['\\'] := rfl
  refine ⟨?_, ?_⟩ <;> refine String.toList_injective ?_
  · rw [hslash, hquote, Text.replace_singleton, Text.replace_singleton]
    simp only [quoteText, String.toList_append, String.toList_ofList, List.flatMap_assoc,
      List.cons_append]
    congr 2
    refine List.flatMap_congr fun c _ => ?_
    by_cases hslash : c = '\\'
    · subst hslash
      rfl
    · by_cases hquote : c = '\''
      · subst hquote
        rfl
      · simp [escapeInText, hslash, hquote]
  · rw [hquote, Text.replace_singleton]
    simp only [quoteText, String.toList_append, String.toList_ofList, List.cons_append]
    congr 2
    refine List.flatMap_congr fun c _ => ?_
    by_cases hquote : c = '\''
    · subst hquote
      rfl
    · simp [escapeInText, hquote]

end Dialect

/-! ## The quoted tokens of an expression -/

/-- The value of a text. -/
def Token.texts : Token → List String
  | .text value => [value]
  | _ => []

mutual

/-- The texts that a value is written with. -/
def quotedOf : Json → List Token
  | .text s => [.text s]
  | .object fields => [.text (Json.object fields).toText]
  | .list items => (quotedOfAll items).flatten
  | .null | .bool _ | .integer _ | .float _ => []

def quotedOfAll : List Json → List (List Token)
  | [] => []
  | v :: rest => quotedOf v :: quotedOfAll rest

end

/-- The quoted tokens of a call with these in its arguments. -/
def Dialect.quotedOfCall (d : Dialect) (f : Function) (arguments : List (List Token)) :
    List Token :=
  if !canCall f arguments.length then []
  else match d, f, arguments with
    | .bigQuery, .dateDiff, [start, stop] => stop ++ start
    | .duckDb, .dateDiff, [start, stop] => .text "day" :: (start ++ stop)
    | _, _, arguments => arguments.flatten

namespace Expr

mutual

/-- The names and the texts of an expression as they are written, from left to right. -/
def quoted (d : Dialect) : Expr → List Token
  | .column none name => [.name name]
  | .column (some table) name => [.name table, .name name]
  | .literal value => quotedOf value
  | .date value => [.text value.text]
  | .wildcard | .raw _ => []
  | .call f arguments => d.quotedOfCall f (quotedList d arguments)
  | .cases branches otherwise => quotedBranches d branches ++ otherwise.quoted d
  | .binary _ l r => l.quoted d ++ r.quoted d
  | .negate inner | .nested inner | .countIf inner => inner.quoted d
  | .aggregate _ input => input.quoted d
  | .inList value list _ => value.quoted d ++ (quotedList d list).flatten

def quotedList (d : Dialect) : List Expr → List (List Token)
  | [] => []
  | e :: rest => e.quoted d :: quotedList d rest

def quotedBranches (d : Dialect) : List (Expr × Expr) → List Token
  | [] => []
  | (w, t) :: rest => w.quoted d ++ t.quoted d ++ quotedBranches d rest

end

/-- The texts among the quoted tokens. -/
def texts (d : Dialect) (e : Expr) : List String := (e.quoted d).flatMap Token.texts

theorem quotedList_eq_map (d : Dialect) (es : List Expr) :
    quotedList d es = es.map (quoted d) := by
  induction es with
  | nil => rfl
  | cons e es ih => rw [quotedList, List.map_cons, ih]

end Expr

/-! ## Texts woven of quoted tokens -/

/-- Whether a dialect quotes something by `c`. -/
def isQuote (c : Char) : Bool := ['\'', '"', '\x60'].contains c

/-- The text quotes nothing. -/
def Unquoted (s : String) : Prop := ∀ c ∈ s.toList, isQuote c = false

/-- Something stands there that quotes nothing. -/
def Parting (s : String) : Prop := s ≠ "" ∧ Unquoted s

/-- What comes next is no quote, so that it does not go on with quotes before it. -/
def Calm (rest : List Char) : Prop := rest.head?.any isQuote = false

instance (s : String) : Decidable (Unquoted s) := List.decidableBAll _ _
instance (s : String) : Decidable (Parting s) := inferInstanceAs (Decidable (_ ∧ _))

/-- The characters are the tokens in order, with others between them that quote nothing.
Read from where it stands, each text literal is a token with its value, and what was
written after it is left. -/
inductive Woven (d : Dialect) : List Token → List Char → Prop where
  | nil : Woven d [] []
  | outside {c : Char} {ts : List Token} {cs : List Char} (hc : c ≠ '\'' ∧ c ≠ d.nameQuote)
      (rest : Woven d ts cs) : Woven d ts (c :: cs)
  | name {name : String} {ts : List Token} {cs : List Char} (next : cs.head? ≠ some d.nameQuote)
      (rest : Woven d ts cs) : Woven d (.name name :: ts) ((d.quoteName name).toList ++ cs)
  | text {value : String} {ts : List Token} {cs : List Char}
      (read : d.nextToken? ((d.quoteText value).toList ++ cs) = some (.text value, cs))
      (rest : Woven d ts cs) : Woven d (.text value :: ts) ((d.quoteText value).toList ++ cs)

/-- In front of what is no quote, the text is woven of the tokens. -/
def Weaves (d : Dialect) (ts : List Token) (s : String) : Prop :=
  ∀ more rest, Calm rest → Woven d more rest → Woven d (ts ++ more) (s.toList ++ rest)

/-- The same, whatever comes next. -/
def Closes (d : Dialect) (ts : List Token) (s : String) : Prop :=
  ∀ more rest, Woven d more rest → Woven d (ts ++ more) (s.toList ++ rest)

variable {d : Dialect} {ts us : List Token} {s t p m q : String} {cs rest : List Char}

theorem isQuote_nameQuote (d : Dialect) : isQuote d.nameQuote = true := by cases d <;> decide

theorem ne_quotes_of_isQuote {c : Char} (h : isQuote c = false) : c ≠ '\'' ∧ c ≠ d.nameQuote := by
  constructor <;> rintro rfl
  · cases h
  · rw [isQuote_nameQuote] at h
    cases h

theorem Calm.head?_ne (h : Calm rest) {quote : Char} (hquote : isQuote quote = true) :
    rest.head? ≠ some quote := by
  intro hhead
  rw [Calm, hhead, Option.any_some, hquote] at h
  cases h

theorem Parting.calm (h : Parting s) (rest : List Char) : Calm (s.toList ++ rest) := by
  obtain ⟨c, cs, hcs⟩ := List.exists_cons_of_ne_nil (mt String.toList_eq_nil_iff.1 h.1)
  have hc := h.2 c (hcs ▸ List.mem_cons_self)
  rw [Calm, hcs]
  exact hc

theorem Woven.append_unquoted (h : Woven d ts rest) (hcs : ∀ c ∈ cs, isQuote c = false) :
    Woven d ts (cs ++ rest) := by
  induction cs with
  | nil => exact h
  | cons c cs ih =>
    rw [List.forall_mem_cons] at hcs
    exact .outside (ne_quotes_of_isQuote hcs.1) (ih hcs.2)

theorem closes_of_unquoted (h : Unquoted s) : Closes d [] s :=
  fun _ _ hrest => hrest.append_unquoted h

theorem weaves_quoteName (name : String) : Weaves d [.name name] (d.quoteName name) :=
  fun _ _ hcalm hrest => .name (hcalm.head?_ne (isQuote_nameQuote d)) hrest

theorem weaves_quoteText (value : String) : Weaves d [.text value] (d.quoteText value) :=
  fun _ _ hcalm hrest => .text (d.nextToken?_quoteText value (hcalm.head?_ne rfl)) hrest

/-! ## Composition -/

theorem Closes.weaves (h : Closes d ts s) : Weaves d ts s := fun more rest _ => h more rest

theorem Closes.append_weaves (h : Closes d ts s) (h' : Weaves d us t) :
    Weaves d (ts ++ us) (s ++ t) := by
  intro more rest hcalm hrest
  rw [String.toList_append, List.append_assoc, List.append_assoc]
  exact h _ _ (h' _ _ hcalm hrest)

/-- What begins without a quote comes after what it may come after. -/
theorem Weaves.append (h : Weaves d ts s) (h' : Weaves d us t)
    (ht : ∀ rest, Calm rest → Calm (t.toList ++ rest)) : Weaves d (ts ++ us) (s ++ t) := by
  intro more rest hcalm hrest
  rw [String.toList_append, List.append_assoc, List.append_assoc]
  exact h _ _ (ht _ hcalm) (h' _ _ hcalm hrest)

theorem Weaves.close (h : Weaves d ts s) (hq : Parting q) : Closes d ts (s ++ q) := by
  intro more rest hrest
  rw [String.toList_append, List.append_assoc]
  exact h _ _ (hq.calm rest) (hrest.append_unquoted hq.2)

theorem Weaves.enclose (h : Weaves d ts s) (hp : Unquoted p) (hq : Parting q) :
    Closes d ts (p ++ s ++ q) :=
  ((closes_of_unquoted hp).append_weaves h).close hq

/-- Two texts and what stands around them. -/
theorem Weaves.between (h : Weaves d ts s) (h' : Weaves d us t) (hp : Unquoted p) (hm : Parting m)
    (hq : Parting q) : Closes d (ts ++ us) (p ++ s ++ m ++ t ++ q) :=
  ((h.enclose hp hm).append_weaves h').close hq

theorem Weaves.intercalate {tss : List (List Token)} {texts : List String}
    (h : List.Forall₂ (Weaves d) tss texts) : Weaves d tss.flatten (", ".intercalate texts) := by
  induction h with
  | nil => exact (closes_of_unquoted (by decide)).weaves
  | @cons ts s tss texts hhead htail ih =>
    cases htail with
    | nil => simpa using hhead
    | cons =>
      rw [String.intercalate_cons_cons, List.flatten_cons]
      exact (hhead.close (by decide)).append_weaves ih

theorem Weaves.parenthesizedIf (h : Weaves d ts s) (needed : Bool) :
    Weaves d ts (Expr.parenthesizedIf needed s) := by
  cases needed with
  | false => exact h
  | true => exact (h.enclose (by decide) (by decide)).weaves

/-! ## Values -/

theorem isQuote_of_isNameChar {c : Char} (h : Text.isNameChar c = true) : isQuote c = false := by
  rw [← Bool.not_eq_true, isQuote, List.contains_iff_mem]
  intro hc
  simp only [List.mem_cons, List.not_mem_nil, or_false] at hc
  rcases hc with rfl | rfl | rfl <;> exact absurd h (by decide)

theorem isQuote_of_isDigit {c : Char} (h : c.isDigit = true) : isQuote c = false :=
  isQuote_of_isNameChar (by simp [Text.isNameChar, Char.isAlphanum, h])

theorem Unquoted.append (h : Unquoted s) (h' : Unquoted t) : Unquoted (s ++ t) := by
  intro c hc
  rw [String.toList_append, List.mem_append] at hc
  exact hc.elim (h c) (h' c)

theorem unquoted_ofList (h : ∀ c ∈ cs, isQuote c = false) : Unquoted (String.ofList cs) := by
  rwa [Unquoted, String.toList_ofList]

theorem isQuote_of_mem_toDigits {n : Nat} {c : Char} (h : c ∈ Nat.toDigits 10 n) :
    isQuote c = false :=
  isQuote_of_isDigit (Nat.isDigit_of_mem_toDigits (by decide) (by decide) h)

theorem unquoted_integer (n : Int) : Unquoted (toString n) := by
  cases n with
  | ofNat n => exact fun c hc => isQuote_of_mem_toDigits (Nat.toList_repr ▸ hc)
  | negSucc n =>
    have hnat : Unquoted (Nat.repr (n + 1)) :=
      fun c hc => isQuote_of_mem_toDigits (Nat.toList_repr ▸ hc)
    exact Unquoted.append (s := "-") (by decide) hnat

theorem unquoted_float (x : Binary64) : Unquoted x.text := by
  have hsign : Unquoted (if x.isNegative then "-" else "") := by split <;> decide
  have hzeros (k : Nat) : Unquoted (String.ofList (List.replicate k '0')) :=
    unquoted_ofList fun c hc => by
      rw [List.eq_of_mem_replicate hc]
      rfl
  unfold Binary64.text
  generalize x.shortest = decimal
  obtain ⟨n, p⟩ := decimal
  -- the digits that are left of the decimal
  have hdigits : ∀ c ∈ ((Nat.toDigits 10 n).reverse.dropWhile (· == '0')).reverse,
      isQuote c = false := by
    intro c hc
    have hkept := (List.dropWhile_sublist _).subset (List.mem_reverse.1 hc)
    exact isQuote_of_mem_toDigits (List.mem_reverse.1 hkept)
  dsimp only
  generalize ((Nat.toDigits 10 n).reverse.dropWhile (· == '0')).reverse = digits at hdigits ⊢
  have htake (k : Nat) : Unquoted (String.ofList (digits.take k)) :=
    unquoted_ofList fun c hc => hdigits c (List.mem_of_mem_take hc)
  have hdrop (k : Nat) : Unquoted (String.ofList (digits.drop k)) :=
    unquoted_ofList fun c hc => hdigits c (List.mem_of_mem_drop hc)
  split
  · exact hsign.append (by decide)
  split
  · exact ((hsign.append (unquoted_ofList hdigits)).append (hzeros _)).append (by decide)
  split
  · exact ((hsign.append (htake _)).append (by decide)).append (hdrop _)
  split
  · exact ((hsign.append (by decide)).append (hzeros _)).append (unquoted_ofList hdigits)
  · have htail : Unquoted
        (if (digits.drop 1).isEmpty then "" else "." ++ String.ofList (digits.drop 1)) := by
      split
      · decide
      · exact Unquoted.append (by decide) (hdrop 1)
    exact (((hsign.append (htake 1)).append htail).append (by decide)).append (unquoted_integer _)

/-- What needs no escape is written as it is. -/
theorem quoteText_of_plain (h : ∀ c ∈ s.toList, c ≠ '\\' ∧ c ≠ '\'') :
    d.quoteText s = "'" ++ s ++ "'" := by
  have hescape : s.toList.flatMap d.escapeInText = s.toList.flatMap fun c => [c] :=
    List.flatMap_congr fun c hc => by cases d <;> simp [Dialect.escapeInText, h c hc]
  refine String.toList_injective ?_
  rw [Dialect.quoteText, hescape, List.flatMap_singleton', String.toList_ofList,
    String.toList_append, String.toList_append]
  rfl

theorem weaves_date (value : Date) :
    Weaves d [.text value.text] ("DATE '" ++ value.text ++ "'") := by
  have hplain : ∀ c ∈ value.text.toList, c ≠ '\\' ∧ c ≠ '\'' := by
    intro c hc
    obtain h | rfl | rfl := value.isDigit_or_sign_of_mem_text hc
    · constructor <;> rintro rfl <;> cases h
    · decide
    · decide
  have htext : "DATE '" ++ value.text ++ "'" = "DATE " ++ d.quoteText value.text := by
    rw [quoteText_of_plain hplain, ← String.append_assoc, ← String.append_assoc]
    rfl
  rw [htext]
  exact (closes_of_unquoted (s := "DATE ") (by decide)).append_weaves (weaves_quoteText value.text)

mutual

theorem weaves_literal : (v : Json) → Weaves d (quotedOf v) (d.literal v)
  | .text s => weaves_quoteText s
  | .object _ => weaves_quoteText _
  | .list items => .intercalate (weaves_literals items)
  | .null => (closes_of_unquoted (s := "NULL") (by decide)).weaves
  | .bool true => (closes_of_unquoted (s := "true") (by decide)).weaves
  | .bool false => (closes_of_unquoted (s := "false") (by decide)).weaves
  | .integer n => (closes_of_unquoted (unquoted_integer n)).weaves
  | .float x => (closes_of_unquoted (unquoted_float x)).weaves

theorem weaves_literals : (vs : List Json) →
    List.Forall₂ (Weaves d) (quotedOfAll vs) (d.literals vs)
  | [] => .nil
  | v :: vs => .cons (weaves_literal v) (weaves_literals vs)

end

/-! ## Calls -/

theorem unquoted_spelling (f : Function) : Unquoted (d.spelling f) :=
  fun c hc => isQuote_of_isNameChar (isNameChar_spelling f c hc)

theorem quotedOfCall_of_ne {f : Function} {tss : List (List Token)} (hdate : f ≠ .dateDiff)
    (hcan : Dialect.canCall f tss.length = true) : d.quotedOfCall f tss = tss.flatten := by
  unfold Dialect.quotedOfCall
  rw [if_neg (by simp [hcan])]
  split
  · exact absurd rfl hdate
  · exact absurd rfl hdate
  · rfl

theorem Expr.texts_call {f : Function} {es : List Expr} (hdate : f ≠ .dateDiff)
    (hcan : Dialect.canCall f es.length = true) :
    (Expr.call f es).texts d = es.flatMap (Expr.texts d) := by
  rw [Expr.texts, Expr.quoted, Expr.quotedList_eq_map,
    quotedOfCall_of_ne hdate (by rwa [List.length_map]), ← List.flatMap_def, List.flatMap_assoc]
  rfl

/-- The one dialect writes the later date first, the other one the unit. -/
theorem weaves_dateDiff (h : Weaves d ts s) (h' : Weaves d us t) :
    Closes d (d.quotedOfCall .dateDiff [ts, us]) (d.call .dateDiff [s, t]) := by
  cases d with
  | bigQuery => exact h'.between h (by decide) (by decide) (by decide)
  | duckDb =>
    have hunit : Closes .duckDb [.text "day"]
        ("date_diff(" ++ Dialect.quoteText .duckDb "day" ++ ", ") :=
      (weaves_quoteText "day").enclose (by decide) (by decide)
    have hstart := (hunit.append_weaves h).close (q := ", ") (by decide)
    have hstop := (hstart.append_weaves h').close (q := ")") (by decide)
    rwa [List.append_assoc] at hstop

/-- A call is woven of what its arguments are. -/
theorem weaves_call {f : Function} {tss : List (List Token)} {texts : List String}
    (h : List.Forall₂ (Weaves d) tss texts) : Closes d (d.quotedOfCall f tss) (d.call f texts) := by
  by_cases hcan : Dialect.canCall f texts.length = true
  · by_cases hdate : f = .dateDiff
    · subst hdate
      obtain ⟨s, t, rfl⟩ := List.length_eq_two.1 (beq_iff_eq.1 hcan)
      obtain _ | ⟨hs, _ | ⟨ht, _ | _⟩⟩ := h
      exact weaves_dateDiff hs ht
    · rw [quotedOfCall_of_ne hdate (h.length_eq ▸ hcan)]
      unfold Dialect.call
      rw [if_neg (by simp [hcan])]
      split
      · exact absurd rfl hdate
      · exact absurd rfl hdate
      · obtain _ | ⟨hs, _ | ⟨ht, _ | _⟩⟩ := h
        simpa using hs.between ht (p := "(") (m := ") / NULLIF(") (q := ", 0)") (by decide)
          (by decide) (by decide)
      · obtain _ | ⟨hs, _ | _⟩ := h
        have htype : Parting (" AS " ++ d.textType ++ ")") := by cases d <;> decide
        simpa [String.append_assoc] using hs.enclose (p := "CAST(") (by decide) htype
      · exact (Weaves.intercalate h).enclose ((unquoted_spelling f).append (by decide)) (by decide)
  · unfold Dialect.quotedOfCall Dialect.call
    rw [h.length_eq, if_pos (by simp [hcan]), if_pos (by simp [hcan])]
    exact closes_of_unquoted (by decide)

theorem weaves_aggregate (h : Weaves d ts s) (a : Aggregation) :
    Closes d ts (Dialect.aggregate a s) := by
  cases a <;> exact h.enclose (by decide) (by decide)

theorem weaves_countIf (h : Weaves d ts s) : Closes d ts (d.countIf s) := by
  cases d <;> exact h.enclose (by decide) (by decide)

/-! ## Expressions -/

/-- If it is SQL that is already written, it quotes nothing. -/
def Expr.QuotesNothing : Expr → Prop
  | .raw sql => Unquoted sql
  | _ => True

theorem calm_renderBranches (branches : List (Expr × Expr)) (hrest : Calm rest) :
    Calm ((Expr.renderBranches d branches).toList ++ rest) := by
  cases branches with
  | nil => exact hrest
  | cons branch branches =>
    rw [Expr.renderBranches]
    simp only [String.toList_append]
    rfl

mutual

/-- An expression is woven of its names and texts, where what is already written quotes
nothing. -/
theorem weaves_render : (e : Expr) → (∀ node ∈ e.nodes, node.QuotesNothing) →
    Weaves d (e.quoted d) (e.render d)
  | .column none name, _ => weaves_quoteName name
  | .column (some table) name, _ =>
    ((weaves_quoteName table).close (q := ".") (by decide)).append_weaves (weaves_quoteName name)
  | .literal value, _ => weaves_literal value
  | .date value, _ => weaves_date value
  | .wildcard, _ => (closes_of_unquoted (s := "*") (by decide)).weaves
  | .raw sql, h => (closes_of_unquoted (h (.raw sql) List.mem_cons_self)).weaves
  | .call f arguments, h =>
    (weaves_call (weaves_renderList arguments (List.forall_mem_cons.1 h).2)).weaves
  | .cases branches otherwise, h => by
    rw [Expr.nodes, List.forall_mem_cons, List.forall_mem_append] at h
    have hbranches := (closes_of_unquoted (d := d) (s := "CASE") (by decide)).append_weaves
      (weaves_renderBranches branches h.2.1)
    exact (((hbranches.close (q := " ELSE ") (by decide)).append_weaves
      (weaves_render otherwise h.2.2)).close (q := " END") (by decide)).weaves
  | .binary op l r, h => by
    rw [Expr.nodes, List.forall_mem_cons, List.forall_mem_append] at h
    have hsymbol : Parting (" " ++ op.symbol ++ " ") := by cases op <;> decide
    have hleft := (weaves_render l h.2.1).close hsymbol
    rw [← String.append_assoc, ← String.append_assoc] at hleft
    exact hleft.append_weaves ((weaves_render r h.2.2).parenthesizedIf _)
  | .negate operand, h =>
    (closes_of_unquoted (s := "-") (by decide)).append_weaves
      ((weaves_render operand (List.forall_mem_cons.1 h).2).parenthesizedIf _)
  | .nested inner, h =>
    ((weaves_render inner (List.forall_mem_cons.1 h).2).enclose
      (p := "(") (q := ")") (by decide) (by decide)).weaves
  | .aggregate a input, h =>
    (weaves_aggregate (weaves_render input (List.forall_mem_cons.1 h).2) a).weaves
  | .countIf condition, h =>
    (weaves_countIf (weaves_render condition (List.forall_mem_cons.1 h).2)).weaves
  | .inList value list negated, h => by
    rw [Expr.nodes, List.forall_mem_cons, List.forall_mem_append] at h
    have hin : Parting (if negated then " NOT IN (" else " IN (") := by
      cases negated <;> decide
    exact (((weaves_render value h.2.1).close hin).append_weaves
      (.intercalate (weaves_renderList list h.2.2))).close (q := ")") (by decide) |>.weaves

theorem weaves_renderList : (es : List Expr) → (∀ node ∈ Expr.nodesOf es, node.QuotesNothing) →
    List.Forall₂ (Weaves d) (Expr.quotedList d es) (Expr.renderList d es)
  | [], _ => .nil
  | e :: es, h => by
    rw [Expr.nodesOf, List.forall_mem_append] at h
    exact .cons (weaves_render e h.1) (weaves_renderList es h.2)

theorem weaves_renderBranches : (branches : List (Expr × Expr)) →
    (∀ node ∈ Expr.branchNodes branches, node.QuotesNothing) →
    Weaves d (Expr.quotedBranches d branches) (Expr.renderBranches d branches)
  | [], _ => (closes_of_unquoted (s := "") (by decide)).weaves
  | (w, t) :: rest, h => by
    rw [Expr.branchNodes, List.forall_mem_append, List.forall_mem_append] at h
    have hwhen := (weaves_render w h.1.1).enclose (p := " WHEN ") (q := " THEN ") (by decide)
      (by decide)
    exact (hwhen.append_weaves (weaves_render t h.1.2)).append (weaves_renderBranches rest h.2)
      fun _ => calm_renderBranches rest

end

/-! ## Finding the quotes -/

/-- The quoted tokens that come after so many characters. -/
def quotedAfter? (d : Dialect) : Nat → List Char → Option (List Token)
  | _, [] => some []
  | skip + 1, _ :: cs => quotedAfter? d skip cs
  | 0, c :: cs =>
    if c == '\'' || c == d.nameQuote then
      (d.tokenAt? c cs).bind fun (token, length) => (quotedAfter? d length cs).map (token :: ·)
    else quotedAfter? d 0 cs

/-- The quoted tokens of a text, as the warehouse of the dialect splits it. -/
def quotedIn? (d : Dialect) (cs : List Char) : Option (List Token) := quotedAfter? d 0 cs

theorem quotedAfter?_eq (skip : Nat) (cs : List Char) :
    quotedAfter? d skip cs = quotedIn? d (cs.drop skip) := by
  induction cs generalizing skip with
  | nil => simp [quotedIn?, quotedAfter?]
  | cons c cs ih =>
    cases skip with
    | zero => rfl
    | succ skip => exact ih skip

theorem quotedIn?_of_token {c : Char} {token : Token} (hc : c = '\'' ∨ c = d.nameQuote)
    (h : d.nextToken? (c :: cs) = some (token, rest)) :
    quotedIn? d (c :: cs) = (quotedIn? d rest).map (token :: ·) := by
  obtain ⟨⟨token, length⟩, htoken, heq⟩ := Option.map_eq_some_iff.1 h
  obtain ⟨rfl, rfl⟩ := Prod.mk.inj heq
  rw [quotedIn?, quotedAfter?, if_pos (by simpa using hc), htoken, ← quotedAfter?_eq]
  rfl

theorem quotedIn?_of_ne {c : Char} (hc : c ≠ '\'' ∧ c ≠ d.nameQuote) :
    quotedIn? d (c :: cs) = quotedIn? d cs :=
  if_neg (by simpa using hc)

/-- A reader that looks for quotes finds the tokens that a text is woven of, if all its
names come back. -/
theorem Woven.quotedIn?_eq_some (h : Woven d ts cs)
    (hnames : d = .bigQuery → ∀ name, .name name ∈ ts → '\\' ∉ name.toList) :
    quotedIn? d cs = some ts := by
  induction h with
  | nil => rfl
  | outside hc _ ih => rw [quotedIn?_of_ne hc, ih hnames]
  | @name name ts cs next _ ih =>
    have hread : d.nextToken? ((d.quoteName name).toList ++ cs) = some (.name name, cs) :=
      Dialect.nextToken?_quoteName_eq_iff.2 ⟨_, Dialect.inName?_closedName next
        fun hd => hnames hd name List.mem_cons_self, List.take_left⟩
    rw [Dialect.toList_quoteName, List.cons_append] at hread ⊢
    rw [quotedIn?_of_token (.inr rfl) hread,
      ih fun hd name hname => hnames hd name (List.mem_cons_of_mem _ hname)]
    rfl
  | @text value ts cs read _ ih =>
    have hquote : (d.quoteText value).toList =
        '\'' :: (value.toList.flatMap d.escapeInText ++ ['\'']) := String.toList_ofList
    rw [hquote, List.cons_append] at read ⊢
    rw [quotedIn?_of_token (.inl rfl) read,
      ih fun hd name hname => hnames hd name (List.mem_cons_of_mem _ hname)]
    rfl

end MetricLayer.Sql
