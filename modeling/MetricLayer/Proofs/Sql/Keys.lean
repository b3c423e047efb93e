import MetricLayer.Proofs.Sql.Evaluation
import MetricLayer.Sql.CompositeKey

/-!
# What composite keys say

How texts are computed with (`Engine.Textual`), and what the expression of a
composite key is worth: the columns of a row, each written so that no bar is left
in it, with bars in between (`keyOf`). The columns can be read back from that text
(`keyOf_inj`), so two rows have the same key where they agree on every column
(`Expr.eval_compositeKey_eq_iff`).
-/

namespace MetricLayer.Text

/-- `cs` without its first `skipped` characters and with every occurrence of
`part` in the rest replaced, from left to right. -/
def replaceFrom (part replacement : List Char) : Nat → List Char → List Char
  | _, [] => []
  | skipped + 1, _ :: cs => replaceFrom part replacement skipped cs
  | 0, c :: cs =>
    if part.isPrefixOf (c :: cs) then
      replacement ++ replaceFrom part replacement (part.length - 1) cs
    else c :: replaceFrom part replacement 0 cs

/-- Nothing is replaced where `part` is empty. -/
def replace (s part replacement : String) : String :=
  if part.isEmpty then s
  else String.ofList (replaceFrom part.toList replacement.toList 0 s.toList)

/-- One character is replaced wherever it stands. -/
theorem replaceFrom_singleton (c : Char) (replacement cs : List Char) :
    replaceFrom [c] replacement 0 cs = cs.flatMap fun x => if x = c then replacement else [x] := by
  induction cs with
  | nil => rfl
  | cons x cs ih =>
    rw [replaceFrom, List.flatMap_cons]
    by_cases hx : x = c
    · subst hx
      simp [ih]
    · simp [hx, Ne.symm hx, ih]

theorem replace_singleton (s replacement : String) (c : Char) :
    replace s (String.ofList [c]) replacement =
      String.ofList (s.toList.flatMap fun x => if x = c then replacement.toList else [x]) := by
  have hempty : (String.ofList [c]).isEmpty = false := by simp
  rw [replace, hempty, if_neg Bool.false_ne_true, String.toList_ofList, replaceFrom_singleton]

end MetricLayer.Text

namespace MetricLayer.Sql

/-! ## The text of a key -/

/-- What stands for a character of a column. -/
def escapeChar (c : Char) : List Char :=
  if c = '~' then ['~', '~'] else if c = '|' then ['~', 'p'] else [c]

def escape (cs : List Char) : List Char := cs.flatMap escapeChar

def unescape : List Char → List Char
  | '~' :: '~' :: cs => '~' :: unescape cs
  | '~' :: 'p' :: cs => '|' :: unescape cs
  | c :: cs => c :: unescape cs
  | [] => []

/-- A column as a part of a key. -/
def keyPartOf : Option String → List Char
  | none => ['~', 'n']
  | some s => escape s.toList

def ofKeyPart : List Char → Option String
  | ['~', 'n'] => none
  | cs => some (String.ofList (unescape cs))

/-- The key of some columns. -/
def keyOf (values : List (Option String)) : String :=
  String.ofList (['|'].intercalate (values.map keyPartOf))

/-- The tildes are written twice before there is a tilde for a bar. -/
theorem escape_eq_replace (s : String) :
    Text.replace (Text.replace s "~" "~~") "|" "~p" = String.ofList (escape s.toList) := by
  rw [show "~" = String.ofList ['~'] from rfl, show "|" = String.ofList ['|'] from rfl,
    Text.replace_singleton, Text.replace_singleton]
  simp only [String.toList_ofList, List.flatMap_assoc]
  congr 1
  refine List.flatMap_congr fun c _ => ?_
  by_cases htilde : c = '~'
  · subst htilde
    rfl
  · rw [if_neg htilde, escapeChar, if_neg htilde, List.flatMap_singleton]
    rfl

theorem unescape_cons {c : Char} (h : c ≠ '~') (cs : List Char) :
    unescape (c :: cs) = c :: unescape cs := by
  rw [unescape] <;> exact fun _ hc => absurd hc h

theorem unescape_escape (cs : List Char) : unescape (escape cs) = cs := by
  induction cs with
  | nil => rfl
  | cons c cs ih =>
    rw [escape, List.flatMap_cons, ← escape, escapeChar]
    split
    · rename_i htilde
      rw [htilde, List.cons_append, List.singleton_append, unescape, ih]
    · rename_i htilde
      split
      · rename_i hbar
        rw [hbar, List.cons_append, List.singleton_append, unescape, ih]
      · rw [List.singleton_append, unescape_cons htilde, ih]

theorem not_mem_escape (cs : List Char) : '|' ∉ escape cs := by
  intro h
  obtain ⟨c, -, hc⟩ := List.mem_flatMap.1 h
  rw [escapeChar] at hc
  split at hc
  · simp at hc
  · split at hc
    · simp at hc
    · rename_i hbar
      exact hbar (List.mem_singleton.1 hc).symm

/-- What is written for null is not written for any text. -/
theorem escape_ne_null (cs : List Char) : escape cs ≠ ['~', 'n'] := by
  intro h
  have hread := unescape_escape cs
  rw [h] at hread
  subst hread
  exact absurd h (by decide)

theorem ofKeyPart_keyPartOf (value : Option String) : ofKeyPart (keyPartOf value) = value := by
  cases value with
  | none => rfl
  | some s =>
    rw [keyPartOf, ofKeyPart, unescape_escape, String.ofList_toList]
    exact escape_ne_null s.toList

theorem not_mem_keyPartOf (value : Option String) : '|' ∉ keyPartOf value := by
  cases value with
  | none => decide
  | some s => exact not_mem_escape s.toList

/-- The columns can be read back from their key. -/
theorem map_ofKeyPart_splitOn {values : List (Option String)} (h : values ≠ []) :
    ((keyOf values).toList.splitOn '|').map ofKeyPart = values := by
  have hparts : ∀ part ∈ values.map keyPartOf, '|' ∉ part := by
    intro part hpart
    obtain ⟨value, -, rfl⟩ := List.mem_map.1 hpart
    exact not_mem_keyPartOf value
  rw [keyOf, String.toList_ofList, List.splitOn_intercalate '|' hparts (by simpa using h),
    List.map_map]
  exact (List.map_congr_left fun value _ => ofKeyPart_keyPartOf value).trans (List.map_id _)

theorem keyOf_inj {values values' : List (Option String)} (h : values ≠ []) (h' : values' ≠ []) :
    keyOf values = keyOf values' ↔ values = values' := by
  refine ⟨fun hkey => ?_, fun hvalues => by rw [hvalues]⟩
  rw [← map_ofKeyPart_splitOn h, hkey, map_ofKeyPart_splitOn h']

/-! ## Warehouses and texts -/

/-- A warehouse computes with texts as usual; `text` is how it writes a value. -/
structure Engine.Textual (engine : Engine) (text : Datum → String) : Prop where
  text_text : ∀ s, text (.text s) = s
  null : engine.literal .null = none
  literal : ∀ s, engine.literal (.text s) = some (.text s)
  cast : ∀ v : Value, engine.call .castToString [v] = v.map fun x => .text (text x)
  /-- Null stays null. -/
  replace : ∀ (s : Option String) (part replacement : String),
    engine.call .replace [s.map .text, some (.text part), some (.text replacement)] =
      s.map fun s => .text (Text.replace s part replacement)
  coalesce : ∀ v w : Value, engine.call .coalesce [v, w] = v.or w
  concat : ∀ ss : List String, ss ≠ [] →
    engine.call .concat (ss.map fun s => some (.text s)) = some (.text (String.join ss))

/-- `engine`, with the functions of texts as usual. -/
def Engine.withTexts (engine : Engine) (text : Datum → String) : Engine :=
  { engine with
    literal := fun
      | .null => none
      | .text s => some (.text s)
      | value => engine.literal value
    call := fun
      | .castToString, [v] => v.map fun x => .text (text x)
      | .replace, [some (.text s), some (.text part), some (.text replacement)] =>
        some (.text (Text.replace s part replacement))
      | .replace, [_, _, _] => none
      | .coalesce, [v, w] => v.or w
      | .concat, vs =>
        if vs.all Option.isSome then some (.text (String.join ((Value.present vs).map text)))
        else none
      | function, vs => engine.call function vs }

theorem Engine.textual_withTexts (engine : Engine) {text : Datum → String}
    (h : ∀ s, text (.text s) = s) : (engine.withTexts text).Textual text where
  text_text := h
  null := rfl
  literal _ := rfl
  cast _ := rfl
  replace s part replacement := by cases s <;> rfl
  coalesce _ _ := rfl
  concat ss _ := by
    have hall : (ss.map fun s => (some (.text s) : Value)).all Option.isSome = true := by simp
    have hpresent : Value.present (ss.map fun s => (some (.text s) : Value)) = ss.map .text := by
      simp [Value.present, List.filterMap_map, List.filterMap_eq_map']
    change (if (ss.map fun s => (some (.text s) : Value)).all Option.isSome = true then _
      else none) = _
    rw [if_pos hall, hpresent, List.map_map]
    simp [Function.comp_def, h]

/-- Values as they are mostly written. -/
def Datum.written : Datum → String
  | .flag b => toString b
  | .number q => toString q
  | .text s => s
  | .day n => toString n

/-- Exact arithmetic, and the functions of texts. -/
def Engine.texts : Engine := Engine.exact.withTexts Datum.written

theorem Engine.textual_texts : Engine.texts.Textual Datum.written :=
  Engine.exact.textual_withTexts fun _ => rfl

namespace Expr

variable {engine : Engine} {text : Datum → String}

theorem eval_ofText (h : engine.Textual text) (scope : Scope) (s : String) :
    (ofText s).eval engine scope = some (.text s) := by
  rw [ofText, eval, h.literal]

theorem eval_replaceAll (h : engine.Textual text) {scope : Scope} {e : Expr} {s : Option String}
    (he : e.eval engine scope = s.map .text) (part replacement : String) :
    (e.replaceAll part replacement).eval engine scope =
      (s.map fun s => Text.replace s part replacement).map .text := by
  rw [replaceAll, eval, evalAll_eq_map, List.map_cons, List.map_cons, List.map_singleton, he,
    eval_ofText h, eval_ofText h, h.replace, Option.map_map]
  rfl

theorem eval_keyPart (h : engine.Textual text) (scope : Scope) (column : String) :
    (keyPart column).eval engine scope =
      some (.text (String.ofList (keyPartOf ((scope.row column).map text)))) := by
  have hcast : (call .castToString [ofColumn column]).eval engine scope =
      ((scope.row column).map text).map .text := by
    rw [eval, evalAll_eq_map, List.map_singleton, ofColumn, eval, h.cast, Option.map_map]
    rfl
  have hescaped := eval_replaceAll h (eval_replaceAll h hcast "~" "~~") "|" "~p"
  rw [keyPart, eval, evalAll_eq_map, List.map_cons, List.map_singleton, hescaped, eval_ofText h,
    h.coalesce]
  cases (scope.row column).map text with
  | none => rfl
  | some s =>
    simp only [Option.map_some, escape_eq_replace]
    rfl

/-- The parts of a key and the bars between them. -/
theorem map_eval_keyParts (h : engine.Textual text) (scope : Scope) (columns : List String) :
    (keyParts columns).map (·.eval engine scope) =
      ((columns.map fun c => keyPartOf ((scope.row c).map text)).intersperse ['|']).map fun part =>
        some (.text (String.ofList part)) := by
  -- by two columns at a time, as a bar stands only where another column follows
  rw [keyParts]
  induction columns with
  | nil => rfl
  | cons c columns ih =>
    cases columns with
    | nil => simp only [List.map_cons, List.map_nil, List.intersperse, eval_keyPart h]
    | cons c' columns =>
      simp only [List.map_cons, List.intersperse_cons_cons, eval_keyPart h, eval_ofText h] at ih ⊢
      rw [ih]

theorem join_map_ofList (parts : List (List Char)) :
    String.join (parts.map String.ofList) = String.ofList parts.flatten := by
  rw [← String.toList_inj, String.toList_join, String.toList_ofList, List.flatMap_map,
    List.flatten_eq_flatMap]
  exact List.flatMap_congr fun part _ => String.toList_ofList

/-- A key is never null. -/
theorem eval_compositeKey (h : engine.Textual text) (scope : Scope) {columns : List String}
    (hcolumns : columns ≠ []) :
    (compositeKey columns).eval engine scope =
      some (.text (keyOf (columns.map fun c => (scope.row c).map text))) := by
  let parts := (columns.map fun c => keyPartOf ((scope.row c).map text)).intersperse ['|']
  have hparts : parts ≠ [] := by
    cases columns with
    | nil => exact absurd rfl hcolumns
    | cons c columns => cases columns <;> simp [parts]
  have hconcat := h.concat (parts.map String.ofList) (by simpa using hparts)
  rw [List.map_map, join_map_ofList] at hconcat
  rw [compositeKey, eval, evalAll_eq_map, map_eval_keyParts h, keyOf, List.map_map]
  exact hconcat

/-- Rows have the same key where their columns are written the same. -/
theorem eval_compositeKey_congr_iff (h : engine.Textual text) (scope scope' : Scope)
    {columns : List String} (hcolumns : columns ≠ []) :
    (compositeKey columns).eval engine scope = (compositeKey columns).eval engine scope' ↔
      ∀ c ∈ columns, (scope.row c).map text = (scope'.row c).map text := by
  rw [eval_compositeKey h scope hcolumns, eval_compositeKey h scope' hcolumns, Option.some_inj,
    Datum.text.injEq, keyOf_inj (by simpa using hcolumns) (by simpa using hcolumns),
    List.map_inj_left]

end Expr

/-- A row of texts and nulls. -/
def Row.ofTexts (columns : String → Option String) : Row := fun c => (columns c).map .text

/-- The keys of two rows of texts are texts, which are equal where the rows agree
on every column of the key. Null agrees with null alone. -/
theorem Expr.eval_compositeKey_eq_iff {engine : Engine} {text : Datum → String}
    (h : engine.Textual text) {columns : List String} (hcolumns : columns ≠ [])
    (x y : String → Option String) :
    ∃ s t, (compositeKey columns).eval engine (Row.ofTexts x).scope = some (.text s) ∧
      (compositeKey columns).eval engine (Row.ofTexts y).scope = some (.text t) ∧
      (s = t ↔ ∀ c ∈ columns, x c = y c) := by
  have htexts (x : String → Option String) (c : String) :
      ((Row.ofTexts x).scope.row c).map text = x c := by
    change ((x c).map Datum.text).map text = x c
    rw [Option.map_map]
    exact (Option.map_congr fun s _ => h.text_text s).trans Option.map_id_apply
  refine ⟨_, _, eval_compositeKey h _ hcolumns, eval_compositeKey h _ hcolumns, ?_⟩
  rw [keyOf_inj (by simpa using hcolumns) (by simpa using hcolumns), List.map_inj_left]
  simp only [htexts]

/-- Columns with bars and tildes in them, and null. -/
theorem Expr.eval_compositeKey_ne_of_bars :
    let x (c : String) : Option String := if c = "user" then some "a|~" else none
    let y (c : String) : Option String := if c = "user" then some "a|~" else some "~n"
    Engine.texts.Textual Datum.written ∧ ["user", "city"] ≠ [] ∧
    ∃ s t, (compositeKey ["user", "city"]).eval Engine.texts (Row.ofTexts x).scope =
        some (.text s) ∧
      (compositeKey ["user", "city"]).eval Engine.texts (Row.ofTexts y).scope = some (.text t) ∧
      s ≠ t := by
  intro x y
  obtain ⟨s, t, hs, ht, hiff⟩ :=
    eval_compositeKey_eq_iff Engine.textual_texts (List.cons_ne_nil "user" ["city"]) x y
  refine ⟨Engine.textual_texts, List.cons_ne_nil _ _, s, t, hs, ht, fun hst => ?_⟩
  exact absurd (hiff.1 hst "city" (by simp)) (by decide)

end MetricLayer.Sql
