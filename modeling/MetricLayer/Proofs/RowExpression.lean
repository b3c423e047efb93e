import MetricLayer.Proofs.Reference
import MetricLayer.Proofs.Sql.Literals
import MetricLayer.RowExpression

/-!
# What a row expression does to the statement around it

A row expression is put into a statement as it is written but for its references
(`Substituted`), and columns read like the references that they stand for
(`readAlike_of_compile`). So the text is contained in the parentheses put around
it exactly if the expression ends outside of literals, and balances its
parentheses where the dialect takes a quote for escaped (`contained_sql_iff`).
-/

namespace MetricLayer

open Text (byteLength)

/-! ## What the substitution writes -/

namespace RowExpression

open Sql (IsPlain ReadAlike)

/-- The second text is the first with what `write` makes of the names of its
references in their place. -/
inductive Substituted (write : String → String) : List Char → List Char → Prop
  | nil : Substituted write [] []
  | keep {c : Char} {cs out : List Char} :
    Substituted write cs out → Substituted write (c :: cs) (c :: out)
  | reference {name cs out : List Char} :
    isName (String.ofList name) = true → Substituted write cs out →
    Substituted write ('{' :: name ++ '}' :: cs) ((write (String.ofList name)).toList ++ out)

variable {write : String → String} {d : Sql.Dialect}

theorem substitute_nil {position : Nat} {cs : List Char} :
    substitute write position [] cs = cs := by
  cases cs <;> rfl

/-- The characters of a reference go. -/
theorem substitute_reference {position : Nat} {r : Reference} {references : List Reference}
    {inner cs : List Char} (hne : inner ≠ []) (hstart : r.start ≤ position)
    (hstop : position + byteLength inner = r.stop) :
    substitute write position (r :: references) (inner ++ cs) =
      (write r.name).toList ++ substitute write r.stop references cs := by
  induction inner generalizing position with
  | nil => exact absurd rfl hne
  | cons c inner ih =>
    have hpos := c.utf8Size_pos
    simp only [byteLength] at hstop
    rw [List.cons_append, substitute, if_neg (by omega)]
    cases inner with
    | nil =>
      simp only [byteLength] at hstop
      rw [if_neg (by omega), ← hstop]
      rfl
    | cons e inner =>
      have := e.utf8Size_pos
      rw [if_pos (by simp only [byteLength] at hstop; omega)]
      exact ih (List.cons_ne_nil _ _) (by omega) (by omega)

/-- Characters before the next reference stay. -/
theorem substitute_keep {position : Nat} {references : List Reference} {c : Char} {cs : List Char}
    (h : ∀ r ∈ references, position + c.utf8Size ≤ r.start) :
    substitute write position references (c :: cs) =
      c :: substitute write (position + c.utf8Size) references cs := by
  cases references with
  | nil => rw [substitute_nil, substitute_nil]
  | cons r references =>
    have hlt : position < r.start := by
      have := h r List.mem_cons_self
      have := c.utf8Size_pos
      omega
    rw [substitute, if_pos hlt]

/-- A name in braces is replaced. -/
theorem substitute_braces {position : Nat} {name cs : List Char} {references : List Reference} :
    substitute write position
        (⟨String.ofList name, position, position + byteLength ('{' :: name ++ ['}'])⟩ :: references)
        ('{' :: name ++ '}' :: cs) =
      (write (String.ofList name)).toList ++
        substitute write (position + byteLength ('{' :: name ++ ['}'])) references cs := by
  rw [List.append_cons ('{' :: name) '}' cs]
  exact substitute_reference (List.cons_ne_nil _ _) (Nat.le_refl position) rfl

theorem substituted_of_grouped {quoted : Bool} {position : Nat} {cs : List Char}
    {references : List Reference} (h : Grouped quoted position cs references) :
    Substituted write cs (substitute write position references cs) := by
  induction h with
  | nil =>
    rw [substitute_nil]
    exact .nil
  | quote h ih =>
    rw [substitute_keep h.le_start]
    exact .keep ih
  | text _ _ h ih =>
    rw [substitute_keep h.le_start]
    exact .keep ih
  | group hname _ ih =>
    rw [substitute_braces]
    exact .reference hname ih

/-! ## What a reader makes of it -/

theorem isPlain_of_isNameChar {c : Char} (h : Text.isNameChar c = true) : IsPlain c := by
  intro hc
  simp only [List.mem_cons, List.not_mem_nil, or_false] at hc
  rcases hc with rfl | rfl | rfl | rfl <;> exact absurd h (by decide)

/-- A column has nothing that its quotes must be told from. -/
theorem isPlain_of_mem_quoteName {name : String} (h : isName name = true) :
    ∀ c ∈ (d.quoteName name).toList, IsPlain c := by
  have hquote : IsPlain d.nameQuote := by cases d <;> decide
  simp only [Sql.Dialect.quoteName, Sql.Dialect.quoteChars, String.toList_ofList, List.cons_append,
    List.mem_cons, List.mem_append, List.mem_flatMap, List.not_mem_nil, or_false]
  rintro c (rfl | ⟨e, he, hc⟩ | rfl)
  · exact hquote
  · have hne : e ≠ d.nameQuote := by
      rintro rfl
      have := isNameChar_of_isName h _ he
      cases d <;> exact absurd this (by decide)
    rw [Sql.Dialect.escapeInName.eq_def, if_neg (by simpa using hne), List.mem_singleton] at hc
    exact hc ▸ isPlain_of_isNameChar (isNameChar_of_isName h e he)
  · exact hquote

theorem Substituted.readAlike {cs out : List Char} (h : Substituted d.quoteName cs out) :
    ReadAlike d out cs := by
  induction h with
  | nil => exact .refl _
  | @keep c cs out h ih => exact (ReadAlike.refl [c]).append ih
  | @reference name cs out hname h ih =>
    have hne : (d.quoteName (String.ofList name)).toList ≠ [] := by
      simp [Sql.Dialect.quoteName, Sql.Dialect.quoteChars]
    have hbraces : ∀ c ∈ '{' :: name ++ ['}'], IsPlain c := by
      simp only [List.cons_append, List.mem_cons, List.mem_append, List.not_mem_nil, or_false]
      rintro c (rfl | hc | rfl)
      · decide
      · exact isPlain_of_isNameChar (isNameChar_of_isName hname c (by simpa using hc))
      · decide
    have hreference : ReadAlike d _ ('{' :: name ++ ['}']) :=
      .of_plain hne (List.cons_ne_nil _ _) (isPlain_of_mem_quoteName hname) hbraces
    simpa using hreference.append ih

variable {expression : String} {compiled : Compiled}

/-- What an accepted expression has passed, and what is reported with it. -/
structure Accepts (d : Sql.Dialect) (expression : String) (references : List Reference)
    (compiled : Compiled) : Prop where
  extracted : extractReferences expression = .ok references
  sql_eq : compiled.sql =
    String.ofList (substitute d.quoteName 0 references expression.toList)
  guarded : Sql.guardSql compiled.sql = .ok ()
  noAggregate : ∀ call ∈ calls expression, call.name ∉ aggregateFunctions
  dependsOn_eq : compiled.dependsOn = uniqueNames references
  warnings_eq : compiled.warnings = warningsFor (calls expression) references

theorem exists_accepts (h : compile d expression = .ok compiled) :
    ∃ references, Accepts d expression references compiled := by
  unfold compile at h
  split at h
  · cases h
  · obtain ⟨references, hreferences, h⟩ := Except.bind_eq_ok.1 h
    obtain ⟨⟨⟩, hguard, h⟩ := Except.bind_eq_ok.1 h
    dsimp only at h
    split at h
    · cases h
    · rename_i hnone
      obtain rfl := Except.ok.inj h
      refine ⟨references, Except.mapError_eq_ok.1 hreferences, rfl, Except.mapError_eq_ok.1 hguard,
        ?_, rfl, rfl⟩
      simpa using hnone

theorem compile_eq_ok (h : compile d expression = .ok compiled) :
    Substituted d.quoteName expression.toList compiled.sql.toList ∧
      Sql.guardSql compiled.sql = .ok () := by
  obtain ⟨references, haccepts⟩ := exists_accepts h
  refine ⟨?_, haccepts.guarded⟩
  rw [haccepts.sql_eq, String.toList_ofList]
  exact substituted_of_grouped (extractReferences_eq_ok_iff.1 haccepts.extracted)

theorem depth?_of_guardSql {sql : String} (h : Sql.guardSql sql = .ok ()) :
    Sql.Guard.depth? 0 false sql.toList = some 0 := by
  unfold Sql.guardSql at h
  split at h
  · cases h
  · cases h
  · assumption

theorem balanced_of_guardSql {sql : String} (h : Sql.guardSql sql = .ok ())
    (hescapes : Sql.escapesQuote d .outside sql.toList = false) : Sql.Balanced d sql.toList := by
  have hdepth := Sql.depth?_eq_map_read? (r := .start) hescapes
  obtain ⟨r, hr, hzero⟩ := Option.map_eq_some_iff.1 (hdepth.symm.trans (depth?_of_guardSql h))
  rw [Sql.Balanced, hr]
  simp [hzero]

/-- An accepted expression is contained in the parentheses put around it exactly if
its literals end and, where the dialect takes one of its quotes for escaped, its
parentheses are balanced as the dialect reads them; in DuckDB, where no quote is,
exactly if its literals end. Then, and only then, the group is what is read whatever
comes after it. -/
theorem contained_sql_iff (h : compile d expression = .ok compiled) :
    (Sql.Contained d compiled.sql.toList ↔
      Sql.EndsOutside d expression.toList ∧
        (Sql.escapesQuote d .outside expression.toList = true →
          Sql.Balanced d expression.toList)) ∧
    (d = .duckDb →
      (Sql.Contained d compiled.sql.toList ↔ Sql.EndsOutside d expression.toList)) ∧
    (Sql.Contained d compiled.sql.toList ↔
      ∀ rest, Sql.group? d ('(' :: compiled.sql.toList ++ ')' :: rest) =
        some (compiled.sql.toList, rest)) := by
  obtain ⟨hsubstituted, hguard⟩ := compile_eq_ok h
  have halike := hsubstituted.readAlike
  have hcontained : Sql.Contained d compiled.sql.toList ↔
      Sql.EndsOutside d expression.toList ∧ Sql.Balanced d expression.toList := by
    rw [Sql.Contained, halike.balanced_iff, halike.endsOutside_iff, and_comm]
  have hbalanced (hescapes : Sql.escapesQuote d .outside expression.toList = false) :
      Sql.Balanced d expression.toList :=
    halike.balanced_iff.1 (balanced_of_guardSql hguard ((halike.escapes _).trans hescapes))
  refine ⟨?_, ?_, Sql.group?_eq_some_iff.symm⟩
  · rw [hcontained]
    refine and_congr_right fun _ => ⟨fun hb _ => hb, fun hb => ?_⟩
    cases hescapes : Sql.escapesQuote d .outside expression.toList with
    | true => exact hb hescapes
    | false => exact hbalanced hescapes
  · rintro rfl
    rw [hcontained]
    exact and_iff_left (hbalanced (Sql.escapesQuote_duckDb (by decide)))

/-- Two escaped apostrophes, with which the guard is content as well. -/
theorem contained_sql_of_apostrophes :
    ∃ compiled, compile .bigQuery "CONCAT({a}, 'it\\'s', 'it\\'s')" = .ok compiled ∧
      Sql.Contained .bigQuery compiled.sql.toList := by
  obtain ⟨compiled, hcompiled⟩ := Except.exists_of_toBool
    (x := compile .bigQuery "CONCAT({a}, 'it\\'s', 'it\\'s')") (by decide +kernel)
  exact ⟨compiled, hcompiled, (contained_sql_iff hcompiled).1.2 ⟨by decide, fun _ => by decide⟩⟩

/-- In either dialect a literal may be open at the end of what is accepted; and
where a backslash escapes a quote, the parenthesis before it may be closed. -/
theorem exists_not_contained :
    (∀ d, ∃ compiled, compile d "'abc" = .ok compiled ∧
      ¬Sql.Contained d compiled.sql.toList) ∧
    ∃ compiled, compile .bigQuery "'\\'') OR (''" = .ok compiled ∧
      ¬Sql.Contained .bigQuery compiled.sql.toList := by
  constructor
  · intro d
    obtain ⟨compiled, hcompiled, hopen⟩ := Except.exists_of_any (x := compile d "'abc")
      (p := fun compiled => !decide (Sql.Contained d compiled.sql.toList))
      (by cases d <;> decide +kernel)
    exact ⟨compiled, hcompiled, by simpa using hopen⟩
  · obtain ⟨compiled, hcompiled, hclosed⟩ := Except.exists_of_any
      (x := compile .bigQuery "'\\'') OR (''")
      (p := fun compiled => !decide (Sql.Contained .bigQuery compiled.sql.toList))
      (by decide +kernel)
    exact ⟨compiled, hcompiled, by simpa using hclosed⟩

end RowExpression

end MetricLayer
