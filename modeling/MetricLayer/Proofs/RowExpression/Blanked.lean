import MetricLayer.Proofs.RowExpression
import MetricLayer.Proofs.Sql.Guarding

/-!
# Row expressions without their literals and references

Three readers of a row expression must know where its literals are: the scan of
references, to which braces in them are text; the mask, which leaves nothing in them;
and the guard, which counts no parentheses in them, and which has the columns before
it that stand for the references. They agree. What the scan accepts has one text
without literals and references (`exists_blanked`), this is what the mask leaves
(`Blanked.mask_eq`), and the guard counts the parentheses of this text
(`Blanked.depth?_eq`).
-/

namespace MetricLayer

namespace RowExpression

open Sql.Guard (depth? depth?_of_isInert isInert)

/-- As many blanks. -/
def blank (cs : List Char) : List Char := cs.map fun _ => ' '

/-- The second text is the first with blanks in the place of its references and of what
is between the quotes of its literals, the last of which may be open. -/
inductive Blanked : List Char → List Char → Prop
  | nil : Blanked [] []
  | plain {c : Char} {cs text : List Char} :
    c ∉ ['\'', '{', '}'] → Blanked cs text → Blanked (c :: cs) (c :: text)
  | literal {inner cs text : List Char} :
    '\'' ∉ inner → Blanked cs text →
    Blanked ('\'' :: inner ++ '\'' :: cs) ('\'' :: blank inner ++ '\'' :: text)
  | openLiteral {inner : List Char} :
    '\'' ∉ inner → Blanked ('\'' :: inner) ('\'' :: blank inner)
  | reference {name cs text : List Char} :
    isName (String.ofList name) = true → Blanked cs text →
    Blanked ('{' :: name ++ '}' :: cs) (' ' :: blank name ++ ' ' :: text)

variable {d : Sql.Dialect} {cs inner name out text : List Char}

/-! ## The scan of references -/

/-- A literal goes on to its end, or to the end of the text. -/
theorem notMem_or_exists_of_grouped {position : Nat} {references : List Reference}
    (h : Grouped true position cs references) :
    '\'' ∉ cs ∨ ∃ inner rest next, cs = inner ++ '\'' :: rest ∧ '\'' ∉ inner ∧
      Grouped false next rest references := by
  induction cs generalizing position with
  | nil => exact .inl List.not_mem_nil
  | cons c cs ih =>
    cases h with
    | quote hrest => exact .inr ⟨[], cs, _, rfl, List.not_mem_nil, hrest⟩
    | text hc _ hrest =>
      refine (ih hrest).imp (by simp [Ne.symm hc, ·]) ?_
      rintro ⟨inner, rest, next, rfl, hinner, hrest⟩
      exact ⟨c :: inner, rest, next, rfl, by simp [Ne.symm hc, hinner], hrest⟩

theorem exists_blanked_of_grouped {position : Nat} {references : List Reference} {cs : List Char}
    (h : Grouped false position cs references) : ∃ text, Blanked cs text := by
  cases h with
  | nil => exact ⟨[], .nil⟩
  | quote h =>
    rcases notMem_or_exists_of_grouped h with hopen | ⟨inner, rest, _, rfl, hinner, hrest⟩
    · exact ⟨_, .openLiteral hopen⟩
    · obtain ⟨text, htext⟩ := exists_blanked_of_grouped hrest
      exact ⟨_, .literal hinner htext⟩
  | text hquote hbrace h =>
    obtain ⟨text, htext⟩ := exists_blanked_of_grouped h
    exact ⟨_, .plain (by simp [hquote, hbrace rfl]) htext⟩
  | group hname h =>
    obtain ⟨text, htext⟩ := exists_blanked_of_grouped h
    exact ⟨_, .reference hname htext⟩
termination_by cs.length

/-- What the scan accepts can be blanked. -/
theorem exists_blanked {s : String} {references : List Reference}
    (h : extractReferences s = .ok references) : ∃ text, Blanked s.toList text :=
  exists_blanked_of_grouped (extractReferences_eq_ok_iff.1 h)

/-! ## The mask -/

theorem mask_literal (h : '\'' ∉ inner) (cs : List Char) :
    mask true false (inner ++ cs) = blank inner ++ mask true false cs := by
  induction inner with
  | nil => rfl
  | cons c inner ih =>
    rw [List.mem_cons, not_or] at h
    simp [mask, blank, Ne.symm h.1, ih h.2]

theorem mask_reference (h : ∀ c ∈ name, Text.isNameChar c = true) (cs : List Char) :
    mask false true (name ++ cs) = blank name ++ mask false true cs := by
  induction name with
  | nil => rfl
  | cons c name ih =>
    rw [List.forall_mem_cons] at h
    have hclose : c ≠ '}' := by
      rintro rfl
      exact absurd h.1 (by decide)
    simp [mask, blank, hclose, ih h.2]

/-- The mask leaves the blanked text. -/
theorem Blanked.mask_eq (h : Blanked cs text) : mask false false cs = text := by
  induction h with
  | nil => rfl
  | plain hc _ ih =>
    simp only [List.mem_cons, List.not_mem_nil, or_false, not_or] at hc
    simp [mask, hc, ih]
  | literal hinner _ ih => simp [mask, mask_literal hinner, ih]
  | @openLiteral inner hinner =>
    have hinside := mask_literal hinner []
    rw [List.append_nil] at hinside
    simp [mask, hinside]
  | @reference name cs text hname _ ih =>
    have hchars : ∀ c ∈ name, Text.isNameChar c = true := fun c hc =>
      isNameChar_of_isName hname c (by simpa using hc)
    simp [mask, mask_reference hchars, ih]

/-- So there is no other one. -/
theorem Blanked.iff_eq (h : Blanked cs text) (other : List Char) :
    Blanked cs other ↔ other = text :=
  ⟨fun hother => hother.mask_eq.symm.trans h.mask_eq, fun heq => heq ▸ h⟩

/-! ## The guard -/

/-- The parentheses left open at the end, unless one is closed too many, where `level`
are open at the beginning. -/
def level? (level : Nat) : List Char → Option Nat
  | [] => some level
  | c :: cs =>
    if c = '(' then level? (level + 1) cs
    else if c = ')' then
      match level with
      | 0 => none
      | level + 1 => level? level cs
    else level? level cs

/-- Neither opens nor closes a parenthesis. -/
def NoParentheses (cs : List Char) : Prop := ∀ c ∈ cs, c ≠ '(' ∧ c ≠ ')'

theorem level?_append_of_noParentheses {level : Nat} (h : NoParentheses cs) (rest : List Char) :
    level? level (cs ++ rest) = level? level rest := by
  induction cs with
  | nil => rfl
  | cons c cs ih =>
    obtain ⟨hc, hcs⟩ := List.forall_mem_cons.1 h
    simp [level?, hc, ih hcs]

theorem noParentheses_blank : NoParentheses (blank cs) := by
  simp [NoParentheses, blank]

theorem depth?_quoted {depth : Nat} (h : '\'' ∉ inner) (rest : List Char) :
    depth? depth true (inner ++ rest) = depth? depth true rest := by
  induction inner with
  | nil => rfl
  | cons c inner ih =>
    rw [List.mem_cons, not_or] at h
    simp [depth?, Ne.symm h.1, ih h.2]

theorem isInert_of_isName (h : isName (String.ofList name) = true) :
    ∀ c ∈ name, isInert c = true := fun c hc =>
  Sql.isInert_of_isNameChar (isNameChar_of_isName h c (by simpa using hc))

/-- The guard counts the parentheses of the blanked text. -/
theorem Blanked.depth?_eq (h : Blanked cs text) (depth : Nat) :
    depth? depth false cs = level? depth text := by
  induction h generalizing depth with
  | nil => rfl
  | @plain c cs text hc _ ih =>
    simp only [List.mem_cons, List.not_mem_nil, or_false, not_or] at hc
    cases depth <;> simp [depth?, level?, hc.1, ih]
  | literal hinner _ ih =>
    simp [depth?, level?, depth?_quoted hinner,
      level?_append_of_noParentheses noParentheses_blank, ih]
  | @openLiteral inner hinner =>
    have hquoted : depth? depth true (inner ++ []) = depth? depth true [] :=
      depth?_quoted hinner []
    have hblank : level? depth (blank inner ++ []) = level? depth [] :=
      level?_append_of_noParentheses noParentheses_blank []
    rw [List.append_nil] at hquoted hblank
    simp [depth?, level?, hquoted, hblank]
  | reference hname _ ih =>
    simp [depth?, level?, depth?_of_isInert (isInert_of_isName hname),
      level?_append_of_noParentheses noParentheses_blank, ih]

/-- And it counts no others in the columns that stand for references. -/
theorem Substituted.depth?_eq (h : Substituted d.quoteName cs out) (depth : Nat) (quoted : Bool) :
    depth? depth quoted out = depth? depth quoted cs := by
  induction h generalizing depth quoted with
  | nil => rfl
  | keep _ ih =>
    simp only [depth?, ih]
  | @reference name cs out hname _ ih =>
    have hbraces : ∀ c ∈ '{' :: name ++ ['}'], isInert c = true := by
      simp only [List.cons_append, List.forall_mem_cons, List.forall_mem_append]
      exact ⟨by decide, isInert_of_isName hname, by decide, by simp⟩
    have hcolumn : ∀ c ∈ (d.quoteName (String.ofList name)).toList, isInert c = true :=
      Sql.isInert_of_mem_quoteName (by simpa using isInert_of_isName hname)
    rw [depth?_of_isInert hcolumn, ih, ← depth?_of_isInert hbraces]
    simp

end RowExpression

end MetricLayer
