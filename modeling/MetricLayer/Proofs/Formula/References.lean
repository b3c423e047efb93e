import MetricLayer.Proofs.Formula.Written
import MetricLayer.Proofs.Reference

/-!
# The references of a formula

A formula is read twice: `extractReferences` lists its references, and
`Formula.read` makes a tree of its tokens. A text that spells tokens has the
references that the tokens name (`named_of_spells`), and a tree refers to the names
of the tokens that it is written as (`Listing.written_eq`), so that both agree on every
text that is a formula (`extractReferences_of_read`). The tokens that it is written
as are valid (`valid_of_read`).
-/

namespace MetricLayer

namespace Formula

/-- The names that a token refers to. -/
def Token.names : Token → List String
  | .reference name => [name]
  | _ => []

end Formula

/-! ## The names of groups -/

/-- The characters that mean something to the scan of references. -/
def Reference.isMark (c : Char) : Bool := c == '\'' || c == '{' || c == '}'

/-- The groups of a text, which begins inside quotes if `quoted`, have these names. -/
def Named (quoted : Bool) (cs : List Char) (names : List String) : Prop :=
  ∀ position, ∃ references, Grouped quoted position cs references ∧
    references.map (·.name) = names

section Named

variable {quoted : Bool} {cs : List Char} {names : List String}

theorem named_nil : Named quoted [] [] := fun _ => ⟨[], .nil, rfl⟩

theorem named_quote (h : Named (!quoted) cs names) : Named quoted ('\'' :: cs) names := by
  intro position
  obtain ⟨references, hgrouped, hnames⟩ := h (position + '\''.utf8Size)
  exact ⟨references, .quote hgrouped, hnames⟩

theorem named_text {c : Char} (hc : c ≠ '\'') (hbrace : quoted = false → c ≠ '{' ∧ c ≠ '}')
    (h : Named quoted cs names) : Named quoted (c :: cs) names := by
  intro position
  obtain ⟨references, hgrouped, hnames⟩ := h (position + c.utf8Size)
  exact ⟨references, .text hc hbrace hgrouped, hnames⟩

theorem named_group {name : List Char} (hname : isName (String.ofList name) = true)
    (h : Named false cs names) :
    Named false ('{' :: name ++ '}' :: cs) (String.ofList name :: names) := by
  intro position
  obtain ⟨references, hgrouped, hnames⟩ := h _
  exact ⟨_, .group hname hgrouped, congrArg (_ :: ·) hnames⟩

theorem named_cons {c : Char} (hc : Reference.isMark c = false) (h : Named false cs names) :
    Named false (c :: cs) names := by
  simp only [Reference.isMark, Bool.or_eq_false_iff, beq_eq_false_iff_ne] at hc
  exact named_text hc.1.1 (fun _ => ⟨hc.1.2, hc.2⟩) h

theorem named_append {pre : List Char} (hpre : ∀ c ∈ pre, Reference.isMark c = false)
    (h : Named false cs names) : Named false (pre ++ cs) names := by
  induction pre with
  | nil => exact h
  | cons c pre ih =>
    exact named_cons (hpre c List.mem_cons_self)
      (ih fun d hd => hpre d (List.mem_cons_of_mem _ hd))

namespace Formula

/-! ## What tokens name -/

theorem named_doubled (inner : List Char) (h : Named false cs names) :
    Named true (doubled inner ++ '\'' :: cs) names := by
  induction inner with
  | nil => exact named_quote h
  | cons c inner ih =>
    by_cases hc : c = '\''
    · subst hc
      exact named_quote (named_quote ih)
    · rw [doubled_cons_of_ne hc]
      exact named_text hc nofun ih

theorem isMark_eq_false_of_isDigit {c : Char} (h : c.isDigit = true) :
    Reference.isMark c = false := by
  by_contra hm
  simp only [Reference.isMark, Bool.not_eq_false, Bool.or_eq_true, beq_iff_eq] at hm
  rcases hm with (rfl | rfl) | rfl <;> simp [Char.isDigit] at h

theorem isMark_eq_false_of_isNameChar {c : Char} (h : Text.isNameChar c = true) :
    Reference.isMark c = false := by
  by_contra hm
  simp only [Reference.isMark, Bool.not_eq_false, Bool.or_eq_true, beq_iff_eq] at hm
  rcases hm with (rfl | rfl) | rfl <;> exact absurd h (by decide)

theorem isMark_eq_false_of_isBlank {c : Char} (h : Text.isBlank c = true) :
    Reference.isMark c = false := by
  by_contra hm
  simp only [Reference.isMark, Bool.not_eq_false, Bool.or_eq_true, beq_iff_eq] at hm
  rcases hm with (rfl | rfl) | rfl <;> exact absurd h (by decide)

theorem isMark_eq_false_of_mem_number {digits : String} (h : IsNumber digits) :
    ∀ c ∈ digits.toList, Reference.isMark c = false := by
  intro c hc
  rcases h.isNumeral c hc with hdigit | rfl
  · exact isMark_eq_false_of_isDigit hdigit
  · decide

/-- The name of a token that is a reference is that of a group, and any other is none. -/
theorem named_of_lexeme {t : Token} (ht : t.Valid) (h : Named false cs names) :
    Named false (t.lexeme ++ cs) (t.names ++ names) := by
  cases t with
  | reference name =>
    have hname : isName (String.ofList name.toList) = true := by rwa [String.ofList_toList]
    simpa [Token.lexeme, Token.names] using named_group hname h
  | number digits => exact named_append (isMark_eq_false_of_mem_number ht) h
  | literal value =>
    have hnamed : Named false ('\'' :: (doubled value.toList ++ '\'' :: cs)) names :=
      named_quote (named_doubled value.toList h)
    simpa [Token.lexeme, Token.names] using hnamed
  | ident name =>
    exact named_append (fun c hc => isMark_eq_false_of_isNameChar (isNameChar_of_isName ht c hc)) h
  | opening | closing | comma => exact named_cons (by decide) h
  | op op => cases op <;> exact named_cons (by decide) h

/-- The groups of a text have the names of the tokens that it spells. -/
theorem named_of_spells {ts : List Token} (h : Spells ts cs) (hvalid : ∀ t ∈ ts, t.Valid) :
    Named false cs (ts.flatMap Token.names) := by
  induction h with
  | nil => exact named_nil
  | blank hblank _ ih => exact named_cons (isMark_eq_false_of_isBlank hblank) (ih hvalid)
  | token t _ ih =>
    rw [List.forall_mem_cons] at hvalid
    exact named_of_lexeme hvalid.1 (ih hvalid.2)

end Formula

end Named

/-! ## What is listed of a tree -/

namespace Formula

/-- What is listed of a formula is listed of its operands in order, and what is listed of a
token is listed of the operand that it is; signs and the names of functions list nothing. -/
structure Listing {α : Type} (ofToken : Token → List α) (ofFormula : Formula → List α)
    (ofAll : List Formula → List α) : Prop where
  operand : ∀ t f, t.IsOperand f → ofFormula f = ofToken t
  negate : ∀ f, ofFormula (.negate f) = ofFormula f
  group : ∀ f, ofFormula (.group f) = ofFormula f
  binary : ∀ op l r, ofFormula (.binary op l r) = ofFormula l ++ ofFormula r
  call : ∀ name fs, ofFormula (.call name fs) = ofAll fs
  nil : ofAll [] = []
  cons : ∀ f rest, ofAll (f :: rest) = ofFormula f ++ ofAll rest
  op : ∀ op, ofToken (.op op) = []
  ident : ∀ name, ofToken (.ident name) = []
  opening : ofToken .opening = []
  closing : ofToken .closing = []
  comma : ofToken .comma = []

namespace Listing

variable {α : Type} {ofToken : Token → List α} {ofFormula : Formula → List α}
  {ofAll : List Formula → List α}

mutual

/-- Of a formula the same is listed as of the tokens that it is written as. -/
theorem written_eq (h : Listing ofToken ofFormula ofAll) :
    (f : Formula) → ofFormula f = f.written.flatMap ofToken
  | .reference name => by simp [written, h.operand _ _ (.reference name)]
  | .number digits => by simp [written, h.operand _ _ (.number digits)]
  | .literal value => by simp [written, h.operand _ _ (.literal value)]
  | .negate f => by simp [written, h.negate, h.op, written_eq h f]
  | .group f => by simp [written, h.group, h.opening, h.closing, written_eq h f]
  | .binary op l r => by simp [written, h.binary, h.op, written_eq h l, written_eq h r]
  | .call name fs => by
    simp [written, h.call, h.ident, h.opening, h.closing, writtenAll_eq h fs]

theorem writtenAll_eq (h : Listing ofToken ofFormula ofAll) :
    (fs : List Formula) → ofAll fs = (writtenAll fs).flatMap ofToken
  | [] => h.nil
  | f :: rest => by simp [writtenAll, h.cons, written_eq h f, writtenMore_eq h rest]

theorem writtenMore_eq (h : Listing ofToken ofFormula ofAll) :
    (fs : List Formula) → ofAll fs = (writtenMore fs).flatMap ofToken
  | [] => h.nil
  | f :: rest => by simp [writtenMore, h.cons, h.comma, written_eq h f, writtenMore_eq h rest]

end

/-- Plus signs before operands list nothing. -/
theorem withoutPlus_eq (h : Listing ofToken ofFormula ofAll) (expectsOperand : Bool)
    (ts : List Token) : (withoutPlus expectsOperand ts).flatMap ofToken = ts.flatMap ofToken := by
  induction ts generalizing expectsOperand with
  | nil => rfl
  | cons t ts ih =>
    rw [withoutPlus]
    split
    · rename_i hplus
      obtain ⟨-, hplus⟩ := Bool.and_eq_true_iff.1 hplus
      rw [beq_iff_eq.1 hplus, ih, List.flatMap_cons, h.op, List.nil_append]
    · rw [List.flatMap_cons, List.flatMap_cons, ih]

/-- Of a formula that has been read the same is listed as of the tokens of its text. -/
theorem eq_of_read (h : Listing ofToken ofFormula ofAll) {s : String} {f : Formula}
    (hread : read s = .ok f) : ∃ placed, tokens s = .ok placed ∧
      ofFormula f = (placed.map (·.token)).flatMap ofToken := by
  obtain ⟨placed, htokens, hwritten⟩ := written_of_read hread
  exact ⟨placed, htokens, by rw [h.written_eq, ← hwritten, h.withoutPlus_eq]⟩

end Listing

theorem listing_references : Listing Token.names references referencesOf where
  operand _ _ h := by cases h <;> rfl
  negate _ := rfl
  group _ := rfl
  binary _ _ _ := rfl
  call _ _ := rfl
  nil := rfl
  cons _ _ := rfl
  op _ := rfl
  ident _ := rfl
  opening := rfl
  closing := rfl
  comma := rfl

/-- A text that is a formula has references, and its tree refers to their names
in order. -/
theorem extractReferences_of_read {s : String} {f : Formula} (h : read s = .ok f) :
    ∃ references, extractReferences s = .ok references ∧
      references.map (·.name) = f.references := by
  obtain ⟨placed, htokens, hlisted⟩ := listing_references.eq_of_read h
  obtain ⟨hspells, hvalid⟩ := spells_of_tokensFrom htokens
  obtain ⟨references, hgrouped, hnames⟩ := named_of_spells hspells (by simpa using hvalid) 0
  exact ⟨references, extractReferences_eq_ok_iff.2 hgrouped, hnames.trans hlisted.symm⟩

/-! ## The tokens of a tree -/

theorem mem_of_mem_withoutPlus {expectsOperand : Bool} {t : Token} {ts : List Token}
    (h : t ∈ withoutPlus expectsOperand ts) : t ∈ ts := by
  induction ts generalizing expectsOperand with
  | nil => exact h
  | cons u ts ih =>
    rw [withoutPlus] at h
    split at h
    · exact List.mem_cons_of_mem _ (ih h)
    · rcases List.mem_cons.1 h with rfl | h
      · exact List.mem_cons_self
      · exact List.mem_cons_of_mem _ (ih h)

/-- All tokens of a formula that has been read are valid. -/
theorem valid_of_read {s : String} {f : Formula} (h : read s = .ok f) :
    ∀ t ∈ f.written, t.Valid := by
  obtain ⟨placed, htokens, hwritten⟩ := written_of_read h
  obtain ⟨-, hvalid⟩ := spells_of_tokensFrom htokens
  intro t ht
  rw [← hwritten] at ht
  obtain ⟨p, hp, rfl⟩ := List.mem_map.1 (mem_of_mem_withoutPlus ht)
  exact hvalid p hp

end Formula

end MetricLayer
