import MetricLayer.Proofs.RowExpression.Blanked

/-!
# The calls of a row expression

A call is a word with a parenthesis behind it (`Site`). Which calls a text has, and
which stand in the parentheses of which others (`Site.Encloses`), is told here without
a stack. The parentheses that are open at a place (`openers`) are those behind which no
more are closed than opened (`mem_openers`), so in a text with paired parentheses a
call stands in those of another exactly if these are open before it (`encloses_iff`).
The scanner has their names on its stack (`callsFrom_eq`). So what is reported
is what the text has: no aggregate is called in an accepted expression, there is a
warning for each call that may be null and stands in no default, and an aggregate that
is reported is called (`calls_reported`).
-/

namespace MetricLayer.RowExpression

open Text (isBlank isNameChar)

/-- A call in a text: the word that is called, what is before it, the blanks between it
and its parenthesis, and what is after the parenthesis. -/
structure Site where
  before : List Char
  word : List Char
  blanks : List Char
  after : List Char
  /-- The word is a whole one. -/
  before_ends : before.reverse.head?.any isNameChar = false
  all_isNameChar : word.all isNameChar = true
  /-- It is not empty, and not a number. -/
  not_all_isDigit : word.all Char.isDigit = false
  all_isBlank : blanks.all isBlank = true

namespace Site

/-- All that is before the parenthesis. -/
def upTo (s : Site) : List Char := s.before ++ s.word ++ s.blanks

def text (s : Site) : List Char := s.upTo ++ '(' :: s.after

/-- The word in capitals, in which functions are listed. -/
def name (s : Site) : String := String.ofList (s.word.map Char.toUpper)

/-- In one text, `s` stands between the parenthesis of `t` and the one that closes it. -/
def Encloses (t s : Site) : Prop :=
  ∃ pre post rest, s.before = t.upTo ++ '(' :: pre ∧ s.after = post ++ ')' :: rest ∧
    level? 0 (pre ++ s.word ++ s.blanks ++ '(' :: post) = some 0

end Site

variable {c : Char} {cs xs ys rev after text : List Char} {s t : Site}

/-! ## Levels -/

theorem level?_open {level : Nat} : level? level ('(' :: cs) = level? (level + 1) cs := by
  simp [level?]

theorem level?_append {level : Nat} :
    level? level (xs ++ ys) = (level? level xs).bind fun level => level? level ys := by
  induction xs generalizing level with
  | nil => rfl
  | cons c xs ih => cases level <;> simp only [List.cons_append, level?] <;> grind

/-- More parentheses that are open before do not matter. -/
theorem level?_add {level final : Nat} (h : level? level cs = some final) (more : Nat) :
    level? (level + more) cs = some (final + more) := by
  induction cs generalizing level with
  | nil => simpa [level?] using h
  | cons c cs ih =>
    simp only [level?] at h ⊢
    split at h
    · rw [if_pos ‹_›, Nat.add_right_comm]
      exact ih h
    · split at h
      · cases level with
        | zero => cases h
        | succ level =>
          rw [if_neg ‹_›, if_pos ‹_›, Nat.add_right_comm]
          exact ih h
      · rw [if_neg ‹_›, if_neg ‹_›]
        exact ih h

/-- Where all parentheses are closed at the end, so is each before it. -/
theorem exists_closed {inside outside : Nat} (h : level? (inside + outside + 1) cs = some 0) :
    ∃ post rest, cs = post ++ ')' :: rest ∧ level? inside post = some 0 := by
  induction cs generalizing inside with
  | nil => simp [level?] at h
  | cons c cs ih =>
    by_cases hopen : c = '('
    · subst hopen
      have hcs : level? (inside + 1 + outside + 1) cs = some 0 := by
        simpa [level?, Nat.add_right_comm] using h
      obtain ⟨post, rest, rfl, hpost⟩ := ih hcs
      exact ⟨'(' :: post, rest, rfl, by simpa [level?] using hpost⟩
    by_cases hclose : c = ')'
    · subst hclose
      cases inside with
      | zero => exact ⟨[], cs, rfl, rfl⟩
      | succ inside =>
        have hcs : level? (inside + outside + 1) cs = some 0 := by
          simpa [level?, Nat.add_right_comm] using h
        obtain ⟨post, rest, rfl, hpost⟩ := ih hcs
        exact ⟨')' :: post, rest, rfl, by simpa [level?] using hpost⟩
    · obtain ⟨post, rest, rfl, hpost⟩ := ih (by simpa [level?, hopen, hclose] using h)
      exact ⟨c :: post, rest, rfl, by simpa [level?, hopen, hclose] using hpost⟩

/-! ## The parentheses that are open -/

/-- What is before each of the parentheses that are open at the end of a text,
innermost first. A text is given here from its end. -/
def openers : List Char → List (List Char)
  | [] => []
  | c :: rev =>
    if c = '(' then rev :: openers rev
    else if c = ')' then (openers rev).tail
    else openers rev

theorem openers_append_of_noParentheses (h : NoParentheses cs) :
    openers (cs ++ rev) = openers rev := by
  induction cs with
  | nil => rfl
  | cons c cs ih =>
    obtain ⟨hc, hcs⟩ := List.forall_mem_cons.1 h
    simp [openers, hc, ih hcs]

/-- What is open behind a place is the text up to it and one character more. -/
theorem exists_open_cons_iff {i : Nat} {p : List Char} :
    (∃ inner, c :: rev = inner ++ '(' :: p ∧ level? 0 inner.reverse = some i) ↔
      c = '(' ∧ rev = p ∧ i = 0 ∨
        ∃ inner, rev = inner ++ '(' :: p ∧
          ∃ level, level? 0 inner.reverse = some level ∧ level? level [c] = some i := by
  have hlast (inner : List Char) : level? 0 (c :: inner).reverse = some i ↔
      ∃ level, level? 0 inner.reverse = some level ∧ level? level [c] = some i := by
    rw [List.reverse_cons, level?_append, Option.bind_eq_some_iff]
  constructor
  · rintro ⟨inner, hinner, hlevel⟩
    rcases List.cons_eq_append_iff.1 hinner with ⟨rfl, heq⟩ | ⟨inner, rfl, rfl⟩
    · obtain ⟨rfl, rfl⟩ := List.cons.inj heq
      exact .inl ⟨rfl, rfl, (Option.some.inj hlevel).symm⟩
    · exact .inr ⟨inner, rfl, (hlast inner).1 hlevel⟩
  · rintro (⟨rfl, rfl, rfl⟩ | ⟨inner, rfl, hlevel⟩)
    · exact ⟨[], rfl, rfl⟩
    · exact ⟨c :: inner, rfl, (hlast inner).2 hlevel⟩

/-- The parenthesis with `i` others open further in is the one at `i`. -/
theorem getElem?_openers {i : Nat} {p : List Char} :
    (openers rev)[i]? = some p ↔
      ∃ inner, rev = inner ++ '(' :: p ∧ level? 0 inner.reverse = some i := by
  induction rev generalizing i with
  | nil => simp [openers]
  | cons c rev ih =>
    rw [exists_open_cons_iff, openers]
    by_cases hopen : c = '('
    · subst hopen
      cases i with
      | zero => simp [level?]
      | succ i => simpa [level?] using ih
    by_cases hclose : c = ')'
    · subst hclose
      have hlevel (level : Nat) : level? level [')'] = some i ↔ level = i + 1 := by
        cases level <;> simp [level?]
      simpa [hlevel] using ih
    · simpa [level?, hopen, hclose] using ih

theorem mem_openers {p : List Char} :
    p ∈ openers rev ↔ ∃ inner, rev = inner ++ '(' :: p ∧ (level? 0 inner.reverse).isSome := by
  simp only [List.mem_iff_getElem?, getElem?_openers, Option.isSome_iff_exists]
  tauto

theorem noParentheses_of_isNameChar (h : cs.all isNameChar = true) : NoParentheses cs := by
  intro c hc
  have hname := List.all_eq_true.1 h c hc
  constructor <;> rintro rfl <;> exact absurd hname (by decide)

theorem noParentheses_of_isBlank (h : cs.all isBlank = true) : NoParentheses cs := by
  intro c hc
  have hblank := List.all_eq_true.1 h c hc
  constructor <;> rintro rfl <;> exact absurd hblank (by decide)

namespace Site

theorem open_notMem (s : Site) : '(' ∉ s.word ++ s.blanks := by
  intro hmem
  rcases List.mem_append.1 hmem with hmem | hmem
  · exact (noParentheses_of_isNameChar s.all_isNameChar _ hmem).1 rfl
  · exact (noParentheses_of_isBlank s.all_isBlank _ hmem).1 rfl

theorem exists_before_eq {before inner : List Char} (h : s.upTo = before ++ '(' :: inner) :
    ∃ pre, s.before = before ++ '(' :: pre ∧ inner = pre ++ s.word ++ s.blanks := by
  rw [upTo, List.append_assoc] at h
  rcases List.append_eq_append_iff.1 h with ⟨more, rfl, hword⟩ | ⟨more, hbefore, hinner⟩
  · exact absurd (hword ▸ List.mem_append_right more List.mem_cons_self) s.open_notMem
  · rcases List.cons_eq_append_iff.1 hinner with ⟨rfl, hword⟩ | ⟨pre, rfl, rfl⟩
    · exact absurd (hword ▸ List.mem_cons_self) s.open_notMem
    · exact ⟨pre, hbefore, (List.append_assoc ..).symm⟩

/-- In a text with paired parentheses a call stands in those of another exactly if
these are open before it. -/
theorem encloses_iff (hpaired : level? 0 s.text = some 0) :
    t.Encloses s ↔ t.upTo.reverse ∈ openers s.upTo.reverse := by
  rw [mem_openers]
  constructor
  · rintro ⟨pre, post, rest, hbefore, -, hlevel⟩
    refine ⟨(pre ++ s.word ++ s.blanks).reverse, by simp [upTo, hbefore], ?_⟩
    rw [level?_append, Option.bind_eq_some_iff] at hlevel
    obtain ⟨level, hlevel, -⟩ := hlevel
    rw [List.reverse_reverse, hlevel]
    rfl
  · rintro ⟨inner, hinner, hlevel⟩
    obtain ⟨level, hlevel⟩ := Option.isSome_iff_exists.1 hlevel
    have hupTo : s.upTo = t.upTo ++ '(' :: inner.reverse := by
      simpa using congrArg List.reverse hinner
    obtain ⟨pre, hbefore, hpre⟩ := exists_before_eq hupTo
    -- what is open around `t` stays open up to the end of what is behind `s`
    have hafter : ∃ outside, level? (level + 1 + outside + 1) s.after = some 0 := by
      rw [text, hupTo, List.append_assoc, level?_append, Option.bind_eq_some_iff] at hpaired
      obtain ⟨outside, -, hpaired⟩ := hpaired
      rw [List.cons_append, level?_open, level?_append] at hpaired
      have hinside := level?_add hlevel (outside + 1)
      rw [Nat.zero_add] at hinside
      rw [hinside, Option.bind_some, level?_open] at hpaired
      exact ⟨outside, by rwa [Nat.add_assoc level 1, Nat.add_comm 1 outside]⟩
    obtain ⟨outside, hafter⟩ := hafter
    obtain ⟨post, rest, hpost, hclosed⟩ := exists_closed hafter
    refine ⟨pre, post, rest, hbefore, hpost, ?_⟩
    rw [← hpre, level?_append, hlevel, Option.bind_some, level?_open, hclosed]

end Site

/-! ## The calls of a text -/

/-- The name before a parenthesis, blanks apart; the empty one if nothing is called. -/
def wordBefore (rev : List Char) : List Char :=
  ((rev.dropWhile isBlank).takeWhile isNameChar).reverse

def nameBefore (rev : List Char) : String := String.ofList ((wordBefore rev).map Char.toUpper)

theorem head?_dropWhile_any (p : Char → Bool) (cs : List Char) :
    (cs.dropWhile p).head?.any p = false := by
  have hhead := List.head?_dropWhile_not p cs
  cases h : (cs.dropWhile p).head? with
  | none => rfl
  | some c => rwa [h] at hhead

theorem all_takeWhile (p : Char → Bool) (cs : List Char) : (cs.takeWhile p).all p = true :=
  List.all_eq_true.2 fun _ => List.mem_takeWhile_imp

theorem dropWhile_append_of_ends {p : Char → Bool} {rest : List Char} (h : cs.all p = true)
    (hrest : rest.head?.any p = false) : (cs ++ rest).dropWhile p = rest := by
  have hsplit := List.takeWhile_append_dropWhile (p := p) (l := cs ++ rest)
  rw [takeWhile_append_of_ends h hrest] at hsplit
  exact List.append_cancel_left hsplit

/-- The call of the parenthesis between two texts. -/
def siteAt? (rev after : List Char) : Option Site :=
  if h : (wordBefore rev).all Char.isDigit = false then
    some
      { before := ((rev.dropWhile isBlank).dropWhile isNameChar).reverse
        word := wordBefore rev
        blanks := (rev.takeWhile isBlank).reverse
        after
        before_ends := by rw [List.reverse_reverse]; exact head?_dropWhile_any _ _
        all_isNameChar := by rw [wordBefore, List.all_reverse]; exact all_takeWhile _ _
        not_all_isDigit := h
        all_isBlank := by rw [List.all_reverse]; exact all_takeWhile _ _ }
  else none

/-- The calls with a parenthesis in `cs`, where `rev` has been read before. -/
def sitesFrom (rev : List Char) : List Char → List Site
  | [] => []
  | c :: cs =>
    if c = '(' then (siteAt? rev cs).toList ++ sitesFrom (c :: rev) cs
    else sitesFrom (c :: rev) cs

namespace Site

theorem head?_word_append (s : Site) (rest : List Char) :
    (s.word.reverse ++ rest).head?.any isBlank = false := by
  cases hword : s.word.reverse with
  | nil => simpa [List.reverse_eq_nil_iff.1 hword] using s.not_all_isDigit
  | cons c cs =>
    have hc : c ∈ s.word := List.mem_reverse.1 (hword ▸ List.mem_cons_self)
    simpa using isBlank_of_isNameChar (List.all_eq_true.1 s.all_isNameChar c hc)

theorem reverse_upTo (s : Site) :
    s.upTo.reverse = s.blanks.reverse ++ (s.word.reverse ++ s.before.reverse) := by
  simp [upTo]

theorem dropWhile_upTo (s : Site) :
    s.upTo.reverse.dropWhile isBlank = s.word.reverse ++ s.before.reverse := by
  rw [reverse_upTo, dropWhile_append_of_ends (by simpa using s.all_isBlank)
    (s.head?_word_append _)]

theorem wordBefore_upTo (s : Site) : wordBefore s.upTo.reverse = s.word := by
  rw [wordBefore, dropWhile_upTo, takeWhile_append_of_ends (by simpa using s.all_isNameChar)
    s.before_ends, List.reverse_reverse]

theorem nameBefore_upTo (s : Site) : nameBefore s.upTo.reverse = s.name := by
  rw [nameBefore, wordBefore_upTo, name]

end Site

theorem siteAt?_upTo (s : Site) : siteAt? s.upTo.reverse s.after = some s := by
  have hbefore : (s.upTo.reverse.dropWhile isBlank).dropWhile isNameChar = s.before.reverse := by
    rw [s.dropWhile_upTo, dropWhile_append_of_ends (by simpa using s.all_isNameChar) s.before_ends]
  have hblanks : s.upTo.reverse.takeWhile isBlank = s.blanks.reverse := by
    rw [s.reverse_upTo, takeWhile_append_of_ends (by simpa using s.all_isBlank)
      (s.head?_word_append _)]
  simp [siteAt?, s.wordBefore_upTo, s.not_all_isDigit, hbefore, hblanks]

theorem upTo_of_siteAt? (h : siteAt? rev after = some s) :
    s.upTo = rev.reverse ∧ s.after = after := by
  rw [siteAt?] at h
  split at h
  · rw [← Option.some.inj h]
    refine ⟨?_, rfl⟩
    simp only [Site.upTo, wordBefore, ← List.reverse_append, List.takeWhile_append_dropWhile]
  · cases h

theorem mem_sitesFrom :
    s ∈ sitesFrom rev cs ↔ ∃ between, s.upTo = rev.reverse ++ between ∧
      cs = between ++ '(' :: s.after := by
  induction cs generalizing rev with
  | nil => simp [sitesFrom]
  | cons c cs ih =>
    have hhere : siteAt? rev cs = some s ↔ s.upTo = rev.reverse ∧ s.after = cs := by
      refine ⟨upTo_of_siteAt?, fun ⟨hupTo, hafter⟩ => ?_⟩
      have hsite := siteAt?_upTo s
      rwa [hupTo, List.reverse_reverse, hafter] at hsite
    have hmem : s ∈ sitesFrom rev (c :: cs) ↔
        (c = '(' ∧ s.upTo = rev.reverse ∧ s.after = cs) ∨ s ∈ sitesFrom (c :: rev) cs := by
      rw [sitesFrom]
      split <;> simp [*]
    rw [hmem, ih]
    constructor
    · rintro (⟨rfl, hupTo, rfl⟩ | ⟨between, hupTo, rfl⟩)
      · exact ⟨[], by simpa using hupTo, rfl⟩
      · exact ⟨c :: between, by simpa using hupTo, rfl⟩
    · rintro ⟨between, hupTo, hcs⟩
      rcases List.cons_eq_append_iff.1 hcs with ⟨rfl, heq⟩ | ⟨between, rfl, rfl⟩
      · obtain ⟨rfl, hafter⟩ := List.cons.inj heq
        exact .inl ⟨rfl, by simpa using hupTo, hafter⟩
      · exact .inr ⟨between, by simpa using hupTo, rfl⟩

theorem mem_sites : s ∈ sitesFrom [] text ↔ s.text = text := by
  rw [mem_sitesFrom, Site.text]
  simp [eq_comm]

/-- They come in the order of their parentheses. -/
theorem pairwise_sitesFrom :
    (sitesFrom rev cs).Pairwise fun s t => s.upTo.length < t.upTo.length := by
  induction cs generalizing rev with
  | nil => exact .nil
  | cons c cs ih =>
    rw [sitesFrom]
    split
    · refine List.pairwise_append.2 ⟨by cases siteAt? rev cs <;> simp, ih, ?_⟩
      intro s hs t ht
      obtain ⟨hupTo, -⟩ := upTo_of_siteAt? (by simpa using hs)
      obtain ⟨between, hlater, -⟩ := mem_sitesFrom.1 ht
      simp [hupTo, hlater]
    · exact ih

/-! ## The scanner -/

/-- What the scanner makes of a call. -/
def Site.call (s : Site) : Call :=
  ⟨s.name, ((openers s.upTo.reverse).map nameBefore).reverse.filter (!·.isEmpty)⟩

theorem isDigit_toUpper (c : Char) : c.toUpper.isDigit = c.isDigit := by
  unfold Char.toUpper
  split
  · rename_i h
    obtain ⟨h1, h2⟩ := h
    rw [UInt32.le_iff_toNat_le] at h1 h2
    change 97 ≤ c.val.toNat at h1
    change c.val.toNat ≤ 122 at h2
    have hupper : (c.val + ('A'.val - 'a'.val)).toNat = c.val.toNat - 32 := by
      rw [UInt32.toNat_add, show ('A'.val - 'a'.val).toNat = 4294967264 from rfl]
      omega
    rw [Bool.eq_iff_iff]
    simp only [Char.isDigit, UInt32.le_iff_toNat_le, ge_iff_le, Bool.and_eq_true,
      decide_eq_true_eq, hupper, show '0'.val.toNat = 48 from rfl,
      show '9'.val.toNat = 57 from rfl]
    omega
  · rfl

theorem isFunctionName_nameBefore :
    isFunctionName (nameBefore rev) = !(wordBefore rev).all Char.isDigit := by
  rw [isFunctionName, nameBefore]
  cases wordBefore rev <;> simp [isDigit_toUpper, Function.comp_def]

/-- The call of `name` inside of what is on the stack, if it is a call. -/
def callOf (name : String) (stack : List String) : List Call :=
  if isFunctionName name then [⟨name, stack.reverse.filter (!·.isEmpty)⟩] else []

theorem map_call_siteAt? :
    (siteAt? rev after).toList.map Site.call =
      callOf (nameBefore rev) ((openers rev).map nameBefore) := by
  cases hsite : siteAt? rev after with
  | none =>
    have hdigits : (wordBefore rev).all Char.isDigit = true := by
      by_contra hword
      simp [siteAt?, Bool.eq_false_iff.2 hword] at hsite
    simp [callOf, isFunctionName_nameBefore, hdigits]
  | some s =>
    obtain rfl : s.upTo.reverse = rev := by rw [(upTo_of_siteAt? hsite).1, List.reverse_reverse]
    have hname : isFunctionName (nameBefore s.upTo.reverse) = true := by
      rw [isFunctionName_nameBefore, s.wordBefore_upTo, s.not_all_isDigit]
      rfl
    rw [callOf, if_pos hname, s.nameBefore_upTo]
    rfl

section Steps

variable {stack : List String} {word blanks rest : List Char}

theorem callsFrom_name (hc : isNameChar c = true) :
    callsFrom stack word (c :: cs) = callsFrom stack (c :: word) cs := by
  rw [callsFrom, if_pos hc]

theorem callsFrom_open (hblanks : blanks.all isBlank = true) :
    callsFrom stack word (blanks ++ '(' :: rest) =
      callOf (String.ofList (word.reverse.map Char.toUpper)) stack ++
        callsFrom (String.ofList (word.reverse.map Char.toUpper) :: stack) [] rest := by
  obtain ⟨c, cs, hcs⟩ : ∃ c cs, blanks ++ '(' :: rest = c :: cs :=
    List.exists_cons_of_ne_nil (by simp)
  have hc : isNameChar c = false := by
    cases blanks with
    | nil => exact (List.cons.inj hcs).1 ▸ by decide
    | cons b blanks =>
      rw [List.all_cons, Bool.and_eq_true, (List.cons.inj hcs).1] at hblanks
      by_contra hname
      rw [isBlank_of_isNameChar (by simpa using hname)] at hblanks
      exact absurd hblanks.1 (by decide)
  have htake : (c :: cs).takeWhile isBlank = blanks := by
    rw [← hcs, takeWhile_append_of_ends hblanks rfl]
  have hdrop : (c :: cs).drop blanks.length = '(' :: rest := by rw [← hcs, List.drop_left]
  have hrest : cs.drop blanks.length = rest := by
    rw [← List.drop_succ_cons (a := c), ← List.drop_drop, hdrop]
    rfl
  rw [hcs, callsFrom, if_neg (by simp [hc])]
  dsimp only
  rw [htake, hdrop, hrest, if_pos (by rfl), callOf]
  split <;> rfl

theorem callsFrom_other (hc : isNameChar c = false)
    (hnone : ((c :: cs).dropWhile isBlank).head? ≠ some '(') :
    callsFrom stack word (c :: cs) =
      callsFrom (if c = ')' then stack.tail else stack) [] cs := by
  have hdrop : (c :: cs).drop ((c :: cs).takeWhile isBlank).length = (c :: cs).dropWhile isBlank :=
    List.append_cancel_left
      ((Formula.drop_takeWhile isBlank _).trans List.takeWhile_append_dropWhile.symm)
  rw [callsFrom, if_neg (by simp [hc])]
  simp [hdrop, hnone]

end Steps

theorem sitesFrom_append_of_noParentheses (h : NoParentheses xs) :
    sitesFrom rev (xs ++ ys) = sitesFrom (xs.reverse ++ rev) ys := by
  induction xs generalizing rev with
  | nil => rfl
  | cons c xs ih =>
    obtain ⟨hc, hxs⟩ := List.forall_mem_cons.1 h
    simp [sitesFrom, hc, ih hxs]

/-- The word that the scanner has is the one at the end of what it has read; and if a
parenthesis comes next, it is what is called, though blanks may have been read since a
word that the scanner no longer has. -/
structure Reading (rev word cs : List Char) : Prop where
  takeWhile_eq : rev.takeWhile isNameChar = word
  called : (cs.dropWhile isBlank).head? = some '(' → wordBefore rev = word.reverse

theorem Reading.cons_of_isNameChar {word : List Char} (h : Reading rev word (c :: cs))
    (hc : isNameChar c = true) : Reading (c :: rev) (c :: word) cs where
  takeWhile_eq := by rw [List.takeWhile_cons_of_pos hc, h.takeWhile_eq]
  called _ := by
    have hblank : ¬ isBlank c = true := by simp [isBlank_of_isNameChar hc]
    rw [wordBefore, List.dropWhile_cons_of_neg hblank, List.takeWhile_cons_of_pos hc,
      h.takeWhile_eq]

/-- A word ends at a character that cannot stand in it. -/
theorem reading_nil (hc : isNameChar c = false)
    (hnone : isBlank c = true → (cs.dropWhile isBlank).head? ≠ some '(') :
    Reading (c :: rev) [] cs where
  takeWhile_eq := List.takeWhile_cons_of_neg (by simp [hc])
  called hopen := by
    have hblank : ¬ isBlank c = true := fun hblank => hnone hblank hopen
    rw [wordBefore, List.dropWhile_cons_of_neg hblank,
      List.takeWhile_cons_of_neg (by simp [hc])]

theorem wordBefore_append {blanks : List Char} (h : blanks.all isBlank = true) :
    wordBefore (blanks.reverse ++ rev) = wordBefore rev := by
  rw [wordBefore, List.dropWhile_append_of_pos (by simpa using h), wordBefore]

theorem exists_blanks (h : (cs.dropWhile isBlank).head? = some '(') :
    ∃ blanks rest, cs = blanks ++ '(' :: rest ∧ blanks.all isBlank = true := by
  obtain ⟨rest, hrest⟩ := List.head?_eq_some_iff.1 h
  refine ⟨cs.takeWhile isBlank, rest, ?_, all_takeWhile _ _⟩
  rw [← hrest, List.takeWhile_append_dropWhile]

/-- The names on the stack are those before the parentheses that are open. -/
theorem callsFrom_eq {rev word cs : List Char} (h : Reading rev word cs) :
    callsFrom ((openers rev).map nameBefore) word cs = (sitesFrom rev cs).map Site.call := by
  match cs with
  | [] => rw [callsFrom, sitesFrom, List.map_nil]
  | c :: cs =>
    by_cases hopen : ((c :: cs).dropWhile isBlank).head? = some '('
    · -- the scanner goes on behind the parenthesis, and the blanks before it change nothing
      obtain ⟨blanks, rest, hcs, hblanks⟩ := exists_blanks hopen
      have hlength : rest.length ≤ cs.length := by
        have heq := congrArg List.length hcs
        simp only [List.length_cons, List.length_append] at heq
        omega
      have hnone := noParentheses_of_isBlank hblanks
      have hopeners : openers (blanks.reverse ++ rev) = openers rev :=
        openers_append_of_noParentheses fun c hc => hnone c (List.mem_reverse.1 hc)
      have hname : nameBefore (blanks.reverse ++ rev) =
          String.ofList (word.reverse.map Char.toUpper) := by
        rw [nameBefore, wordBefore_append hblanks, h.called hopen]
      have hnext : Reading ('(' :: (blanks.reverse ++ rev)) [] rest :=
        reading_nil (by decide) fun h => absurd h (by decide)
      have hrest := callsFrom_eq hnext
      rw [openers, if_pos rfl, List.map_cons, hopeners, hname] at hrest
      rw [hcs, callsFrom_open hblanks, sitesFrom_append_of_noParentheses hnone, sitesFrom,
        if_pos rfl, List.map_append, map_call_siteAt?, hopeners, hname, hrest]
    · have hc' : c ≠ '(' := by
        rintro rfl
        exact hopen rfl
      rw [sitesFrom, if_neg hc']
      cases hc : isNameChar c with
      | true =>
        have hparenthesis : NoParentheses [c] := noParentheses_of_isNameChar (by simp [hc])
        have hopeners : openers ([c] ++ rev) = openers rev :=
          openers_append_of_noParentheses hparenthesis
        rw [List.singleton_append] at hopeners
        rw [callsFrom_name hc, ← hopeners, callsFrom_eq (h.cons_of_isNameChar hc)]
      | false =>
        have hopeners : (if c = ')' then ((openers rev).map nameBefore).tail
            else (openers rev).map nameBefore) = (openers (c :: rev)).map nameBefore := by
          rw [openers, if_neg hc']
          split <;> simp
        have hnext : Reading (c :: rev) [] cs := reading_nil hc fun hblank => by
          rwa [List.dropWhile_cons_of_pos hblank] at hopen
        rw [callsFrom_other hc hopen, hopeners, callsFrom_eq hnext]
termination_by cs.length

/-- The scanner finds the calls of the blanked text. -/
theorem calls_eq {expression : String} (h : Blanked expression.toList text) :
    calls expression = (sitesFrom [] text).map Site.call := by
  have hstart : Reading [] [] text := ⟨rfl, fun _ => rfl⟩
  rw [calls, h.mask_eq]
  exact callsFrom_eq hstart

/-- In a text with paired parentheses a call is inside of a default, as the scanner sees
it, exactly if it stands in the parentheses of one. -/
theorem any_enclosing_iff (hpaired : level? 0 s.text = some 0) :
    s.call.enclosing.any nullGuards.contains = true ↔
      ∃ t : Site, t.text = s.text ∧ t.name ∈ nullGuards ∧ t.Encloses s := by
  have hguards : ∀ name ∈ nullGuards, isFunctionName name = true ∧ name.isEmpty = false := by
    decide
  simp only [List.any_eq_true, Site.call, List.mem_filter, List.mem_reverse, List.mem_map,
    List.contains_iff_mem]
  constructor
  · rintro ⟨_, ⟨⟨p, hp, rfl⟩, -⟩, hguard⟩
    obtain ⟨inner, hinner, -⟩ := mem_openers.1 hp
    have hword : (wordBefore p).all Char.isDigit = false := by
      have hname := (hguards _ hguard).1
      rwa [isFunctionName_nameBefore, Bool.not_eq_true'] at hname
    have hsite : (siteAt? p (inner.reverse ++ '(' :: s.after)).isSome := by
      rw [siteAt?, dif_pos hword]
      rfl
    obtain ⟨t, ht⟩ := Option.isSome_iff_exists.1 hsite
    obtain ⟨hupTo, hafter⟩ := upTo_of_siteAt? ht
    obtain rfl : t.upTo.reverse = p := by rw [hupTo, List.reverse_reverse]
    refine ⟨t, ?_, t.nameBefore_upTo ▸ hguard, (Site.encloses_iff hpaired).2 hp⟩
    have hs : s.upTo = t.upTo ++ '(' :: inner.reverse := by
      simpa using congrArg List.reverse hinner
    simp [Site.text, hafter, hs]
  · rintro ⟨t, -, hguard, hencloses⟩
    refine ⟨t.name, ⟨⟨_, (Site.encloses_iff hpaired).1 hencloses, t.nameBefore_upTo⟩, ?_⟩, hguard⟩
    simp [(hguards _ hguard).2]

/-! ## What is reported -/

variable {d : Sql.Dialect} {expression : String} {compiled : Compiled}

/-- The call may be null, and stands in the parentheses of no default. -/
def Site.MayBeNull (s : Site) : Prop :=
  s.name ∈ nullProneFunctions ∧
    ∀ t : Site, t.text = s.text → t.name ∈ nullGuards → ¬ t.Encloses s

/-- The calls of an accepted expression for which there is a warning. -/
def warnedCalls (text : List Char) : List Site :=
  (sitesFrom [] text).filter fun s =>
    nullProneFunctions.contains s.name && !s.call.enclosing.any nullGuards.contains

theorem mem_warnedCalls (hpaired : level? 0 text = some 0) :
    s ∈ warnedCalls text ↔ s.text = text ∧ s.MayBeNull := by
  rw [warnedCalls, List.mem_filter, mem_sites]
  refine and_congr_right fun htext => ?_
  have henclosing := any_enclosing_iff (s := s) (htext ▸ hpaired)
  rw [Bool.and_eq_true, List.contains_iff_mem, Bool.not_eq_true', ← Bool.not_eq_true, henclosing,
    Site.MayBeNull]
  simp only [not_exists, not_and]

theorem warningsFor_map_call (references : List Reference) :
    warningsFor ((sitesFrom [] text).map Site.call) references =
      (warnedCalls text).map (nullWarning ·.name) ++
        if uniqueNames references = [] then [constantWarning] else [] := by
  have hnames : uniqueNames references = [] ↔ references.isEmpty := by
    cases references <;> simp [uniqueNames, List.eraseDups_cons]
  rw [warningsFor, List.filter_map, List.map_map]
  simp only [hnames]
  rfl

theorem level?_of_compile (h : compile d expression = .ok compiled)
    (htext : Blanked expression.toList text) : level? 0 text = some 0 := by
  obtain ⟨hsubstituted, hguard⟩ := compile_eq_ok h
  rw [← htext.depth?_eq, ← hsubstituted.depth?_eq]
  exact depth?_of_guardSql hguard

theorem aggregate_of_compile {name : String}
    (h : compile d expression = .error (.aggregateInRow name)) :
    ∃ references, extractReferences expression = .ok references ∧
      ∃ call ∈ calls expression, call.name = name ∧ name ∈ aggregateFunctions := by
  unfold compile at h
  split at h
  · cases h
  obtain h | ⟨references, hreferences, h⟩ := Except.bind_eq_error.1 h
  · obtain ⟨fault, -, h⟩ := Except.mapError_eq_error.1 h
    cases h
  obtain h | ⟨_, -, h⟩ := Except.bind_eq_error.1 h
  · obtain ⟨fault, -, h⟩ := Except.mapError_eq_error.1 h
    cases h
  dsimp only at h
  split at h
  · rename_i call hcall
    obtain rfl := Error.aggregateInRow.inj (Except.error.inj h)
    exact ⟨references, Except.mapError_eq_ok.1 hreferences, call, List.mem_of_find?_eq_some hcall,
      rfl, by simpa using List.find?_some hcall⟩
  · cases h

/-- An accepted expression has one blanked text; no aggregate is called in it, and there
is a warning for each call that may be null, in their order. An aggregate is reported
only where one is called. -/
theorem calls_reported (d : Sql.Dialect) (expression : String) :
    (∀ compiled, compile d expression = .ok compiled →
      ∃ text, (∀ other, Blanked expression.toList other ↔ other = text) ∧
        (∀ s : Site, s.text = text → s.name ∉ aggregateFunctions) ∧
        ∃ warned : List Site, warned.Pairwise (fun s t => s.upTo.length < t.upTo.length) ∧
          (∀ s, s ∈ warned ↔ s.text = text ∧ s.MayBeNull) ∧
          compiled.warnings = warned.map (nullWarning ·.name) ++
            if compiled.dependsOn = [] then [constantWarning] else []) ∧
    ∀ name, compile d expression = .error (.aggregateInRow name) →
      ∃ text, (∀ other, Blanked expression.toList other ↔ other = text) ∧
        ∃ s : Site, s.text = text ∧ s.name = name ∧ name ∈ aggregateFunctions := by
  constructor
  · intro compiled h
    obtain ⟨references, haccepts⟩ := exists_accepts h
    obtain ⟨text, htext⟩ := exists_blanked haccepts.extracted
    refine ⟨text, htext.iff_eq, fun s hs => ?_, warnedCalls text, pairwise_sitesFrom.filter _,
      fun s => mem_warnedCalls (level?_of_compile h htext), ?_⟩
    · refine haccepts.noAggregate s.call ?_
      rw [calls_eq htext]
      exact List.mem_map_of_mem (mem_sites.2 hs)
    · rw [haccepts.warnings_eq, haccepts.dependsOn_eq, calls_eq htext, warningsFor_map_call]
  · intro name h
    obtain ⟨references, hreferences, call, hcall, rfl, haggregate⟩ := aggregate_of_compile h
    obtain ⟨text, htext⟩ := exists_blanked hreferences
    rw [calls_eq htext, List.mem_map] at hcall
    obtain ⟨s, hs, rfl⟩ := hcall
    exact ⟨text, htext.iff_eq, s, mem_sites.1 hs, rfl, haggregate⟩

/-- A split in a default, and none around it; and a sum. -/
theorem calls_reported_of_splits :
    (∃ compiled, compile .bigQuery "SPLIT({a}, '(') || IFNULL(SPLIT({b}, ','), '')" = .ok compiled ∧
      ∃ text, Blanked "SPLIT({a}, '(') || IFNULL(SPLIT({b}, ','), '')".toList text ∧
        ∃ warned : List Site, (∀ s, s ∈ warned ↔ s.text = text ∧ s.MayBeNull) ∧
          warned.map (nullWarning ·.name) = [nullWarning "SPLIT"]) ∧
    ∃ text, Blanked "sum ({a})".toList text ∧ ∃ s : Site, s.text = text ∧ s.name = "SUM" := by
  constructor
  · obtain ⟨compiled, hcompiled, hreport⟩ := Except.exists_of_any
      (x := compile .bigQuery "SPLIT({a}, '(') || IFNULL(SPLIT({b}, ','), '')")
      (p := fun compiled => decide (compiled.warnings = [nullWarning "SPLIT"] ∧
        compiled.dependsOn = ["a", "b"])) (by decide +kernel)
    obtain ⟨hwarnings, hdependsOn⟩ := of_decide_eq_true hreport
    obtain ⟨text, htext, -, warned, -, hwarned, heq⟩ := (calls_reported _ _).1 compiled hcompiled
    refine ⟨compiled, hcompiled, text, (htext text).2 rfl, warned, hwarned, ?_⟩
    simpa [hwarnings, hdependsOn] using heq.symm
  · obtain ⟨text, htext, s, hs, hname, -⟩ :=
      (calls_reported .bigQuery "sum ({a})").2 "SUM" (Except.error?_eq_some.1 (by decide +kernel))
    exact ⟨text, (htext text).2 rfl, s, hs, hname⟩

end MetricLayer.RowExpression
