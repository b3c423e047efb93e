import Mathlib.Data.List.Chain
import MetricLayer.Proofs.Formula.Shape

/-!
# The grammar of formulas

The converse of `written_of_read` and `shaped_of_read`. The tokens that a shaped
formula is written as do not run together (`apart_written`), so that a text that
spells them is split into them (`tokensFrom_of_spells`); and wherever the formula may
stand as an operand, they are read as it (`Shaped.parses`). So a shaped formula whose
tokens are valid is read from every text that spells it (`read_of_spells`), and no
other formula is written alike (`Shaped.eq_of_written_eq`).
-/

namespace MetricLayer.Formula

/-! ## Tokens that do not run together -/

/-- Whether the token is one character that begins no other token. -/
def Token.isSign : Token → Bool
  | .opening | .closing | .comma | .op _ => true
  | .reference _ | .number _ | .literal _ | .ident _ => false

/-- Whether `c` could go on with a number, a name or a text before it. -/
def goesOn (c : Char) : Bool := Text.isNameChar c || c == '.' || c == '\''

/-- What comes next does not go on with the token before it. -/
def Ends (rest : List Char) : Prop := rest.head?.any goesOn = false

/-- Of any two tokens next to each other one is a sign. -/
def Apart (ts : List Token) : Prop := ts.IsChain fun t u => t.isSign = true ∨ u.isSign = true

theorem Apart.append_sign {ts us : List Token} {t : Token} (hts : Apart ts)
    (ht : t.isSign = true) (hus : Apart us) : Apart (ts ++ t :: us) := by
  refine List.isChain_append.2 ⟨hts, List.isChain_cons.2 ⟨fun _ _ => .inl ht, hus⟩, ?_⟩
  rintro _ - u hu
  obtain rfl : t = u := by simpa using hu
  exact .inr ht

mutual

theorem apart_written : (f : Formula) → Apart f.written
  | .reference _ | .number _ | .literal _ => .singleton _
  | .negate f => Apart.append_sign .nil rfl (apart_written f)
  | .binary _ l r => (apart_written l).append_sign rfl (apart_written r)
  | .group f => Apart.append_sign .nil rfl ((apart_written f).append_sign rfl .nil)
  | .call name arguments =>
    have hname : Apart [.ident name] := .singleton _
    hname.append_sign rfl ((apart_writtenAll arguments).append_sign rfl .nil)

theorem apart_writtenAll : (fs : List Formula) → Apart (writtenAll fs)
  | [] => .nil
  | f :: rest => apart_append_writtenMore rest f.written (apart_written f)

theorem apart_append_writtenMore : (fs : List Formula) → (ts : List Token) → Apart ts →
    Apart (ts ++ writtenMore fs)
  | [], ts, hts => by rwa [writtenMore, List.append_nil]
  | f :: rest, ts, hts => by
    rw [writtenMore]
    exact hts.append_sign rfl (apart_append_writtenMore rest f.written (apart_written f))

end

/-! ## Splitting a text into tokens -/

theorem lexeme_of_isSign {t : Token} (h : t.isSign = true) :
    ∃ c, t.lexeme = [c] ∧ goesOn c = false := by
  cases t with
  | opening | closing | comma => exact ⟨_, rfl, by decide⟩
  | op op => cases op <;> exact ⟨_, rfl, by decide⟩
  | _ => cases h

theorem isBlank_of_goesOn {c : Char} (h : goesOn c = true) : Text.isBlank c = false := by
  simp only [goesOn, Bool.or_eq_true, beq_iff_eq] at h
  rcases h with (h | rfl) | rfl
  · exact isBlank_of_isNameChar h
  · decide
  · decide

theorem ends_of_spells {ts : List Token} {cs : List Char} (h : Spells ts cs)
    (hsign : ∀ t ∈ ts.head?, t.isSign = true) : Ends cs := by
  cases h with
  | nil => rfl
  | blank hblank _ =>
    refine Bool.eq_false_iff.2 fun hc => ?_
    rw [isBlank_of_goesOn hc] at hblank
    cases hblank
  | token t _ =>
    obtain ⟨c, hlexeme, hc⟩ := lexeme_of_isSign (hsign t rfl)
    rw [hlexeme]
    exact hc

theorem Ends.of_imp {p : Char → Bool} {rest : List Char} (h : Ends rest)
    (hp : ∀ c, p c = true → goesOn c = true) : rest.head?.any p = false := by
  cases rest with
  | nil => rfl
  | cons c rest => exact Bool.eq_false_iff.2 fun hc => Bool.eq_false_iff.1 h (hp c hc)

theorem quotedText?_doubled (inner : List Char) {rest : List Char}
    (hrest : rest.head? ≠ some '\'') :
    quotedText? (doubled inner ++ '\'' :: rest) = some (inner, (doubled inner).length + 1) := by
  induction inner with
  | nil =>
    cases rest with
    | nil => rfl
    | cons c rest =>
      rw [doubled_nil, List.nil_append, quotedText?]
      · rfl
      · rintro _ ⟨⟩
        exact hrest rfl
  | cons c inner ih =>
    by_cases hc : c = '\''
    · subst hc
      simp [quotedText?, ih]
    · rw [doubled_cons_of_ne hc, List.cons_append, quotedText?, ih]
      · rfl
      · rintro _ rfl _
        exact hc rfl
      · rintro rfl
        exact hc rfl

theorem beq_marks {c : Char} (h : Reference.isMark c = false) :
    ¬ (c == '{') = true ∧ ¬ (c == '}') = true ∧ ¬ (c == '\'') = true := by
  simp only [Reference.isMark, Bool.or_eq_false_iff] at h
  simp [h]

theorem tokenAt_of_reference {name : String} (h : isName name = true) (rest : List Char)
    (position : Nat) :
    tokenAt position '{' (name.toList ++ ['}'] ++ rest) =
      .ok (.reference name, (name.toList ++ ['}']).length) := by
  have hinner : name.toList.all (fun c => c != '}' && c != '{') = true := by
    refine List.all_eq_true.2 fun c hc => ?_
    have hmarks := beq_marks (isMark_eq_false_of_isNameChar (isNameChar_of_isName h c hc))
    simp [bne, hmarks]
  have htake : (name.toList ++ '}' :: rest).takeWhile (fun c => c != '}' && c != '{') =
      name.toList :=
    takeWhile_append_of_ends hinner rfl
  rw [List.append_assoc, List.singleton_append, tokenAt, if_pos (beq_self_eq_true _)]
  simp only [htake, String.ofList_toList, List.drop_left, isBlankText_of_isName h, h]
  rw [List.length_append]
  rfl

theorem tokenAt_of_number {digits : String} (h : IsNumber digits) {rest : List Char}
    (hrest : Ends rest) : ∃ c cs, digits.toList = c :: cs ∧ Text.isBlank c = false ∧
      ∀ position, tokenAt position c (cs ++ rest) = .ok (.number digits, cs.length) := by
  obtain ⟨c, cs, hcs, hc⟩ := h.exists_cons
  obtain ⟨hopen, hclose, hquote⟩ := beq_marks (isMark_eq_false_of_mem_number h c (by simp [hcs]))
  have hgoes : ∀ d : Char, (d.isDigit || d == '.') = true → goesOn d = true := by
    intro d hd
    rcases Bool.or_eq_true_iff.1 hd with hd | hd
    · simp [goesOn, Text.isNameChar, Char.isAlphanum, hd]
    · simp [goesOn, hd]
  obtain ⟨hleading, -, hpoint⟩ := h
  rw [hcs] at hleading hpoint
  have hall : leadingNumber false (c :: (cs ++ rest)) = c :: cs :=
    leadingNumber_append hleading (hrest.of_imp hgoes)
  refine ⟨c, cs, hcs, isBlank_of_goesOn (hgoes c hc), fun position => ?_⟩
  rw [tokenAt, if_neg hopen, if_neg hclose, if_neg hquote, if_pos hc]
  simp only [hall]
  rw [if_neg (by simpa using hpoint), ← hcs, String.ofList_toList, hcs]
  rfl

theorem tokenAt_of_ident {name : String} (h : isName name = true) {rest : List Char}
    (hrest : Ends rest) : ∃ c cs, name.toList = c :: cs ∧ Text.isBlank c = false ∧
      ∀ position, tokenAt position c (cs ++ rest) = .ok (.ident name, cs.length) := by
  obtain ⟨c, cs, hcs, hc, hall⟩ := exists_cons_of_isName h
  have hname := isNameChar_of_isAlpha hc
  obtain ⟨hopen, hclose, hquote⟩ := beq_marks (isMark_eq_false_of_isNameChar hname)
  have htake := takeWhile_append_of_ends hall
    (hrest.of_imp fun d hd => by simp [goesOn, hd])
  refine ⟨c, cs, hcs, isBlank_of_isNameChar hname, fun position => ?_⟩
  rw [tokenAt, if_neg hopen, if_neg hclose, if_neg hquote,
    if_neg (by simp [isDigit_or_point_eq_false hc]), if_pos hc]
  simp only [htake]
  rw [← hcs, String.ofList_toList]

theorem Ends.head?_ne_quote {rest : List Char} (h : Ends rest) : rest.head? ≠ some '\'' := by
  intro hhead
  rw [Ends, hhead] at h
  exact absurd h (by decide)

theorem tokenAt_of_literal (value : String) {rest : List Char} (hrest : rest.head? ≠ some '\'')
    (position : Nat) :
    tokenAt position '\'' (doubled value.toList ++ ['\''] ++ rest) =
      .ok (.literal value, (doubled value.toList ++ ['\'']).length) := by
  rw [List.append_assoc, List.singleton_append, tokenAt, if_neg (by decide), if_neg (by decide),
    if_pos (by decide), quotedText?_doubled _ hrest]
  simp

/-- A token is found by its characters, if what comes next does not go on with it. -/
theorem tokenAt_of_lexeme {t : Token} (ht : t.Valid) {rest : List Char}
    (hrest : t.isSign = true ∨ Ends rest) :
    ∃ c cs, t.lexeme = c :: cs ∧ Text.isBlank c = false ∧
      ∀ position, tokenAt position c (cs ++ rest) = .ok (t, cs.length) := by
  have hends : t.isSign = false → Ends rest := fun h => hrest.resolve_left (by simp [h])
  cases t with
  | reference name => exact ⟨_, _, rfl, by decide, tokenAt_of_reference ht rest⟩
  | number digits => exact tokenAt_of_number ht (hends rfl)
  | literal value => exact ⟨_, _, rfl, by decide, tokenAt_of_literal value (hends rfl).head?_ne_quote⟩
  | ident name => exact tokenAt_of_ident ht (hends rfl)
  | opening | closing | comma => exact ⟨_, _, rfl, by decide, fun _ => rfl⟩
  | op op => cases op <;> exact ⟨_, _, rfl, by decide, fun _ => rfl⟩

theorem tokensFrom_nil (position : Nat) : tokensFrom position [] = .ok [] := by
  rw [tokensFrom.eq_def]

theorem tokensFrom_of_blank {c : Char} (hc : Text.isBlank c = true) (cs : List Char)
    (position : Nat) : tokensFrom position (c :: cs) = tokensFrom (position + c.utf8Size) cs := by
  rw [tokensFrom.eq_def]
  exact if_pos hc

theorem tokensFrom_of_token {position : Nat} {c : Char} {cs : List Char} {t : Token} {length : Nat}
    (hc : Text.isBlank c = false) (h : tokenAt position c cs = .ok (t, length)) :
    tokensFrom position (c :: cs) =
      (tokensFrom (position + c.utf8Size + Text.byteLength (cs.take length)) (cs.drop length)).map
        (⟨t, position⟩ :: ·) := by
  rw [tokensFrom.eq_def]
  dsimp only
  rw [if_neg (by simp [hc]), h]
  rfl

/-- A text that spells valid tokens which do not run together is split into them. -/
theorem tokensFrom_of_spells {ts : List Token} {cs : List Char} (h : Spells ts cs)
    (hvalid : ∀ t ∈ ts, t.Valid) (hapart : Apart ts) (position : Nat) :
    ∃ placed, tokensFrom position cs = .ok placed ∧ placed.map (·.token) = ts := by
  induction h generalizing position with
  | nil => exact ⟨[], tokensFrom_nil position, rfl⟩
  | @blank ts c cs hblank _ ih =>
    rw [tokensFrom_of_blank hblank]
    exact ih hvalid hapart _
  | @token t ts cs hrest ih =>
    rw [List.forall_mem_cons] at hvalid
    obtain ⟨hnext, hapart⟩ := List.isChain_cons.1 hapart
    -- what comes next is white space or the next token, and then one of the two is a sign
    have hends : t.isSign = true ∨ Ends cs := by
      by_cases hsign : t.isSign = true
      · exact .inl hsign
      · exact .inr (ends_of_spells hrest fun u hu => (hnext u hu).resolve_left hsign)
    obtain ⟨c, cs', hlexeme, hblank, htoken⟩ := tokenAt_of_lexeme hvalid.1 hends
    obtain ⟨placed, hplaced, rfl⟩ := ih hvalid.2 hapart
      (position + c.utf8Size + Text.byteLength ((cs' ++ cs).take cs'.length))
    refine ⟨⟨t, position⟩ :: placed, ?_, rfl⟩
    rw [hlexeme, List.cons_append, tokensFrom_of_token hblank (htoken position), List.drop_left,
      hplaced]
    rfl

/-! ## Reading what is written -/

namespace Reading

theorem foldlM_append_of_ok {r r' : Reading} {placed : List Placed}
    (h : placed.foldlM next r = .ok r') (more : List Placed) :
    (placed ++ more).foldlM next r = more.foldlM next r' := by
  rw [List.foldlM_append, h]
  rfl

theorem foldlM_cons_of_ok {r r' : Reading} {t : Placed} (h : r.next t = .ok r')
    (more : List Placed) : (t :: more).foldlM next r = more.foldlM next r' := by
  rw [List.foldlM_cons, h]
  rfl

/-- The signs that take a complete operand would be taken with it by an operator. -/
theorem complete_eq (operand : Formula) (stack : List Frame) :
    ∃ operand' below, complete operand stack = ⟨below, .operator operand'⟩ ∧
      ∀ p, reduce p operand' below = reduce p operand stack := by
  induction stack generalizing operand with
  | nil => exact ⟨operand, [], rfl, fun _ => rfl⟩
  | cons f stack ih =>
    cases f with
    | negate => exact ih (.negate operand)
    | _ => exact ⟨operand, _, rfl, fun _ => rfl⟩

theorem reduce_of_opens {n : Nat} (hn : n < 3) {stack : List Frame} (h : Opens n stack)
    (operand : Formula) : reduce n operand stack = (stack, operand) := by
  unfold reduce
  split
  · exact absurd hn (Nat.not_lt.2 h)
  · exact if_neg (Nat.not_le.2 h)
  · rfl

end Reading

theorem Opens.mono {n m : Nat} {stack : List Frame} (h : Opens n stack) (hnm : n ≤ m) :
    Opens m stack := by
  unfold Opens at h ⊢
  split
  · exact Nat.le_trans h hnm
  · exact Nat.lt_of_lt_of_le h hnm
  · trivial

theorem exists_cons_of_map {placed : List Placed} {t : Token} {ts : List Token}
    (h : placed.map (·.token) = t :: ts) :
    ∃ position rest, placed = ⟨t, position⟩ :: rest ∧ rest.map (·.token) = ts := by
  obtain ⟨⟨_, position⟩, rest, rfl, rfl, hrest⟩ := List.map_eq_cons_iff.1 h
  exact ⟨position, rest, rfl, hrest⟩

theorem exists_append_of_map {placed : List Placed} {t : Token} {ts us : List Token}
    (h : placed.map (·.token) = ts ++ t :: us) : ∃ before position after,
      placed = before ++ ⟨t, position⟩ :: after ∧ before.map (·.token) = ts ∧
      after.map (·.token) = us := by
  obtain ⟨before, rest, rfl, hbefore, hrest⟩ := List.map_eq_append_iff.1 h
  obtain ⟨position, after, rfl, hafter⟩ := exists_cons_of_map hrest
  exact ⟨before, position, after, rfl, hbefore, hafter⟩

/-- Wherever the formula may stand as an operand, the tokens are read as it, as far as
operators that bind no tighter can tell. -/
def Parses (ts : List Token) (f : Formula) : Prop :=
  ∀ placed : List Placed, placed.map (·.token) = ts → ∀ stack, Opens f.level stack →
    ∃ operand below, placed.foldlM Reading.next ⟨stack, .operand⟩ = .ok ⟨below, .operator operand⟩ ∧
      ∀ p ≤ f.level, Reading.reduce p operand below = Reading.reduce p f stack

section Parses

open Reading

variable {ts ts' : List Token} {f l r : Formula}

theorem parses_of_isOperand {t : Token} (h : t.IsOperand f) : Parses [t] f := by
  intro placed hplaced stack _
  obtain ⟨position, rest, rfl, hrest⟩ := exists_cons_of_map hplaced
  obtain rfl := List.map_eq_nil_iff.1 hrest
  obtain ⟨operand, below, hcomplete, hreduce⟩ := complete_eq f stack
  refine ⟨operand, below, ?_, fun p _ => hreduce p⟩
  have hnext : next ⟨stack, .operand⟩ ⟨t, position⟩ = .ok (complete f stack) :=
    next_eq_ok_iff.2 (.operand (.operand h))
  rw [foldlM_cons_of_ok hnext, hcomplete]
  rfl

/-- Inside parentheses nothing is left to be done but for the formula read. -/
theorem Parses.inside (h : Parses ts f) {placed : List Placed}
    (hplaced : placed.map (·.token) = ts) {frame : Frame}
    (hframe : (∃ position, frame = .group position) ∨ ∃ name done, frame = .call name done)
    (stack : List Frame) : ∃ operand below,
      placed.foldlM next ⟨frame :: stack, .operand⟩ = .ok ⟨below, .operator operand⟩ ∧
      reduce 0 operand below = (frame :: stack, f) := by
  have hopens (n : Nat) : Opens n (frame :: stack) := by
    rcases hframe with ⟨_, rfl⟩ | ⟨_, _, rfl⟩ <;> exact trivial
  obtain ⟨operand, below, hrun, hreduce⟩ := h placed hplaced _ (hopens _)
  refine ⟨operand, below, hrun, ?_⟩
  rw [hreduce 0 (Nat.zero_le _), reduce_of_opens (by decide) (hopens 0)]

theorem Parses.negate (h : Parses ts f) (hf : 3 ≤ f.level) :
    Parses (.op .subtract :: ts) (.negate f) := by
  intro placed hplaced stack _
  obtain ⟨position, rest, rfl, hrest⟩ := exists_cons_of_map hplaced
  obtain ⟨operand, below, hrun, hreduce⟩ := h rest hrest (.negate :: stack) hf
  refine ⟨operand, below, ?_, fun p hp => hreduce p (Nat.le_trans hp hf)⟩
  rw [← hrun]
  exact foldlM_cons_of_ok rfl rest

theorem Parses.binary {op : ArithOp} (hl : Parses ts l) (hr : Parses ts' r)
    (hleft : op.precedence ≤ l.level) (hright : op.precedence < r.level) :
    Parses (ts ++ .op op :: ts') (.binary op l r) := by
  intro placed hplaced stack hstack
  obtain ⟨before, position, after, rfl, hbefore, hafter⟩ := exists_append_of_map hplaced
  -- what stands before the operator is its left operand
  obtain ⟨left, below, hrun, hreduce⟩ := hl before hbefore stack (Opens.mono hstack hleft)
  have hreduce := hreduce _ hleft
  rw [reduce_of_opens op.precedence_lt hstack] at hreduce
  have hnext : next ⟨below, .operator left⟩ ⟨.op op, position⟩ =
      .ok ⟨.binary op l :: stack, .operand⟩ := by
    simp only [next, hreduce]
  obtain ⟨right, below', hrun', hreduce'⟩ := hr after hafter (.binary op l :: stack) hright
  refine ⟨right, below', ?_, fun p (hp : p ≤ op.precedence) => ?_⟩
  · rw [foldlM_append_of_ok hrun, foldlM_cons_of_ok hnext, hrun']
  · rw [hreduce' p (Nat.le_trans hp (Nat.le_of_lt hright)), reduce, if_pos hp]

theorem Parses.group (h : Parses ts f) : Parses (.opening :: (ts ++ [.closing])) (.group f) := by
  intro placed hplaced stack _
  obtain ⟨position, rest, rfl, hrest⟩ := exists_cons_of_map hplaced
  obtain ⟨inner, position', after, rfl, hinner, hafter⟩ := exists_append_of_map hrest
  obtain rfl := List.map_eq_nil_iff.1 hafter
  obtain ⟨operand, below, hrun, hreduce⟩ := h.inside hinner (.inl ⟨position, rfl⟩) stack
  have hopen : next ⟨stack, .operand⟩ ⟨.opening, position⟩ =
      .ok ⟨.group position :: stack, .operand⟩ := rfl
  have hclose : next ⟨below, .operator operand⟩ ⟨.closing, position'⟩ =
      .ok (complete (.group f) stack) := by
    simp only [next, hreduce, endAt]
  obtain ⟨operand', below', hcomplete, hreduce'⟩ := complete_eq (.group f) stack
  refine ⟨operand', below', ?_, fun p _ => hreduce' p⟩
  rw [foldlM_cons_of_ok hopen, foldlM_append_of_ok hrun, foldlM_cons_of_ok hclose, hcomplete]
  rfl

/-! ### Calls -/

/-- The arguments after those in `done`, up to the end of the call. -/
theorem foldlM_arguments {name : String} {stack : List Frame} {f : Formula} {rest : List Formula}
    (h : ∀ g ∈ f :: rest, Parses g.written g) (done : List Formula) {placed : List Placed}
    (hplaced : placed.map (·.token) = f.written ++ (writtenMore rest ++ [.closing])) :
    placed.foldlM next ⟨.call name done :: stack, .operand⟩ =
      .ok (complete (.call name (done.reverse ++ f :: rest)) stack) := by
  induction rest generalizing f done placed with
  | nil =>
    obtain ⟨inner, position, after, rfl, hinner, hafter⟩ := exists_append_of_map hplaced
    obtain rfl := List.map_eq_nil_iff.1 hafter
    obtain ⟨operand, below, hrun, hreduce⟩ :=
      (h f List.mem_cons_self).inside hinner (.inr ⟨name, done, rfl⟩) stack
    have hclose : next ⟨below, .operator operand⟩ ⟨.closing, position⟩ =
        .ok (complete (.call name (done.reverse ++ [f])) stack) := by
      simp only [next, hreduce, endAt, List.reverse_cons]
    rw [foldlM_append_of_ok hrun, foldlM_cons_of_ok hclose]
    rfl
  | cons g rest ih =>
    rw [writtenMore, List.cons_append, List.append_assoc] at hplaced
    obtain ⟨inner, position, after, rfl, hinner, hafter⟩ := exists_append_of_map hplaced
    obtain ⟨operand, below, hrun, hreduce⟩ :=
      (h f List.mem_cons_self).inside hinner (.inr ⟨name, done, rfl⟩) stack
    have hcomma : next ⟨below, .operator operand⟩ ⟨.comma, position⟩ =
        .ok ⟨.call name (f :: done) :: stack, .operand⟩ := by
      simp only [next, hreduce, endAt]
    rw [foldlM_append_of_ok hrun, foldlM_cons_of_ok hcomma,
      ih (fun k hk => h k (List.mem_cons_of_mem _ hk)) (f :: done) hafter]
    simp

/-- No formula begins with the end of a call. -/
theorem exists_written_cons : (f : Formula) → ∃ t ts, f.written = t :: ts ∧ t ≠ .closing
  | .reference _ | .number _ | .literal _ => ⟨_, [], rfl, nofun⟩
  | .negate _ | .group _ | .call _ _ => ⟨_, _, rfl, nofun⟩
  | .binary op l r => by
    obtain ⟨t, ts, hl, ht⟩ := exists_written_cons l
    exact ⟨t, ts ++ .op op :: r.written, by rw [written, hl, List.cons_append], ht⟩

theorem next_argument {stack : List Frame} {t : Placed} (ht : t.token ≠ .closing) :
    next ⟨stack, .argument⟩ t = next ⟨stack, .operand⟩ t := by
  simp only [next]
  split
  · exact absurd ‹_› ht
  · rfl

theorem foldlM_call {name : String} {arguments : List Formula} {stack : List Frame}
    (h : ∀ g ∈ arguments, Parses g.written g) {placed : List Placed}
    (hplaced : placed.map (·.token) = writtenAll arguments ++ [.closing]) :
    placed.foldlM next ⟨.call name [] :: stack, .argument⟩ =
      .ok (complete (.call name arguments) stack) := by
  cases arguments with
  | nil =>
    obtain ⟨position, rest, rfl, hrest⟩ := exists_cons_of_map hplaced
    obtain rfl := List.map_eq_nil_iff.1 hrest
    rfl
  | cons f rest =>
    rw [writtenAll, List.append_assoc] at hplaced
    obtain ⟨t, ts, hf, ht⟩ := exists_written_cons f
    -- the first token is not the end of the call, so an operand must come as for the others
    have hrun : placed.foldlM next ⟨.call name [] :: stack, .operand⟩ =
        .ok (complete (.call name (f :: rest)) stack) :=
      foldlM_arguments h [] hplaced
    rw [hf] at hplaced
    obtain ⟨position, after, rfl, -⟩ := exists_cons_of_map hplaced
    rw [List.foldlM_cons, next_argument ht, ← List.foldlM_cons, hrun]

theorem Parses.call {name : String} {arguments : List Formula}
    (h : ∀ g ∈ arguments, Parses g.written g) :
    Parses (written (.call name arguments)) (.call name arguments) := by
  intro placed hplaced stack _
  rw [written] at hplaced
  obtain ⟨position, tail, rfl, htail⟩ := exists_cons_of_map hplaced
  obtain ⟨position', rest, rfl, hrest⟩ := exists_cons_of_map htail
  have hname : next ⟨stack, .operand⟩ ⟨.ident name, position⟩ =
      .ok ⟨stack, .callOf name position⟩ := rfl
  have hopen : next ⟨stack, .callOf name position⟩ ⟨.opening, position'⟩ =
      .ok ⟨.call name [] :: stack, .argument⟩ := rfl
  obtain ⟨operand, below, hcomplete, hreduce⟩ := complete_eq (.call name arguments) stack
  refine ⟨operand, below, ?_, fun p _ => hreduce p⟩
  rw [foldlM_cons_of_ok hname, foldlM_cons_of_ok hopen, foldlM_call h hrest, hcomplete]

end Parses

/-- The tokens that a shaped formula is written as are read as the formula. -/
theorem Shaped.parses {f : Formula} (h : f.Shaped) : Parses f.written f := by
  induction h with
  | reference name => exact parses_of_isOperand (.reference name)
  | number => exact parses_of_isOperand (.number _)
  | literal value => exact parses_of_isOperand (.literal value)
  | negate _ signed ih => exact ih.negate signed
  | group _ ih => exact ih.group
  | binary _ _ leftLevel rightLevel ihl ihr => exact ihl.binary ihr leftLevel rightLevel
  | call _ ih => exact .call ih

/-! ## The formulas that are read -/

/-- The text of a formula, without white space. -/
def text (f : Formula) : String := String.ofList (f.written.flatMap Token.lexeme)

/-- The references and the functions of the formula have names, and its numbers are
numbers. -/
def Lexical (f : Formula) : Prop := ∀ t ∈ f.written, t.Valid

theorem read_of_spells {f : Formula} (hshaped : f.Shaped) (hlexical : f.Lexical) {s : String}
    (h : Spells f.written s.toList) : read s = .ok f := by
  obtain ⟨placed, hplaced, hmap⟩ := tokensFrom_of_spells h hlexical (apart_written f) 0
  obtain ⟨operand, below, hrun, hreduce⟩ := hshaped.parses placed hmap [] trivial
  have hnonempty : placed.isEmpty = false := by
    obtain ⟨t, ts, hwritten, -⟩ := exists_written_cons f
    rw [hwritten] at hmap
    obtain ⟨position, rest, rfl, -⟩ := exists_cons_of_map hmap
    rfl
  have hfinish : Reading.finish ⟨below, .operator operand⟩ = .ok f := by
    simp only [Reading.finish, hreduce 0 (Nat.zero_le _), Reading.reduce]
  rw [read, tokens, hplaced]
  simp only [bind, Except.bind, hnonempty]
  rw [if_neg Bool.false_ne_true, Reading.start, hrun]
  exact hfinish

theorem read_text {f : Formula} (hshaped : f.Shaped) (hlexical : f.Lexical) :
    read f.text = .ok f := by
  refine read_of_spells hshaped hlexical ?_
  rw [text, String.toList_ofList]
  exact spells_lexemes f.written

/-- Formulas that are written alike are the same. -/
theorem Shaped.eq_of_written_eq {f g : Formula} (hf : f.Shaped) (hg : g.Shaped)
    (hlexical : f.Lexical) (h : f.written = g.written) : f = g := by
  have hlexical' : g.Lexical := by
    rw [Lexical, ← h]
    exact hlexical
  have hread := read_text hf hlexical
  rw [text, h, ← text, read_text hg hlexical'] at hread
  exact (Except.ok.inj hread).symm

/-- What is read is a shaped formula whose tokens are valid, and it is written as the
tokens of the text without the plus signs before operands. Every such formula is read from
its own text and from any other that spells its tokens. -/
theorem read_accepts_grammar :
    (∀ s f, read s = .ok f → f.Shaped ∧ f.Lexical ∧ ∃ placed, tokens s = .ok placed ∧
      Spells (placed.map (·.token)) s.toList ∧
      withoutPlus true (placed.map (·.token)) = f.written) ∧
    ∀ f : Formula, f.Shaped → f.Lexical →
      read f.text = .ok f ∧ ∀ s : String, Spells f.written s.toList → read s = .ok f := by
  constructor
  · intro s f h
    obtain ⟨placed, htokens, hwritten⟩ := written_of_read h
    exact ⟨shaped_of_read h, valid_of_read h, placed, htokens, (spells_of_tokensFrom htokens).1,
      hwritten⟩
  · intro f hshaped hlexical
    exact ⟨read_text hshaped hlexical, fun s => read_of_spells hshaped hlexical⟩

/-- Signs before operands, a quote in a text and white space. -/
theorem read_accepts_grammar_of_signs :
    let f : Formula := .binary .subtract
      (.binary .add (.reference "a") (.binary .multiply (.negate (.negate (.number "2.")))
        (.group (.binary .add (.number ".5") (.literal "it's")))))
      (.call "MAX" [.reference "b", .negate (.call "NOW" [])])
    let s := "{a} + - + -2. * (+.5+'it''s')\t- MAX({b}, -NOW ( ))"
    f.Shaped ∧ f.Lexical ∧ read f.text = .ok f ∧ f.text = "{a}+--2.*(.5+'it''s')-MAX({b},-NOW())" ∧
      read s = .ok f ∧ ∃ placed, tokens s = .ok placed ∧
        withoutPlus true (placed.map (·.token)) = f.written := by
  intro f s
  have hnumber : IsNumber "2." ∧ IsNumber ".5" := by decide
  have hproduct : (Formula.binary .multiply (.negate (.negate (.number "2.")))
      (.group (.binary .add (.number ".5") (.literal "it's")))).Shaped :=
    .binary (.negate (.negate (.number hnumber.1) (by decide)) (by decide))
      (.group (.binary (.number hnumber.2) (.literal _) (by decide) (by decide)))
      (by decide) (by decide)
  have hcall : (Formula.call "MAX" [.reference "b", .negate (.call "NOW" [])]).Shaped := by
    refine .call fun g hg => ?_
    obtain rfl | rfl : g = .reference "b" ∨ g = .negate (.call "NOW" []) := by simpa using hg
    · exact .reference "b"
    · exact .negate (.call (List.forall_mem_nil _)) (by decide)
  have hshaped : f.Shaped :=
    .binary (.binary (.reference "a") hproduct (by decide) (by decide)) hcall (by decide)
      (by decide)
  have hlexical : f.Lexical := by
    unfold Lexical
    decide
  obtain ⟨hread, -⟩ := read_accepts_grammar.2 f hshaped hlexical
  obtain ⟨g, hg, hwritten⟩ := Except.exists_of_any (x := read s)
    (p := fun g => g.written == f.written) (by decide +kernel)
  obtain ⟨hgshaped, hglexical, placed, htokens, -, hplaced⟩ := read_accepts_grammar.1 s g hg
  obtain rfl : g = f := hgshaped.eq_of_written_eq hshaped hglexical (beq_iff_eq.1 hwritten)
  exact ⟨hshaped, hlexical, hread, by decide, hg, placed, htokens, hplaced⟩

end MetricLayer.Formula
