import MetricLayer.Proofs.Formula.Steps

/-!
# What has been read

A formula is written as its tokens in order (`written`), with the parentheses of its
groups and commas between the arguments of its calls. What is open in a reading and what
has been read are written together as the tokens so far, but for plus signs before
operands, which leave no trace (`Reading.after_next`). So a formula that has been read
is written as the tokens of its text without these (`written_of_read`).
-/

namespace MetricLayer.Formula

mutual

/-- The tokens of a formula. -/
def written : Formula → List Token
  | .reference name => [.reference name]
  | .number digits => [.number digits]
  | .literal value => [.literal value]
  | .negate f => .op .subtract :: f.written
  | .binary op l r => l.written ++ .op op :: r.written
  | .call name arguments => .ident name :: .opening :: (writtenAll arguments ++ [.closing])
  | .group f => .opening :: (f.written ++ [.closing])

/-- Formulas with commas between them. -/
def writtenAll : List Formula → List Token
  | [] => []
  | f :: rest => f.written ++ writtenMore rest

/-- Formulas with a comma before each of them. -/
def writtenMore : List Formula → List Token
  | [] => []
  | f :: rest => .comma :: (f.written ++ writtenMore rest)

end

/-- Whether an operand, or the end of a call, must come after the token. -/
def Token.expectsOperand : Token → Bool
  | .opening | .comma | .op _ => true
  | .reference _ | .number _ | .literal _ | .ident _ | .closing => false

/-- The tokens without the plus signs before operands, one of which must come first if
`expectsOperand`. -/
def withoutPlus : (expectsOperand : Bool) → List Token → List Token
  | _, [] => []
  | expectsOperand, t :: ts =>
    if expectsOperand && t == .op .add then withoutPlus true ts
    else t :: withoutPlus t.expectsOperand ts

/-- The tokens that an open part of a formula begins with. -/
def Frame.written : Frame → List Token
  | .negate => [.op .subtract]
  | .binary op left => left.written ++ [.op op]
  | .group _ => [.opening]
  | .call name done =>
    .ident name :: .opening :: done.reverse.flatMap fun f => f.written ++ [.comma]

/-- The tokens of all open parts, the outermost first. -/
def stackWritten (stack : List Frame) : List Token := stack.reverse.flatMap Frame.written

namespace Reading

def written (r : Reading) : List Token :=
  stackWritten r.stack ++ match r.expecting with
    | .operand | .argument => []
    | .callOf name _ => [.ident name]
    | .operator operand => operand.written

def expectsOperand (r : Reading) : Bool :=
  match r.expecting with
  | .operand | .argument => true
  | .callOf _ _ | .operator _ => false

end Reading

@[simp] theorem stackWritten_nil : stackWritten [] = [] := rfl

@[simp] theorem stackWritten_cons (f : Frame) (stack : List Frame) :
    stackWritten (f :: stack) = stackWritten stack ++ f.written := by
  simp [stackWritten]

theorem writtenMore_append (fs : List Formula) (f : Formula) :
    writtenMore (fs ++ [f]) =
      .comma :: (fs.flatMap fun g => g.written ++ [.comma]) ++ f.written := by
  induction fs with
  | nil => simp [writtenMore]
  | cons g fs ih => simp [writtenMore, ih]

theorem writtenAll_append (fs : List Formula) (f : Formula) :
    writtenAll (fs ++ [f]) = (fs.flatMap fun g => g.written ++ [.comma]) ++ f.written := by
  cases fs with
  | nil => simp [writtenAll, writtenMore]
  | cons g fs => simp [writtenAll, writtenMore_append]

namespace Reading

theorem written_reduce (precedence : Nat) (operand : Formula) (stack : List Frame) :
    stackWritten (reduce precedence operand stack).1 ++
      (reduce precedence operand stack).2.written = stackWritten stack ++ operand.written := by
  induction stack generalizing operand with
  | nil => rfl
  | cons f stack ih =>
    cases f with
    | negate => simp [reduce, ih, Formula.written, Frame.written]
    | binary op left =>
      rw [reduce]
      split
      · simp [ih, Formula.written, Frame.written]
      · rfl
    | _ => rfl

/-- A call that expects its first argument has none yet. -/
def Begun (r : Reading) : Prop :=
  match r.expecting with
  | .argument => ∃ name below, r.stack = .call name [] :: below
  | .operand | .callOf _ _ | .operator _ => True

/-- What a reading is after the token `t`. -/
structure After (t : Token) (written : List Token) (r : Reading) : Prop where
  written_eq : r.written = written
  expects_eq : r.expectsOperand = t.expectsOperand
  begun : r.Begun

/-- What a token adds to what is written. -/
def kept (expectsOperand : Bool) (t : Token) : List Token :=
  if expectsOperand && t == .op .add then [] else [t]

theorem after_complete {t : Token} (ht : t.expectsOperand = false) (operand : Formula)
    (stack : List Frame) :
    After t (stackWritten stack ++ operand.written) (complete operand stack) := by
  induction stack generalizing operand with
  | nil => exact ⟨rfl, ht.symm, trivial⟩
  | cons f stack ih =>
    cases f with
    | negate => simpa [complete, Formula.written, Frame.written] using ih (.negate operand)
    | _ => exact ⟨rfl, ht.symm, trivial⟩

theorem Begins.after {stack : List Frame} {t : Placed} {r : Reading} (h : Begins stack t r) :
    After t.token (stackWritten stack ++ kept true t.token) r := by
  cases h with
  | @operand t f _ operand =>
    have ht : t.expectsOperand = false := by cases operand <;> rfl
    have hkept : kept true t = f.written := by cases operand <;> rfl
    exact hkept ▸ after_complete ht f stack
  | name | group | negate | plus => exact ⟨by simp [written, kept, Frame.written], rfl, trivial⟩

theorem Closes.after {f : Formula} {stack : List Frame} {t : Placed} {r : Reading}
    (h : Closes f stack t r) : After t.token (stackWritten stack ++ f.written ++ [t.token]) r := by
  cases h with
  | @group below =>
    simpa [Formula.written, Frame.written] using
      after_complete (t := .closing) rfl (.group f) below
  | @call below name done =>
    simpa [Formula.written, Frame.written, writtenAll_append] using
      after_complete (t := .closing) rfl (.call name (f :: done).reverse) below
  | comma => exact ⟨by simp [written, Frame.written], rfl, trivial⟩

/-- Reading a token adds it to what is written, unless it is a plus sign before an
operand. -/
theorem after_next {r r' : Reading} {t : Placed} (hr : r.Begun) (h : r.next t = .ok r') :
    After t.token (r.written ++ kept r.expectsOperand t.token) r' := by
  have hreduce (p : Nat) (f : Formula) (stack : List Frame) := written_reduce p f stack
  cases next_eq_ok_iff.1 h with
  | operand begins | argument begins => simpa [written, expectsOperand] using begins.after
  | @noArgument below name done =>
    obtain ⟨_, _, hstack⟩ := hr
    obtain rfl : done = [] := (Frame.call.inj (List.cons.inj hstack).1).2
    simpa [written, Formula.written, Frame.written, writtenAll, kept] using
      after_complete (t := .closing) rfl (.call name []) below
  | arguments => exact ⟨by simp [written, kept, Frame.written, expectsOperand], rfl, _, _, rfl⟩
  | operator =>
    refine ⟨?_, rfl, trivial⟩
    simp only [written, stackWritten_cons, Frame.written, List.append_nil, ← List.append_assoc,
      hreduce]
    rfl
  | closing closes =>
    have hafter := closes.after
    rwa [hreduce] at hafter

theorem written_foldlM {r r' : Reading} {placed : List Placed} (hr : r.Begun)
    (h : placed.foldlM next r = .ok r') :
    r'.written = r.written ++ withoutPlus r.expectsOperand (placed.map (·.token)) := by
  induction placed generalizing r with
  | nil =>
    obtain rfl := Except.ok.inj h
    simp [withoutPlus]
  | cons t placed ih =>
    simp only [List.foldlM_cons, bind, Except.bind_eq_ok] at h
    obtain ⟨r₁, hnext, hrest⟩ := h
    obtain ⟨hwritten, hexpects, hbegun⟩ := after_next hr hnext
    rw [ih hbegun hrest, hwritten, hexpects, List.append_assoc, List.map_cons, withoutPlus, kept]
    split
    · rename_i hplus
      obtain ⟨-, hplus⟩ := Bool.and_eq_true_iff.1 hplus
      rw [beq_iff_eq.1 hplus]
      rfl
    · rfl

/-- Once the operators have taken their operands, signs and operators are gone
from the top of the stack. -/
theorem reduce_zero_head (operand : Formula) (stack : List Frame) :
    (reduce 0 operand stack).1 = [] ∨
      (∃ position below, (reduce 0 operand stack).1 = .group position :: below) ∨
      ∃ name done below, (reduce 0 operand stack).1 = .call name done :: below := by
  induction stack generalizing operand with
  | nil => exact .inl rfl
  | cons f stack ih =>
    cases f with
    | negate => exact ih _
    | binary op left =>
      rw [reduce, if_pos (Nat.zero_le _)]
      exact ih _
    | group position => exact .inr (.inl ⟨position, stack, rfl⟩)
    | call name done => exact .inr (.inr ⟨name, done, stack, rfl⟩)

theorem written_finish {r : Reading} {f : Formula} (h : r.finish = .ok f) :
    f.written = r.written := by
  obtain ⟨stack, expecting⟩ := r
  unfold finish at h
  cases expecting with
  | operand | argument => cases h
  | callOf name position => cases h
  | operator operand =>
    have hwritten := written_reduce 0 operand stack
    have hhead := reduce_zero_head operand stack
    dsimp only at h
    generalize reduce 0 operand stack = reduced at h hwritten hhead
    obtain ⟨rest, formula⟩ := reduced
    rcases hhead with hnil | ⟨position, below, hgroup⟩ | ⟨name, done, below, hcall⟩
    · obtain rfl : rest = [] := hnil
      obtain rfl := Except.ok.inj h
      simpa [written] using hwritten
    · obtain rfl : rest = .group position :: below := hgroup
      cases h
    · obtain rfl : rest = .call name done :: below := hcall
      cases h

end Reading

/-- A formula is written as the tokens of its text, without the plus signs before
operands. -/
theorem written_of_read {s : String} {f : Formula} (h : read s = .ok f) :
    ∃ placed, tokens s = .ok placed ∧ withoutPlus true (placed.map (·.token)) = f.written := by
  simp only [read, bind, Except.bind_eq_ok] at h
  obtain ⟨placed, htokens, h⟩ := h
  split at h <;> [cases h; skip]
  obtain ⟨reading, hfold, hfinish⟩ := Except.bind_eq_ok.1 h
  refine ⟨placed, htokens, ?_⟩
  have hstart : Reading.start.Begun := trivial
  rw [Reading.written_finish hfinish, Reading.written_foldlM hstart hfold]
  rfl

end MetricLayer.Formula
