import MetricLayer.Formula.Reader
import MetricLayer.Proofs.Outcome

/-!
# The steps of a reading

`Step r t r'` says that the token `t` makes `r'` of the reading `r`, with one case for
each way in which it can: it begins an operand (`Begins`), ends one that stands in
parentheses (`Closes`), or is an operator between two. There are no others
(`next_eq_ok_iff`).
-/

namespace MetricLayer.Formula

/-- A token that is an operand by itself. -/
inductive Token.IsOperand : Token → Formula → Prop
  | reference (name : String) : IsOperand (.reference name) (.reference name)
  | number (digits : String) : IsOperand (.number digits) (.number digits)
  | literal (value : String) : IsOperand (.literal value) (.literal value)

namespace Reading

/-- A token that an operand begins with. -/
inductive Begins (stack : List Frame) : Placed → Reading → Prop
  | operand {t : Token} {f : Formula} {position : Nat} (operand : t.IsOperand f) :
      Begins stack ⟨t, position⟩ (complete f stack)
  | name {name : String} {position : Nat} :
      Begins stack ⟨.ident name, position⟩ ⟨stack, .callOf name position⟩
  | group {position : Nat} : Begins stack ⟨.opening, position⟩ ⟨.group position :: stack, .operand⟩
  | negate {position : Nat} : Begins stack ⟨.op .subtract, position⟩ ⟨.negate :: stack, .operand⟩
  | plus {position : Nat} : Begins stack ⟨.op .add, position⟩ ⟨stack, .operand⟩

/-- A token that ends the expression `f` in parentheses. -/
inductive Closes (f : Formula) : List Frame → Placed → Reading → Prop
  | group {below : List Frame} {opened position : Nat} :
      Closes f (.group opened :: below) ⟨.closing, position⟩ (complete (.group f) below)
  | call {below : List Frame} {name : String} {done : List Formula} {position : Nat} :
      Closes f (.call name done :: below) ⟨.closing, position⟩
        (complete (.call name (f :: done).reverse) below)
  | comma {below : List Frame} {name : String} {done : List Formula} {position : Nat} :
      Closes f (.call name done :: below) ⟨.comma, position⟩
        ⟨.call name (f :: done) :: below, .operand⟩

/-- What a token makes of a reading. -/
inductive Step : Reading → Placed → Reading → Prop
  | operand {stack : List Frame} {t : Placed} {r : Reading} (begins : Begins stack t r) :
      Step ⟨stack, .operand⟩ t r
  | argument {stack : List Frame} {t : Placed} {r : Reading} (begins : Begins stack t r) :
      Step ⟨stack, .argument⟩ t r
  | noArgument {below : List Frame} {name : String} {done : List Formula} {position : Nat} :
      Step ⟨.call name done :: below, .argument⟩ ⟨.closing, position⟩
        (complete (.call name done.reverse) below)
  | arguments {stack : List Frame} {name : String} {named position : Nat} :
      Step ⟨stack, .callOf name named⟩ ⟨.opening, position⟩ ⟨.call name [] :: stack, .argument⟩
  | operator {stack : List Frame} {f : Formula} {op : ArithOp} {position : Nat} :
      Step ⟨stack, .operator f⟩ ⟨.op op, position⟩
        ⟨.binary op (reduce op.precedence f stack).2 :: (reduce op.precedence f stack).1, .operand⟩
  | closing {stack : List Frame} {f : Formula} {t : Placed} {r : Reading}
      (closes : Closes (reduce 0 f stack).2 (reduce 0 f stack).1 t r) :
      Step ⟨stack, .operator f⟩ t r

variable {r r' : Reading} {stack : List Frame} {f : Formula} {t : Placed}

theorem operandAt_eq_ok_iff : operandAt stack t = .ok r ↔ Begins stack t r := by
  constructor
  · intro h
    obtain ⟨token, position⟩ := t
    unfold operandAt at h
    dsimp only at h
    split at h
    · exact Except.ok.inj h ▸ .operand (.reference _)
    · exact Except.ok.inj h ▸ .operand (.number _)
    · exact Except.ok.inj h ▸ .operand (.literal _)
    · exact Except.ok.inj h ▸ .name
    · exact Except.ok.inj h ▸ .group
    · exact Except.ok.inj h ▸ .negate
    · exact Except.ok.inj h ▸ .plus
    · cases h
  · intro h
    cases h with
    | operand operand => cases operand <;> rfl
    | name | group | negate | plus => rfl

theorem endAt_eq_ok_iff : endAt f stack t = .ok r ↔ Closes f stack t r := by
  constructor
  · intro h
    obtain ⟨token, position⟩ := t
    unfold endAt at h
    dsimp only at h
    split at h
    · exact Except.ok.inj h ▸ .group
    · cases h
    · exact Except.ok.inj h ▸ .call
    · exact Except.ok.inj h ▸ .comma
    · cases h
    · cases h
  · intro h
    cases h <;> rfl

theorem Begins.token_ne_closing (h : Begins stack t r) : t.token ≠ .closing := by
  cases h with
  | operand operand => cases operand <;> exact nofun
  | name | group | negate | plus => exact nofun

theorem Closes.token_ne_op (h : Closes f stack t r) (op : ArithOp) : t.token ≠ .op op := by
  cases h <;> exact nofun

theorem next_eq_ok_iff : r.next t = .ok r' ↔ Step r t r' := by
  obtain ⟨stack, expecting⟩ := r
  constructor
  · intro h
    obtain ⟨token, position⟩ := t
    unfold next at h
    cases expecting with
    | operand => exact .operand (operandAt_eq_ok_iff.1 h)
    | argument =>
      dsimp only at h
      split at h
      · exact Except.ok.inj h ▸ .noArgument
      · exact .argument (operandAt_eq_ok_iff.1 h)
    | callOf name named =>
      dsimp only at h
      split at h
      · rename_i htoken
        obtain rfl : token = .opening := htoken
        exact Except.ok.inj h ▸ .arguments
      · cases h
    | operator f =>
      dsimp only at h
      split at h
      · exact Except.ok.inj h ▸ .operator
      · exact .closing (endAt_eq_ok_iff.1 h)
  · intro h
    cases h with
    | operand begins => exact operandAt_eq_ok_iff.2 begins
    | argument begins =>
      simp only [next]
      split
      · exact absurd ‹_› begins.token_ne_closing
      · exact operandAt_eq_ok_iff.2 begins
    | noArgument | arguments | operator => rfl
    | closing closes =>
      simp only [next]
      split
      · exact absurd ‹_› (closes.token_ne_op _)
      · exact endAt_eq_ok_iff.2 closes

end Reading

end MetricLayer.Formula
