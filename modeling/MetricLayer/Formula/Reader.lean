import MetricLayer.Formula.Token

/-!
# Reading a formula

`Formula.read` reads a formula by the grammar

- an expression is operands joined by operators, which associate to the left,
  `*`, `/` and `%` binding tighter than `+` and `-`;
- an operand is a reference, a number, a text, a call `name(a, b, …)` or an
  expression in parentheses, after any number of signs. A sign binds tighter
  than every operator, and a plus sign leaves no trace.

The tokens are taken one by one, with a stack of what is still open: signs,
operators that wait for their right operand, parentheses and calls. A fault is
reported at the first token that no formula can have there.
-/

namespace MetricLayer.Formula

/-- A part of a formula that is still open. -/
inductive Frame where
  | negate
  | binary (op : ArithOp) (left : Formula)
  | group (position : Nat)
  | call (name : String) (done : List Formula)

/-- What may come next. -/
inductive Expecting where
  | operand
  /-- An operand or the end of the call just opened. -/
  | argument
  /-- The parenthesis after the name of a function. -/
  | callOf (name : String) (position : Nat)
  /-- An operator or an end, `read` being the operand before it. -/
  | operator (read : Formula)

structure Reading where
  stack : List Frame
  expecting : Expecting

namespace Reading

def start : Reading := ⟨[], .operand⟩

/-- An operand is complete: the signs before it take it. -/
def complete (operand : Formula) : List Frame → Reading
  | .negate :: below => complete (.negate operand) below
  | stack => ⟨stack, .operator operand⟩

/-- The operators of at least the given precedence take `operand` as their right
operand. -/
def reduce (precedence : Nat) (operand : Formula) : List Frame → List Frame × Formula
  | .negate :: below => reduce precedence (.negate operand) below
  | .binary op left :: below =>
    if precedence ≤ op.precedence then reduce precedence (.binary op left operand) below
    else (.binary op left :: below, operand)
  | stack => (stack, operand)

/-- A token where an operand must come. -/
def operandAt (stack : List Frame) (t : Placed) : Except Fault Reading :=
  match t.token with
  | .reference name => .ok (complete (.reference name) stack)
  | .number digits => .ok (complete (.number digits) stack)
  | .literal value => .ok (complete (.literal value) stack)
  | .ident name => .ok ⟨stack, .callOf name t.position⟩
  | .opening => .ok ⟨.group t.position :: stack, .operand⟩
  | .op .subtract => .ok ⟨.negate :: stack, .operand⟩
  | .op .add => .ok ⟨stack, .operand⟩
  | _ => .error (.unexpected t.token t.position)

/-- A token that ends the expression `operand`, which is all there is between
the stack's top and it. -/
def endAt (operand : Formula) (stack : List Frame) (t : Placed) : Except Fault Reading :=
  match stack, t.token with
  | .group _ :: below, .closing => .ok (complete (.group operand) below)
  | .group position :: _, _ => .error (.groupNeverClosed position)
  | .call name done :: below, .closing =>
    .ok (complete (.call name (operand :: done).reverse) below)
  | .call name done :: below, .comma => .ok ⟨.call name (operand :: done) :: below, .operand⟩
  | .call _ _ :: _, token => .error (.expectedComma token t.position)
  | _, token => .error (.unexpected token t.position)

def next (r : Reading) (t : Placed) : Except Fault Reading :=
  match r.expecting with
  | .operand => operandAt r.stack t
  | .argument =>
    match r.stack, t.token with
    | .call name done :: below, .closing => .ok (complete (.call name done.reverse) below)
    | stack, _ => operandAt stack t
  | .callOf name position =>
    if t.token = .opening then .ok ⟨.call name [] :: r.stack, .argument⟩
    else .error (.bareName name position)
  | .operator operand =>
    match t.token with
    | .op op =>
      let (stack, operand) := reduce op.precedence operand r.stack
      .ok ⟨.binary op operand :: stack, .operand⟩
    | _ =>
      let (stack, operand) := reduce 0 operand r.stack
      endAt operand stack t

/-- The formula read, once the tokens are used up. -/
def finish (r : Reading) : Except Fault Formula :=
  match r.expecting with
  | .operand | .argument => .error .unexpectedEnd
  | .callOf name position => .error (.bareName name position)
  | .operator operand =>
    match reduce 0 operand r.stack with
    | (.group position :: _, _) => .error (.groupNeverClosed position)
    | (.call name _ :: _, _) => .error (.callNeverClosed name)
    | (_, formula) => .ok formula

end Reading

def read (s : String) : Except Fault Formula := do
  let tokens ← tokens s
  if tokens.isEmpty then .error .empty
  else
    let reading ← tokens.foldlM Reading.next Reading.start
    reading.finish

end MetricLayer.Formula
