import MetricLayer.Sql.Expr

/-!
# Interpretations

What an expression is worth where nothing is known of its aggregates, of
arithmetic and of functions but that a division by zero has no value. An
`Interpretation` gives the values of these, null being `none`, and `Expr.value`
puts them together along the tree; parentheses mean nothing to it.
-/

namespace MetricLayer.Sql

/-- How values that may be null are computed. -/
structure Interpretation (α : Type) where
  /-- An aggregate, or whatever else no operator and no function makes. -/
  leaf : Expr → Option α
  number : String → Option α
  text : String → Option α
  negate : Option α → Option α
  binary : BinaryOp → Option α → Option α → Option α
  isZero : α → Bool
  /-- The quotient for a divisor that is not zero. -/
  divide : α → α → Option α
  call : Function → List (Option α) → Option α

namespace Interpretation

variable {α : Type} (I : Interpretation α)

/-- Division, which is null where the divisor is zero or an operand is null. -/
def quotient : Option α → Option α → Option α
  | some a, some b => if I.isZero b then none else I.divide a b
  | _, _ => none

def apply : Function → List (Option α) → Option α
  | .safeDivide, [a, b] => I.quotient a b
  | f, values => I.call f values

/-- Sums do not depend on how they are grouped. -/
def AddAssoc : Prop :=
  ∀ a b c, I.binary .add (I.binary .add a b) c = I.binary .add a (I.binary .add b c)

/-- Whole numbers: a quotient is rounded, dates count days, and aggregates have
given values. -/
def whole (leaf : Expr → Option Int) : Interpretation Int where
  leaf
  number digits := some (digits.toList.foldl (fun n c => 10 * n + (c.toNat - '0'.toNat)) 0)
  text _ := none
  negate := Option.map (-·)
  binary
    | .add, some a, some b => some (a + b)
    | .subtract, some a, some b => some (a - b)
    | .multiply, some a, some b => some (a * b)
    | _, _, _ => none
  isZero b := b == 0
  divide a b := some (a / b)
  call
    | .dateDiff, [some start, some stop] => some (stop - start)
    | _, _ => none

theorem addAssoc_whole (leaf : Expr → Option Int) : (whole leaf).AddAssoc := by
  rintro (_ | a) (_ | b) (_ | c) <;> simp [whole, Int.add_assoc]

end Interpretation

namespace Expr

variable {α : Type} (I : Interpretation α)

mutual

def value : Expr → Option α
  | .raw digits => I.number digits
  | .literal (.integer n) => I.number (toString n)
  | .literal (.text s) => I.text s
  | .call f arguments => I.apply f (values arguments)
  | .binary op l r => I.binary op l.value r.value
  | .negate e => I.negate e.value
  | .nested e => e.value
  | e => I.leaf e

def values : List Expr → List (Option α)
  | [] => []
  | e :: rest => e.value :: values rest

end

end Expr

end MetricLayer.Sql
