/-!
# Formulas

A metric formula combines references to metrics, numbers and texts by
arithmetic, by calls of functions and by the parentheses its author wrote.
-/

namespace MetricLayer

inductive ArithOp where
  | add
  | subtract
  | multiply
  | divide
  | modulo
  deriving DecidableEq, Repr

namespace ArithOp

/-- Multiplication, division and remainder bind tighter than the other two. -/
def precedence : ArithOp → Nat
  | .add | .subtract => 1
  | .multiply | .divide | .modulo => 2

def name : ArithOp → String
  | .add => "Add"
  | .subtract => "Subtract"
  | .multiply => "Multiply"
  | .divide => "Divide"
  | .modulo => "Modulo"

def ofChar? : Char → Option ArithOp
  | '+' => some .add
  | '-' => some .subtract
  | '*' => some .multiply
  | '/' => some .divide
  | '%' => some .modulo
  | _ => none

end ArithOp

inductive Formula where
  | reference (name : String)
  | number (digits : String)
  | literal (value : String)
  | negate (operand : Formula)
  | binary (op : ArithOp) (left right : Formula)
  | call (name : String) (arguments : List Formula)
  | group (inner : Formula)

namespace Formula

mutual

/-- The names referred to, in order and with repetitions. -/
def references : Formula → List String
  | .reference name => [name]
  | .number _ | .literal _ => []
  | .negate f | .group f => f.references
  | .binary _ l r => l.references ++ r.references
  | .call _ arguments => referencesOf arguments

def referencesOf : List Formula → List String
  | [] => []
  | f :: rest => f.references ++ referencesOf rest

end

end Formula

end MetricLayer
