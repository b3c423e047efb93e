import MetricLayer.Sql.Dialect

/-!
# Written expressions

`Expr.render` writes an expression in a dialect. No parentheses are added but
around a negation that stands to the right of an operator or under another
negation, where two minus signs would begin a comment.
-/

namespace MetricLayer.Sql

namespace Expr

def isNegation : Expr → Bool
  | .negate _ => true
  | _ => false

def parenthesizedIf (needed : Bool) (sql : String) : String :=
  if needed then "(" ++ sql ++ ")" else sql

mutual

def render (d : Dialect) : Expr → String
  | .column none name => d.quoteName name
  | .column (some table) name => d.quoteName table ++ "." ++ d.quoteName name
  | .literal value => d.literal value
  | .date value => "DATE '" ++ value.text ++ "'"
  | .wildcard => "*"
  | .raw sql => sql
  | .call function arguments => d.call function (renderList d arguments)
  | .cases branches otherwise =>
    "CASE" ++ renderBranches d branches ++ " ELSE " ++ otherwise.render d ++ " END"
  | .binary op left right =>
    left.render d ++ " " ++ op.symbol ++ " " ++
      parenthesizedIf right.isNegation (right.render d)
  | .negate operand => "-" ++ parenthesizedIf operand.isNegation (operand.render d)
  | .nested inner => "(" ++ inner.render d ++ ")"
  | .aggregate aggregation input => Dialect.aggregate aggregation (input.render d)
  | .countIf condition => d.countIf (condition.render d)
  | .inList value list negated =>
    value.render d ++ (if negated then " NOT IN (" else " IN (") ++
      ", ".intercalate (renderList d list) ++ ")"

def renderList (d : Dialect) : List Expr → List String
  | [] => []
  | e :: rest => e.render d :: renderList d rest

def renderBranches (d : Dialect) : List (Expr × Expr) → String
  | [] => ""
  | (w, t) :: rest =>
    " WHEN " ++ w.render d ++ " THEN " ++ t.render d ++ renderBranches d rest

end

end Expr

end MetricLayer.Sql
