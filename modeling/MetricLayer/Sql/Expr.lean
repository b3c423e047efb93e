import MetricLayer.Json.Value
import MetricLayer.Schema.Aggregation
import MetricLayer.Time.Date

/-!
# SQL expressions

The expressions that metrics, rollups and optimized sources are made of. How
they are spelled is up to a dialect. `Expr.nodes` lists an expression and all
expressions inside it.
-/

namespace MetricLayer.Sql

/-- Scalar functions of one row. -/
inductive Function where
  | safeDivide
  | coalesce
  | ifNull
  | nullIf
  | concat
  | castToString
  | replace
  /-- Days from the first date to the second. -/
  | dateDiff
  | round
  | abs
  | ceil
  | floor
  | greatest
  | least
  | sqrt
  | power
  | ln
  | log10
  | exp
  | sign
  deriving DecidableEq, Repr

inductive BinaryOp where
  | add
  | subtract
  | multiply
  | divide
  | modulo
  | and
  | eq
  deriving DecidableEq, Repr

def BinaryOp.symbol : BinaryOp → String
  | .add => "+"
  | .subtract => "-"
  | .multiply => "*"
  | .divide => "/"
  | .modulo => "%"
  | .and => "AND"
  | .eq => "="

inductive Expr where
  | column (table : Option String) (name : String)
  | literal (value : Json)
  | date (value : Date)
  /-- Every column, in a select list. -/
  | wildcard
  /-- SQL that is already written. -/
  | raw (sql : String)
  | call (function : Function) (arguments : List Expr)
  | cases (branches : List (Expr × Expr)) (otherwise : Expr)
  | binary (op : BinaryOp) (left right : Expr)
  | negate (operand : Expr)
  /-- Parentheses that are to be written. -/
  | nested (inner : Expr)
  | aggregate (aggregation : Aggregation) (input : Expr)
  /-- The number of rows for which a condition holds. -/
  | countIf (condition : Expr)
  | inList (value : Expr) (list : List Expr) (negated : Bool)
  deriving Inhabited

namespace Expr

def ofColumn (name : String) : Expr := .column none name

def ofText (s : String) : Expr := .literal (.text s)

def ofInt (n : Int) : Expr := .literal (.integer n)

mutual

/-- `e` and every expression inside it, outer before inner and left before
right. -/
def nodes (e : Expr) : List Expr :=
  e :: match e with
    | .column _ _ | .literal _ | .date _ | .wildcard | .raw _ => []
    | .call _ arguments => nodesOf arguments
    | .cases branches otherwise => branchNodes branches ++ otherwise.nodes
    | .binary _ l r => l.nodes ++ r.nodes
    | .negate inner | .nested inner | .countIf inner => inner.nodes
    | .aggregate _ input => input.nodes
    | .inList value list _ => value.nodes ++ nodesOf list

def nodesOf : List Expr → List Expr
  | [] => []
  | e :: rest => e.nodes ++ nodesOf rest

def branchNodes : List (Expr × Expr) → List Expr
  | [] => []
  | (w, t) :: rest => w.nodes ++ t.nodes ++ branchNodes rest

end

end Expr

end MetricLayer.Sql
