import MetricLayer.Text.Search
import MetricLayer.Text.WordChar

/-!
# Guarding a statement

Text that is to stand inside a statement must balance its parentheses outside
single quotes, and hold neither a statement separator, nor a comment, nor a
word that changes data or rights, in quotes or out of them. `guardSql` reports
the first of these rules that is broken.
-/

namespace MetricLayer.Sql

namespace Guard

inductive Fault where
  | unexpectedClose
  | unclosed (depth : Nat)
  | separator (mark : String)
  | keyword (word : String)
  deriving DecidableEq, Repr

def Fault.message : Fault → String
  | .unexpectedClose => "unbalanced parentheses: unexpected ')'"
  | .unclosed depth => s!"unbalanced parentheses: {depth} unclosed '('"
  | .separator mark => s!"statement separator or comment '{mark}' is not allowed"
  | .keyword word => s!"keyword {word} is not allowed"

/-- The parentheses left open at the end, unless one is closed too many. -/
def depth? (depth : Nat) (quoted : Bool) : List Char → Option Nat
  | [] => some depth
  | c :: cs =>
    if c == '\'' then depth? depth (!quoted) cs
    else if quoted then depth? depth quoted cs
    else if c == '(' then depth? (depth + 1) quoted cs
    else if c == ')' then
      match depth with
      | 0 => none
      | depth + 1 => depth? depth quoted cs
    else depth? depth quoted cs

def separators : List String := [";", "--", "/*"]

def keywords : List String :=
  ["DROP", "DELETE", "INSERT", "UPDATE", "CREATE", "ALTER", "TRUNCATE", "MERGE", "GRANT",
    "REVOKE", "EXEC", "EXECUTE"]

/-- The letter that keywords are compared by. The long s and the Kelvin sign
stand for the letters they are forms of. -/
def foldChar (c : Char) : Char :=
  if c == 'ſ' then 'S' else if c == '\u212a' then 'K' else c.toUpper

/-- The upper case of a character that can stand in a keyword. -/
def upperChar (c : Char) : Char := if c == 'ſ' then 'S' else c.toUpper

def keyword? (cs : List Char) : Option (List Char) :=
  (Text.words cs).find? fun word => keywords.contains (String.ofList (word.map foldChar))

end Guard

def guardSql (sql : String) : Except Guard.Fault Unit :=
  match Guard.depth? 0 false sql.toList with
  | none => .error .unexpectedClose
  | some (depth + 1) => .error (.unclosed (depth + 1))
  | some 0 =>
    match Guard.separators.find? (Text.contains sql) with
    | some mark => .error (.separator mark)
    | none =>
      match Guard.keyword? sql.toList with
      | some word => .error (.keyword (String.ofList (word.map Guard.upperChar)))
      | none => .ok ()

end MetricLayer.Sql
