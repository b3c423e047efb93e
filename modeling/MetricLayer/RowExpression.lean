import MetricLayer.Error
import MetricLayer.Sql.Dialect

/-!
# Row expressions

A calculated dimension is an SQL expression over the columns of one row, which
it names in braces. The text is kept as it is but for these references, which
become quoted columns. It must be safe to stand in a statement and must not
aggregate, and a function that may yield null without a default around it draws
a warning.
-/

namespace MetricLayer.RowExpression

/-- Functions that have no meaning on a single row. -/
def aggregateFunctions : List String :=
  ["SUM", "AVG", "COUNT", "COUNT_DISTINCT", "MIN", "MAX", "APPROX_COUNT_DISTINCT", "COUNTIF",
    "ARRAY_AGG", "STRING_AGG", "ANY_VALUE", "LOGICAL_AND", "LOGICAL_OR", "STDDEV", "VARIANCE"]

/-- Functions that are null where they find nothing. -/
def nullProneFunctions : List String :=
  ["REGEXP_EXTRACT", "JSON_EXTRACT", "JSON_EXTRACT_SCALAR", "JSON_VALUE", "SPLIT", "SAFE_CAST"]

/-- Functions that put a default in the place of null. -/
def nullGuards : List String := ["COALESCE", "IFNULL"]

/-- An expression with its references replaced by quoted columns, the columns
that it names, and what its author should know. -/
structure Compiled where
  sql : String
  dependsOn : List String
  warnings : List String

/-- A function call with the calls around it, outermost first. -/
structure Call where
  name : String
  enclosing : List String
  deriving DecidableEq, Repr

/-- The text `cs`, of which the first byte stands at `position`, with each
reference replaced by what `write` makes of its name. -/
def substitute (write : String → String) (position : Nat) :
    List Reference → List Char → List Char
  | _, [] => []
  | [], c :: cs => c :: cs
  | r :: rest, c :: cs =>
    let next := position + c.utf8Size
    if position < r.start then c :: substitute write next (r :: rest) cs
    else if next < r.stop then substitute write next (r :: rest) cs
    else (write r.name).toList ++ substitute write next rest cs

/-- Blanks in the place of everything inside quotes and braces. -/
def mask (quoted inReference : Bool) : List Char → List Char
  | [] => []
  | c :: cs =>
    if c == '\'' && !inReference then c :: mask (!quoted) inReference cs
    else if c == '{' && !quoted then ' ' :: mask quoted true cs
    else if c == '}' && inReference then ' ' :: mask quoted false cs
    else if quoted || inReference then ' ' :: mask quoted inReference cs
    else c :: mask quoted inReference cs

def isFunctionName (name : String) : Bool := !name.isEmpty && !name.toList.all Char.isDigit

/-- The calls of a masked text. `stack` holds the names before the parentheses
still open, innermost first, empty for those that call nothing, and `word` the
letters just read, last first. -/
def callsFrom (stack : List String) (word : List Char) : List Char → List Call
  | [] => []
  | c :: cs =>
    if Text.isNameChar c then callsFrom stack (c :: word) cs
    else
      let blanks := (c :: cs).takeWhile Text.isBlank
      if ((c :: cs).drop blanks.length).head? == some '(' then
        let name := String.ofList (word.reverse.map Char.toUpper)
        let rest := callsFrom (name :: stack) [] (cs.drop blanks.length)
        if isFunctionName name then ⟨name, stack.reverse.filter (!·.isEmpty)⟩ :: rest else rest
      else callsFrom (if c == ')' then stack.tail else stack) [] cs
termination_by cs => cs.length

def calls (expression : String) : List Call :=
  callsFrom [] [] (mask false false expression.toList)

def nullWarning (name : String) : String :=
  s!"{name} can return NULL; wrap it in COALESCE or IFNULL to supply a default"

def constantWarning : String :=
  "expression references no columns and evaluates to the same value on every row"

def warningsFor (calls : List Call) (references : List Reference) : List String :=
  (calls.filter fun call =>
    nullProneFunctions.contains call.name && !call.enclosing.any nullGuards.contains).map
      (nullWarning ·.name) ++
    (if references.isEmpty then [constantWarning] else [])

def compile (d : Sql.Dialect) (expression : String) : Except Error Compiled := do
  if Text.isBlankText expression then .error .emptyExpression
  else
    let references ← (extractReferences expression).mapError Error.reference
    let sql := String.ofList (substitute d.quoteName 0 references expression.toList)
    (Sql.guardSql sql).mapError Error.guard
    let calls := calls expression
    match calls.find? fun call => aggregateFunctions.contains call.name with
    | some call => .error (.aggregateInRow call.name)
    | none =>
      .ok { sql, dependsOn := uniqueNames references, warnings := warningsFor calls references }

end MetricLayer.RowExpression
