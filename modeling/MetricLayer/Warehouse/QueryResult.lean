import MetricLayer.Json.Text
import MetricLayer.Text.Blank

/-!
# What a query answers

Only counts and short lists are read from the answers of a warehouse. Numbers
may come as texts, and texts as numbers.
-/

namespace MetricLayer

/-- Rows of values under the names of columns. A row may lack its last
columns. -/
structure QueryResult where
  columns : List String := []
  rows : List (List Json) := []

namespace QueryResult

/-- The value of a row under the name `column`, the last one if several columns
have this name. -/
def value? (r : QueryResult) (column : String) (row : List Json) : Option Json :=
  ((r.columns.zip row).reverse.find? (·.1 == column)).map (·.2)

/-- The number that decimal digits stand for, with or without a plus sign, if it
fits a word of 64 bits. -/
def countOfText? (s : String) : Option UInt64 :=
  let cs := Text.trim s.toList
  let digits := match cs with
    | '+' :: rest => rest
    | cs => cs
  if digits.isEmpty || !digits.all Char.isDigit then none
  else
    let n := digits.foldl (fun n c => 10 * n + (c.toNat - '0'.toNat)) 0
    if n < UInt64.size then some (UInt64.ofNat n) else none

/-- Negative numbers count as zero and fractions are cut off. -/
def countOf? : Json → Option UInt64
  | .integer n => some (UInt64.ofNat n.toNat)
  | .float x => some x.toUInt64
  | .text s => countOfText? s
  | _ => none

/-- The first column of the first row as a count. -/
def count? (r : QueryResult) : Option UInt64 := do
  let column ← r.columns.head?
  let row ← r.rows.head?
  countOf? (← r.value? column row)

def textOf? : Json → Option String
  | .null => none
  | .text s => some s
  | v => some v.toText

/-- The values of a column as texts, without those that are null. -/
def texts (r : QueryResult) (column : String) : List String :=
  r.rows.filterMap fun row => (r.value? column row).bind textOf?

end QueryResult

end MetricLayer
