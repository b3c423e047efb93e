import MetricLayer.Sql.Expr

/-!
# Composite keys

Several columns of a row are one text in which no two different rows agree:
each column becomes a text in which `~` is written `~~` and `|` is written
`~p`, a null column is written `~n`, and a bar stands between columns.

`columnsOfKey?` recognizes such a text, however it was written, as a
concatenation of columns that are made safe against null, with literals between
them.
-/

namespace MetricLayer.Sql.Expr

def replaceAll (e : Expr) (part replacement : String) : Expr :=
  .call .replace [e, ofText part, ofText replacement]

/-- One column as a part of a key. -/
def keyPart (column : String) : Expr :=
  let text : Expr := .call .castToString [ofColumn column]
  .call .coalesce [(text.replaceAll "~" "~~").replaceAll "|" "~p", ofText "~n"]

/-- The parts of a key with bars between them. -/
def keyParts (columns : List String) : List Expr := (columns.map keyPart).intersperse (ofText "|")

def compositeKey (columns : List String) : Expr := .call .concat (keyParts columns)

/-- The column that `e` is a text of, through any number of replacements. -/
def wrappedColumn? : Expr → Option String
  | .column _ name => some name
  | .call .replace [inner, .literal _, .literal _] => inner.wrappedColumn?
  | .call .castToString [.column _ name] => some name
  | _ => none

/-- The columns in the parts of a concatenation, if all parts are text literals
or columns with a literal in the place of null. -/
def columnsOfParts? : List Expr → Option (List String)
  | [] => some []
  | .literal (.text _) :: rest => columnsOfParts? rest
  | .call .coalesce [value, .literal _] :: rest => do
    let column ← value.wrappedColumn?
    let columns ← columnsOfParts? rest
    some (column :: columns)
  | .call .ifNull [value, .literal _] :: rest => do
    let column ← value.wrappedColumn?
    let columns ← columnsOfParts? rest
    some (column :: columns)
  | _ :: _ => none

/-- The columns of a composite key, in written order, at least one. -/
def columnsOfKey? : Expr → Option (List String)
  | .call .concat parts =>
    match columnsOfParts? parts with
    | some [] | none => none
    | some columns => some columns
  | _ => none

end MetricLayer.Sql.Expr
