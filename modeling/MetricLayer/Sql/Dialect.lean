import MetricLayer.Json.Text
import MetricLayer.Sql.Expr
import MetricLayer.Text.Search

/-!
# Dialects of SQL

How a warehouse spells names, literals, functions and the creation of tables.
A name is quoted, and the quote inside it is escaped by the dialect's rule; a
text literal likewise. A function given a number of arguments that it cannot
have is spelled `NULL`.
-/

namespace MetricLayer.Sql

inductive Dialect where
  | bigQuery
  | duckDb
  deriving DecidableEq, Repr

namespace Dialect

def name : Dialect → String
  | .bigQuery => "bigquery"
  | .duckDb => "duckdb"

/-- The quote around names. -/
def nameQuote : Dialect → Char
  | .bigQuery => '\x60'
  | .duckDb => '"'

/-- The written form of one character between the quotes of a name. -/
def escapeInName (d : Dialect) (c : Char) : List Char :=
  if c == d.nameQuote then
    match d with
    | .bigQuery => ['\\', c]
    | .duckDb => [c, c]
  else [c]

def quoteChars (d : Dialect) (name : List Char) : String :=
  String.ofList (d.nameQuote :: name.flatMap d.escapeInName ++ [d.nameQuote])

def quoteName (d : Dialect) (name : String) : String := d.quoteChars name.toList

/-- A path of names such as `project.dataset.table` is one quoted name or a
quoted name for each part. -/
def quoteTable (d : Dialect) (table : String) : String :=
  match d with
  | .bigQuery => d.quoteName table
  | .duckDb => ".".intercalate ((Text.splitOn '.' table.toList).map d.quoteChars)

/-- The written form of one character of a text literal. -/
def escapeInText (d : Dialect) (c : Char) : List Char :=
  match d with
  | .bigQuery => if c == '\\' || c == '\'' then ['\\', c] else [c]
  | .duckDb => if c == '\'' then [c, c] else [c]

def quoteText (d : Dialect) (s : String) : String :=
  String.ofList ('\'' :: s.toList.flatMap d.escapeInText ++ ['\''])

mutual

/-- A value as SQL. The items of a list are written one after the other, and an
object as the text of its document. -/
def literal (d : Dialect) : Json → String
  | .text s => d.quoteText s
  | .list items => ", ".intercalate (d.literals items)
  | .object fields => d.quoteText (Json.object fields).toText
  | .null => "NULL"
  | .bool b => if b then "true" else "false"
  | .integer n => toString n
  | .float x => x.text

def literals (d : Dialect) : List Json → List String
  | [] => []
  | v :: rest => d.literal v :: d.literals rest

end

/-- The type of texts. -/
def textType : Dialect → String
  | .bigQuery => "STRING"
  | .duckDb => "VARCHAR"

def functionName : Function → String
  | .safeDivide => "SAFE_DIVIDE"
  | .coalesce => "COALESCE"
  | .ifNull => "IFNULL"
  | .nullIf => "NULLIF"
  | .concat => "CONCAT"
  | .castToString => "CAST"
  | .replace => "REPLACE"
  | .dateDiff => "DATE_DIFF"
  | .round => "ROUND"
  | .abs => "ABS"
  | .ceil => "CEIL"
  | .floor => "FLOOR"
  | .greatest => "GREATEST"
  | .least => "LEAST"
  | .sqrt => "SQRT"
  | .power => "POWER"
  | .ln => "LN"
  | .log10 => "LOG10"
  | .exp => "EXP"
  | .sign => "SIGN"

/-- Names of functions are in upper case in one dialect and in lower case in the
other. -/
def spelling (d : Dialect) (f : Function) : String :=
  match d with
  | .bigQuery => functionName f
  | .duckDb => String.ofList ((functionName f).toList.map Char.toLower)

/-- Whether a call of `f` with `n` arguments can be spelled. -/
def canCall (f : Function) (n : Nat) : Bool :=
  match f with
  | .safeDivide | .nullIf | .power | .dateDiff => n == 2
  | .castToString => n == 1
  | .round => n == 1 || n == 2
  | _ => true

def call (d : Dialect) (f : Function) (arguments : List String) : String :=
  if !canCall f arguments.length then "NULL"
  else match d, f, arguments with
    | .bigQuery, .dateDiff, [start, stop] => "DATE_DIFF(" ++ stop ++ ", " ++ start ++ ", DAY)"
    | .duckDb, .dateDiff, [start, stop] => "date_diff('day', " ++ start ++ ", " ++ stop ++ ")"
    | .duckDb, .safeDivide, [a, b] => "(" ++ a ++ ") / NULLIF(" ++ b ++ ", 0)"
    | d, .castToString, [a] => "CAST(" ++ a ++ " AS " ++ d.textType ++ ")"
    | d, f, arguments => d.spelling f ++ "(" ++ ", ".intercalate arguments ++ ")"

def aggregate (a : Aggregation) (input : String) : String :=
  match a with
  | .sum => "SUM(" ++ input ++ ")"
  | .count => "COUNT(" ++ input ++ ")"
  | .avg => "AVG(" ++ input ++ ")"
  | .min => "MIN(" ++ input ++ ")"
  | .max => "MAX(" ++ input ++ ")"
  | .countDistinct => "COUNT(DISTINCT " ++ input ++ ")"
  | .approxCountDistinct => "APPROX_COUNT_DISTINCT(" ++ input ++ ")"

def countIf (d : Dialect) (condition : String) : String :=
  match d with
  | .bigQuery => "COUNTIF(" ++ condition ++ ")"
  | .duckDb => "COUNT(CASE WHEN " ++ condition ++ " THEN 1 END)"

/-- The statement that puts the rows of `select` in the place of the table
`target`. Partitions and clusters, of which at most four columns count, are
left to the dialect that has them. -/
def createTable (d : Dialect) (target select : String) (partitionBy : Option String)
    (clusterBy : List String) : String :=
  let layout := match d with
    | .bigQuery =>
      (match partitionBy with
        | some column => " PARTITION BY " ++ d.quoteName column
        | none => "") ++
      (if clusterBy.isEmpty then ""
        else " CLUSTER BY " ++ ", ".intercalate ((clusterBy.take 4).map d.quoteName))
    | .duckDb => ""
  "CREATE OR REPLACE TABLE " ++ d.quoteTable target ++ layout ++ " AS " ++ select

end Dialect

end MetricLayer.Sql
