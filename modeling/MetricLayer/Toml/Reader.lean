import MetricLayer.Json.Token
import MetricLayer.Toml.Table

/-!
# Reading a configuration text

Line by line, a table header, a key with its value, or neither. Keys are bare
or quoted and joined by dots. Values are quoted texts, integers, floats, truth
values, lists and inline tables, of which only lists may go over several lines.
A comment runs from `#` to the end of its line.
-/

namespace MetricLayer.Toml

def isSpace (c : Char) : Bool := c == ' ' || c == '\t'

def skipSpaces (cs : List Char) : List Char := cs.dropWhile isSpace

def isKeyChar (c : Char) : Bool := c.isAlphanum || c == '_' || c == '-'

/-- A character that may stand in a text or a comment. -/
def isShown (c : Char) : Bool := c == '\t' || (c.toNat ≥ 0x20 && c.toNat != 0x7F)

/-- The value of hexadecimal digits. -/
def hexNumber? (cs : List Char) : Option Nat :=
  cs.foldlM (fun n c => do some (16 * n + (← Json.hexValue? c))) 0

def scalarValue? (n : Nat) : Option Char :=
  if n.isValidChar then some (Char.ofNat n) else none

/-- The characters up to the closing double quote, and what follows it. -/
def quotedText? : List Char → Option (List Char × List Char)
  | [] => none
  | '"' :: rest => some ([], rest)
  | '\\' :: 'u' :: a :: b :: c :: d :: rest => do
    let x ← scalarValue? (← hexNumber? [a, b, c, d])
    let (text, rest) ← quotedText? rest
    some (x :: text, rest)
  | '\\' :: 'U' :: a :: b :: c :: d :: e :: f :: g :: h :: rest => do
    let x ← scalarValue? (← hexNumber? [a, b, c, d, e, f, g, h])
    let (text, rest) ← quotedText? rest
    some (x :: text, rest)
  | '\\' :: c :: rest => do
    if c == '/' then none
    let n ← Json.escapeOf? c
    let (text, rest) ← quotedText? rest
    some (Char.ofNat n :: text, rest)
  | c :: rest => do
    if !isShown c then none
    let (text, rest) ← quotedText? rest
    some (c :: text, rest)

/-- The characters up to the closing single quote, and what follows it. -/
def literalText? (cs : List Char) : Option (List Char × List Char) :=
  let text := cs.takeWhile fun c => c != '\'' && isShown c
  match cs.drop text.length with
  | '\'' :: rest => some (text, rest)
  | _ => none

def simpleKey? : List Char → Option (String × List Char)
  | [] => none
  | '"' :: rest => (quotedText? rest).map fun (text, rest) => (String.ofList text, rest)
  | '\'' :: rest => (literalText? rest).map fun (text, rest) => (String.ofList text, rest)
  | c :: rest =>
    let name := (c :: rest).takeWhile isKeyChar
    if name.isEmpty then none
    else some (String.ofList name, (c :: rest).drop name.length)

/-- A key of one or more names joined by dots, and what follows it. There are at
most as many names as characters. -/
def dottedKey? : Nat → List Char → Option (List String × List Char)
  | 0, _ => none
  | bound + 1, cs => do
    let (name, rest) ← simpleKey? (skipSpaces cs)
    match skipSpaces rest with
    | '.' :: rest => do
      let (names, rest) ← dottedKey? bound rest
      some (name :: names, rest)
    | rest => some ([name], rest)

def key? (cs : List Char) : Option (List String × List Char) := dottedKey? cs.length cs

/-- Digits with single underscores between them, the underscores left out. -/
def joinedDigits? (isDigit : Char → Bool) : List Char → Option (List Char)
  | [] => none
  | [c] => if isDigit c then some [c] else none
  | c :: '_' :: rest => if isDigit c then (joinedDigits? isDigit rest).map (c :: ·) else none
  | c :: rest => if isDigit c then (joinedDigits? isDigit rest).map (c :: ·) else none

/-- An integer of at most 64 bits, signed. -/
def integer? (negative : Bool) (n : Nat) : Option Json :=
  let n : Int := if negative then -n else n
  if Int64.minValue.toInt ≤ n && n ≤ Int64.maxValue.toInt then some (.integer n) else none

def isDigitOf (base : Nat) (c : Char) : Bool := (Json.hexValue? c).any (· < base)

def based? (base : Nat) (cs : List Char) : Option Json := do
  let digits ← joinedDigits? (isDigitOf base) cs
  let n := digits.foldl (fun n c => base * n + (Json.hexValue? c).getD 0) 0
  integer? false n

/-- Infinity, or the value that is no number. -/
def specialFloat (negative isNan : Bool) : Json :=
  .float ⟨(if negative then 0x8000000000000000 else 0) +
    (if isNan then 0x7FF8000000000000 else 0x7FF0000000000000)⟩

/-- A decimal number after its sign: an integer, or a float if it has a fraction
or an exponent. -/
def decimal? (negative : Bool) (cs : List Char) : Option Json := do
  let isDigitOrLine (c : Char) := c.isDigit || c == '_'
  let whole := cs.takeWhile isDigitOrLine
  let digits ← joinedDigits? Char.isDigit whole
  if digits.length > 1 && digits.head? == some '0' then none
  match cs.drop whole.length with
  | [] => integer? negative (Json.numeral digits)
  | rest => do
    let (fraction, rest) ← match rest with
      | '.' :: rest => do
        let part := rest.takeWhile isDigitOrLine
        let fraction ← joinedDigits? Char.isDigit part
        some (fraction, rest.drop part.length)
      | rest => some ([], rest)
    let exponent ← match rest with
      | [] => some none
      | e :: rest => do
        if e != 'e' && e != 'E' then none
        let (sign, rest) := match rest with
          | '+' :: rest => (false, rest)
          | '-' :: rest => (true, rest)
          | rest => (false, rest)
        let n : Int := Json.numeral (← joinedDigits? Char.isDigit rest)
        some (some (if sign then -n else n))
    some <| match Binary64.ofDecimal? negative (Json.numeral (digits ++ fraction))
        (exponent.getD 0 - fraction.length) with
      | some x => .float x
      | none => specialFloat negative false

/-- A number or a truth value. -/
def bareValue? (cs : List Char) : Option Json :=
  match cs with
  | '0' :: 'x' :: rest => based? 16 rest
  | '0' :: 'o' :: rest => based? 8 rest
  | '0' :: 'b' :: rest => based? 2 rest
  | _ =>
    if cs == "true".toList then some (.bool true)
    else if cs == "false".toList then some (.bool false)
    else
      let (negative, rest) := match cs with
        | '+' :: rest => (false, rest)
        | '-' :: rest => (true, rest)
        | rest => (false, rest)
      if rest == "inf".toList then some (specialFloat negative false)
      else if rest == "nan".toList then some (specialFloat negative true)
      else decimal? negative rest

def isBareChar (c : Char) : Bool := isKeyChar c || c == '+' || c == '.' || c == ':'

/-- Blanks, ends of lines and comments between the items of a list. -/
def skipLines : Nat → List Char → List Char
  | 0, cs => cs
  | bound + 1, cs =>
    match cs.dropWhile fun c => isSpace c || c == '\n' || c == '\r' with
    | '#' :: rest => skipLines bound (rest.dropWhile (· != '\n'))
    | rest => rest

mutual

/-- The value at the head of `cs`, and what follows it. -/
def valueAt? : Nat → List Char → Option (Json × List Char)
  | 0, _ => none
  | bound + 1, cs =>
    match cs with
    | '"' :: rest => (quotedText? rest).map fun (text, rest) => (.text (String.ofList text), rest)
    | '\'' :: rest =>
      (literalText? rest).map fun (text, rest) => (.text (String.ofList text), rest)
    | '[' :: rest => do
      let (items, rest) ← itemsAt? bound (skipLines rest.length rest)
      some (.list items, rest)
    | '{' :: rest =>
      match skipSpaces rest with
      | '}' :: rest => some (.ofFields [], rest)
      | rest => do
        let (entries, rest) ← entriesAt? bound [] rest
        some (.ofFields (fieldsOf entries), rest)
    | cs => do
      let word := cs.takeWhile isBareChar
      let v ← bareValue? word
      some (v, cs.drop word.length)

/-- The items of a list up to its closing bracket. -/
def itemsAt? : Nat → List Char → Option (List Json × List Char)
  | 0, _ => none
  | bound + 1, cs =>
    match cs with
    | ']' :: rest => some ([], rest)
    | cs => do
      let (v, rest) ← valueAt? bound cs
      match skipLines rest.length rest with
      | ',' :: rest => do
        let (items, rest) ← itemsAt? bound (skipLines rest.length rest)
        some (v :: items, rest)
      | ']' :: rest => some ([v], rest)
      | _ => none

/-- The entries of an inline table up to its closing brace. -/
def entriesAt? : Nat → Entries → List Char → Option (Entries × List Char)
  | 0, _, _ => none
  | bound + 1, entries, cs => do
    let (names, rest) ← key? cs
    match rest with
    | '=' :: rest => do
      let (v, rest) ← valueAt? bound (skipSpaces rest)
      let entries ← define? (names.getLast?.getD "") v names.dropLast entries
      match skipSpaces rest with
      | ',' :: rest => entriesAt? bound entries rest
      | '}' :: rest => some (entries, rest)
      | _ => none
    | _ => none

end

/-- What follows the end of a line, if nothing but blanks and a comment comes
before it. -/
def endLine? (cs : List Char) : Option (List Char) :=
  let cs := skipSpaces cs
  let cs := match cs with
    | '#' :: rest => rest.dropWhile isShown
    | cs => cs
  match cs with
  | [] => some []
  | '\n' :: rest => some rest
  | '\r' :: '\n' :: rest => some rest
  | _ => none

/-- The tables so far and the header that the next lines stand under. -/
structure Reading where
  root : Entries
  path : List String

/-- One line with anything on it. -/
def line? (s : Reading) (cs : List Char) : Option (Reading × List Char) :=
  match cs with
  | '[' :: '[' :: rest => do
    let (names, rest) ← key? rest
    match rest with
    | ']' :: ']' :: rest => do
      let root ← underHeader? (beginOneMore? (names.getLast?.getD "")) names.dropLast s.root
      some (⟨root, names⟩, rest)
    | _ => none
  | '[' :: rest => do
    let (names, rest) ← key? rest
    match rest with
    | ']' :: rest => do
      let root ← underHeader? (beginTable? (names.getLast?.getD "")) names.dropLast s.root
      some (⟨root, names⟩, rest)
    | _ => none
  | cs => do
    let (names, rest) ← key? cs
    match rest with
    | '=' :: rest => do
      let rest := skipSpaces rest
      let (v, rest) ← valueAt? rest.length rest
      let root ← underHeader? (define? (names.getLast?.getD "") v names.dropLast) s.path s.root
      some (⟨root, s.path⟩, rest)
    | _ => none

/-- Read lines to the end, of which there are fewer than `bound`. -/
def readLines? : Nat → Reading → List Char → Option Reading
  | 0, _, _ => none
  | bound + 1, s, cs =>
    match skipSpaces cs with
    | [] => some s
    | '#' :: rest => do readLines? bound s (← endLine? ('#' :: rest))
    | '\n' :: rest => readLines? bound s rest
    | '\r' :: '\n' :: rest => readLines? bound s rest
    | cs => do
      let (s, rest) ← line? s cs
      readLines? bound s (← endLine? rest)

/-- The value that a configuration text describes. -/
def read? (text : String) : Option Json := do
  let cs := text.toList
  let s ← readLines? (cs.length + 1) ⟨[], []⟩ cs
  some (.ofFields (fieldsOf s.root))

end MetricLayer.Toml
