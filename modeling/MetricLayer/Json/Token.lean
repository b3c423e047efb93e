import MetricLayer.Json.Value

/-!
# Tokens of a document

`tokens?` cuts a text into brackets, commas, colons and scalars, one character
at a time. A quoted text may escape any character by its units of 16 bits, two
of which make one character beyond the first plane. Scalars outside quotes are
`null`, the truth values and numbers.
-/

namespace MetricLayer.Json

inductive Token where
  | openList
  | closeList
  | openObject
  | closeObject
  | comma
  | colon
  | scalar (value : Json)

def numeral (digits : List Char) : Nat :=
  digits.foldl (fun n c => 10 * n + (c.toNat - '0'.toNat)) 0

/-- The digits after a mark such as a decimal point, at least one, and the
rest. -/
def digitsAfter? : List Char → Option (List Char × List Char)
  | [] => none
  | c :: cs =>
    if c.isDigit then some ((c :: cs).takeWhile Char.isDigit, (c :: cs).dropWhile Char.isDigit)
    else none

/-- The exponent that ends a number, if one is written. -/
def exponent? : List Char → Option (Option Int)
  | [] => some none
  | e :: cs => do
    if e != 'e' && e != 'E' then none
    let (negative, cs) := match cs with
      | '+' :: cs => (false, cs)
      | '-' :: cs => (true, cs)
      | cs => (false, cs)
    let (digits, rest) ← digitsAfter? cs
    if !rest.isEmpty then none
    let n : Int := numeral digits
    some (some (if negative then -n else n))

def number? (cs : List Char) : Option Json := do
  let (negative, cs) := match cs with
    | '-' :: cs => (true, cs)
    | cs => (false, cs)
  let (whole, rest) ← digitsAfter? cs
  if whole.length > 1 && whole.head? == some '0' then none
  let (fraction, rest) ← match rest with
    | '.' :: rest => digitsAfter? rest
    | rest => some ([], rest)
  let exponent ← exponent? rest
  let digits := numeral (whole ++ fraction)
  let n : Int := if negative then -digits else digits
  if fraction.isEmpty && exponent.isNone && !(negative && digits == 0) &&
      Int64.minValue.toInt ≤ n && n < UInt64.size then
    some (.integer n)
  else
    (Binary64.ofDecimal? negative digits (exponent.getD 0 - fraction.length)).map .float

/-- A scalar written without quotes. -/
def bareScalar? (cs : List Char) : Option Json :=
  if cs == "null".toList then some .null
  else if cs == "true".toList then some (.bool true)
  else if cs == "false".toList then some (.bool false)
  else number? cs

/-- The characters of the code points `units`, where two halves of a pair stand
for one character. -/
def joinUnits? : List Nat → Option (List Char)
  | [] => some []
  | [u] => if 0xD800 ≤ u && u < 0xE000 then none else some [Char.ofNat u]
  | u :: v :: rest =>
    if 0xD800 ≤ u && u < 0xDC00 then
      if 0xDC00 ≤ v && v < 0xE000 then
        (joinUnits? rest).map (Char.ofNat (0x10000 + (u - 0xD800) * 0x400 + (v - 0xDC00)) :: ·)
      else none
    else if 0xDC00 ≤ u && u < 0xE000 then none
    else (joinUnits? (v :: rest)).map (Char.ofNat u :: ·)

def hexValue? (c : Char) : Option Nat :=
  if c.isDigit then some (c.toNat - '0'.toNat)
  else if 'a' ≤ c && c ≤ 'f' then some (c.toNat - 'a'.toNat + 10)
  else if 'A' ≤ c && c ≤ 'F' then some (c.toNat - 'A'.toNat + 10)
  else none

/-- Where in a token the next character stands. Characters and code points read
so far are kept last first. -/
inductive Lexing where
  | between
  | inBare (chars : List Char)
  | inText (units : List Nat)
  | escaped (units : List Nat)
  | inCode (units : List Nat) (left value : Nat)

/-- A character outside all tokens. -/
def Lexing.start (c : Char) : List Token × Lexing :=
  if c == ' ' || c == '\t' || c == '\n' || c == '\r' then ([], .between)
  else if c == '"' then ([], .inText [])
  else if c == '[' then ([.openList], .between)
  else if c == ']' then ([.closeList], .between)
  else if c == '\x7b' then ([.openObject], .between)
  else if c == '\x7d' then ([.closeObject], .between)
  else if c == ',' then ([.comma], .between)
  else if c == ':' then ([.colon], .between)
  else ([], .inBare [c])

/-- The character that `\` and a letter stand for. -/
def escapeOf? (c : Char) : Option Nat :=
  if c == '"' || c == '\\' || c == '/' then some c.toNat
  else if c == 'n' then some 0x0A
  else if c == 't' then some 0x09
  else if c == 'r' then some 0x0D
  else if c == 'b' then some 0x08
  else if c == 'f' then some 0x0C
  else none

/-- Read one character: the tokens it completes and where the next one stands. -/
def Lexing.next? (c : Char) : Lexing → Option (List Token × Lexing)
  | .between => some (Lexing.start c)
  | .inBare chars =>
    match Lexing.start c with
    | ([], .inBare _) => some ([], .inBare (c :: chars))
    | (tokens, lexing) => do some (.scalar (← bareScalar? chars.reverse) :: tokens, lexing)
  | .inText units =>
    if c == '"' then do
      some ([.scalar (.text (String.ofList (← joinUnits? units.reverse)))], .between)
    else if c == '\\' then some ([], .escaped units)
    else if c.toNat < 0x20 then none
    else some ([], .inText (c.toNat :: units))
  | .escaped units =>
    if c == 'u' then some ([], .inCode units 4 0)
    else do some ([], .inText ((← escapeOf? c) :: units))
  | .inCode units left value => do
    let value := 16 * value + (← hexValue? c)
    some ([], if left ≤ 1 then .inText (value :: units) else .inCode units (left - 1) value)

def Lexing.end? : Lexing → Option (List Token)
  | .between => some []
  | .inBare chars => (bareScalar? chars.reverse).map fun v => [.scalar v]
  | _ => none

def tokensFrom? (lexing : Lexing) : List Char → Option (List Token)
  | [] => lexing.end?
  | c :: cs => do
    let (tokens, lexing) ← lexing.next? c
    some (tokens ++ (← tokensFrom? lexing cs))

def tokens? (cs : List Char) : Option (List Token) := tokensFrom? .between cs

end MetricLayer.Json
