import MetricLayer.Formula.Tree
import MetricLayer.Reference

/-!
# Tokens of a formula

White space separates tokens and means nothing else. A text stands in single
quotes, in which a quote is written twice; a number is digits with at most one
point; the name of a function follows the rule of references.
-/

namespace MetricLayer.Formula

inductive Token where
  | reference (name : String)
  | number (digits : String)
  | literal (value : String)
  | ident (value : String)
  | opening
  | closing
  | comma
  | op (op : ArithOp)
  deriving DecidableEq, Repr

def Token.describe : Token → String
  | .reference name => s!"reference \x7b{name}\x7d"
  | .number digits => s!"number {digits}"
  | .literal value => s!"string '{value}'"
  | .ident value => s!"identifier {value}"
  | .opening => "'('"
  | .closing => "')'"
  | .comma => "','"
  | .op operator => s!"operator {operator.name}"

/-- A token and the position of its first byte. -/
structure Placed where
  token : Token
  position : Nat
  deriving DecidableEq, Repr

/-- Why a text is not a formula. -/
inductive Fault where
  | unclosedReference (position : Nat)
  | emptyReference (position : Nat)
  | invalidReference (name : String) (position : Nat)
  | unmatchedBrace (position : Nat)
  | unterminatedText (position : Nat)
  | lonePoint (position : Nat)
  | unexpectedCharacter (character : Char) (position : Nat)
  | empty
  | unexpected (token : Token) (position : Nat)
  | unexpectedEnd
  | bareName (name : String) (position : Nat)
  | expectedComma (found : Token) (position : Nat)
  | callNeverClosed (name : String)
  | groupNeverClosed (position : Nat)
  deriving DecidableEq, Repr

def Fault.message : Fault → String
  | .unclosedReference position => s!"unclosed '\x7b' at position {position}"
  | .emptyReference position => s!"empty reference at position {position}"
  | .invalidReference name position =>
    s!"invalid reference '\x7b{name}\x7d' at position {position}"
  | .unmatchedBrace position => s!"unmatched '\x7d' at position {position}"
  | .unterminatedText position => s!"unterminated string at position {position}"
  | .lonePoint position => s!"unexpected '.' at position {position}"
  | .unexpectedCharacter character position =>
    s!"unexpected character '{character}' at position {position}"
  | .empty => "formula is empty"
  | .unexpected token position => s!"unexpected {token.describe} at position {position}"
  | .unexpectedEnd => "unexpected end of formula"
  | .bareName name position =>
    s!"bare identifier '{name}' at position {position}; reference metrics as \x7b{name}\x7d"
  | .expectedComma found position =>
    s!"expected ',' or ')' but found {found.describe} at position {position}"
  | .callNeverClosed name => s!"unbalanced parentheses: call to {name} is never closed"
  | .groupNeverClosed position =>
    s!"unbalanced parentheses: '(' at position {position} is never closed"

/-- The text up to the closing quote and the number of characters up to and with
that quote. -/
def quotedText? : List Char → Option (List Char × Nat)
  | [] => none
  | '\'' :: '\'' :: cs => (quotedText? cs).map fun (inner, length) => ('\'' :: inner, length + 2)
  | '\'' :: _ => some ([], 1)
  | c :: cs => (quotedText? cs).map fun (inner, length) => (c :: inner, length + 1)

/-- The leading digits, with at most one point among them. -/
def leadingNumber (pointSeen : Bool) : List Char → List Char
  | [] => []
  | c :: cs =>
    if c.isDigit then c :: leadingNumber pointSeen cs
    else if c == '.' && !pointSeen then c :: leadingNumber true cs
    else []

/-- The token that starts with `c`, with the number of characters after `c` that
belong to it. -/
def tokenAt (position : Nat) (c : Char) (cs : List Char) : Except Fault (Token × Nat) :=
  if c == '{' then
    let inner := cs.takeWhile fun d => d != '}' && d != '{'
    let name := String.ofList inner
    if (cs.drop inner.length).head? != some '}' then .error (.unclosedReference position)
    else if Text.isBlankText name then .error (.emptyReference position)
    else if isName name then .ok (.reference name, inner.length + 1)
    else .error (.invalidReference name position)
  else if c == '}' then .error (.unmatchedBrace position)
  else if c == '\'' then
    match quotedText? cs with
    | some (inner, length) => .ok (.literal (String.ofList inner), length)
    | none => .error (.unterminatedText position)
  else if c.isDigit || c == '.' then
    let digits := leadingNumber false (c :: cs)
    if digits == ['.'] then .error (.lonePoint position)
    else .ok (.number (String.ofList digits), digits.length - 1)
  else if c.isAlpha || c == '_' then
    let rest := cs.takeWhile Text.isNameChar
    .ok (.ident (String.ofList (c :: rest)), rest.length)
  else if c == '(' then .ok (.opening, 0)
  else if c == ')' then .ok (.closing, 0)
  else if c == ',' then .ok (.comma, 0)
  else match ArithOp.ofChar? c with
    | some op => .ok (.op op, 0)
    | none => .error (.unexpectedCharacter c position)

def tokensFrom (position : Nat) : List Char → Except Fault (List Placed)
  | [] => .ok []
  | c :: cs =>
    if Text.isBlank c then tokensFrom (position + c.utf8Size) cs
    else do
      let (token, length) ← tokenAt position c cs
      let next := position + c.utf8Size + Text.byteLength (cs.take length)
      let rest ← tokensFrom next (cs.drop length)
      .ok (⟨token, position⟩ :: rest)
termination_by cs => cs.length

def tokens (s : String) : Except Fault (List Placed) := tokensFrom 0 s.toList

end MetricLayer.Formula
