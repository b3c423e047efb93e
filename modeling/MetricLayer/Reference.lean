import MetricLayer.Text.Blank
import MetricLayer.Text.Search

/-!
# References

A formula or a row expression names metrics or columns in braces. A name is a
letter or underscore followed by letters, digits and underscores, all of ASCII.
Inside single quotes braces are text; a quote written twice closes a literal
and opens the next, so it needs no rule of its own.

`extractReferences` lists the references of a text in order, each with the
positions of its first byte and of the first byte after it.
-/

namespace MetricLayer

/-- Whether `s` may name a metric, a dimension or a column in braces. -/
def isName (s : String) : Bool :=
  match s.toList with
  | [] => false
  | c :: cs => (c.isAlpha || c == '_') && cs.all Text.isNameChar

structure Reference where
  name : String
  start : Nat
  stop : Nat
  deriving DecidableEq, Repr

namespace Reference

/-- What is wrong with the braces of a text. -/
inductive Fault where
  | nested (position opened : Nat)
  | unmatched (position : Nat)
  | empty (position : Nat)
  | invalid (name : String)
  | unclosed (position : Nat)
  deriving DecidableEq, Repr

def Fault.message : Fault → String
  | .nested position opened =>
    s!"nested '\x7b' at position {position} (reference opened at {opened})"
  | .unmatched position => s!"unmatched '\x7d' at position {position}"
  | .empty position => s!"empty reference at position {position}"
  | .invalid name =>
    s!"invalid reference '\x7b{name}\x7d': references start with a letter or underscore " ++
      "and contain only letters, digits and underscores"
  | .unclosed position => s!"unclosed '\x7b' at position {position}"

/-- The reference between braces, `opened` and `position` being where they
stand. -/
def close (name : String) (opened position : Nat) : Except Fault Reference :=
  if Text.isBlankText name then .error (.empty opened)
  else if isName name then .ok ⟨name, opened, position + 1⟩
  else .error (.invalid name)

/-- Reads on from `position`. A reference is open when `opened` holds its
position and the characters of its name, last first. -/
def scan (position : Nat) (quoted : Bool) (opened : Option (Nat × List Char)) :
    List Char → Except Fault (List Reference)
  | [] =>
    match opened with
    | some (start, _) => .error (.unclosed start)
    | none => .ok []
  | c :: cs =>
    let next := position + c.utf8Size
    match opened with
    | none =>
      if c == '\'' then scan next (!quoted) none cs
      else if quoted then scan next quoted none cs
      else if c == '{' then scan next quoted (some (position, [])) cs
      else if c == '}' then .error (.unmatched position)
      else scan next quoted none cs
    | some (start, name) =>
      if c == '{' then .error (.nested position start)
      else if c == '}' then do
        let reference ← close (String.ofList name.reverse) start position
        let rest ← scan next quoted none cs
        .ok (reference :: rest)
      else scan next quoted (some (start, c :: name)) cs

end Reference

def extractReferences (s : String) : Except Reference.Fault (List Reference) :=
  Reference.scan 0 false none s.toList

/-- The names referred to, each at its first occurrence. -/
def uniqueNames (references : List Reference) : List String :=
  (references.map (·.name)).eraseDups

end MetricLayer
