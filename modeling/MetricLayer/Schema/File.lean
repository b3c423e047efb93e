import MetricLayer.Json.Reader
import MetricLayer.Registry.Basic
import MetricLayer.Schema.Codec

/-!
# Schema files

A schema document in a file is read by the rules that the file's name calls
for: strictly if the name ends in `.json` after something else, and with the
relaxed rules otherwise.
-/

namespace MetricLayer

/-- What follows the last point of a file's name, unless nothing precedes it. -/
def fileExtension? (name : String) : Option String :=
  let reversed := name.toList.reverse
  let tail := reversed.takeWhile (· != '.')
  match reversed.drop tail.length with
  | '.' :: _ :: _ => some (String.ofList tail.reverse)
  | _ => none

def rulesFor (name : String) : Json.Rules :=
  if fileExtension? name == some "json" then .strict else .relaxed

/-- The value that the text of a stored document describes. -/
def readStored (read : Json → Except Json.Fault α) (rules : Json.Rules) (text : String) :
    Except Error α :=
  match Json.read? rules text with
  | none => .error (.unreadable .malformed)
  | some v => (read v).mapError Error.unreadable

/-- The registry in the file `name`, of which `text?` is the content if there is
such a file. -/
def Registry.ofFile (name : String) (text? : Option String) : Except Error Registry :=
  match text? with
  | none => .error .fileMissing
  | some text => do
    let document ← readStored SchemaDocument.ofJson (rulesFor name) text
    Registry.ofDocument document

end MetricLayer
