import MetricLayer.Number.Binary64

/-!
# Document values

`Json` is the value of a document: null, a truth value, a number, a text, a
list or an object. An object keeps its fields in increasing order of their
names, each name once; `Json.ofFields` builds one from fields in any order.
-/

namespace MetricLayer

/-- Numbers are integers where they are written without fraction or exponent
and fit a word of 64 bits, signed or unsigned, and floating otherwise. -/
inductive Json where
  | null
  | bool (value : Bool)
  | integer (value : Int)
  | float (value : Binary64)
  | text (value : String)
  | list (items : List Json)
  | object (fields : List (String × Json))
  deriving Inhabited

namespace Json

/-- Put a field in its place; one of the same name is replaced. -/
def insertField (name : String) (value : Json) : List (String × Json) → List (String × Json)
  | [] => [(name, value)]
  | (other, old) :: rest =>
    if name < other then (name, value) :: (other, old) :: rest
    else if other < name then (other, old) :: insertField name value rest
    else (name, value) :: rest

def sortFields (fields : List (String × Json)) : List (String × Json) :=
  fields.foldl (fun sorted (name, value) => insertField name value sorted) []

def ofFields (fields : List (String × Json)) : Json := .object (sortFields fields)

def ofNat (n : Nat) : Json := .integer n

def ofOption (write : α → Json) : Option α → Json
  | none => .null
  | some x => write x

def texts (names : List String) : Json := .list (names.map .text)

/-- The value of a field; a field that is absent reads as null. -/
def field (name : String) : Json → Json
  | .object fields => ((fields.find? (·.1 == name)).map (·.2)).getD .null
  | _ => .null

def has (name : String) : Json → Bool
  | .object fields => fields.any (·.1 == name)
  | _ => false

end Json

end MetricLayer
