import MetricLayer.Json.Value
import MetricLayer.Time.Timestamp

/-!
# Reading values out of a document

Each reader takes a document value to a value of its type or says why it
cannot. The fields of an object are read in order into a draft
(`Json.readFields`), and a field that must be present is then asked for
(`Json.require`).
-/

namespace MetricLayer

namespace Json

/-- Why a document is not what it should be. -/
inductive Fault where
  | malformed
  | expected (what : String)
  | missing (field : String)
  | unknown (field : String)
  /-- A value of the right shape that breaks a rule of its own. -/
  | refused (reason : String)
  deriving DecidableEq, Repr

def Fault.message : Fault → String
  | .malformed => "malformed document"
  | .expected what => s!"expected {what}"
  | .missing field => s!"missing field {field}"
  | .unknown field => s!"unknown field {field}"
  | .refused reason => reason

def asText : Json → Except Fault String
  | .text s => .ok s
  | _ => .error (.expected "a text")

def asBool : Json → Except Fault Bool
  | .bool b => .ok b
  | _ => .error (.expected "a truth value")

/-- An integer of the range from `low` up to but not including `high`. -/
def asIntegerIn (low high : Int) : Json → Except Fault Int
  | .integer n => if low ≤ n && n < high then .ok n else .error (.expected "a smaller integer")
  | _ => .error (.expected "an integer")

def asUInt8 (v : Json) : Except Fault UInt8 := do
  let n ← asIntegerIn 0 UInt8.size v
  .ok (UInt8.ofNat n.toNat)

def asUInt64 (v : Json) : Except Fault UInt64 := do
  let n ← asIntegerIn 0 UInt64.size v
  .ok (UInt64.ofNat n.toNat)

def asInt64 (v : Json) : Except Fault Int64 := do
  let n ← asIntegerIn Int64.minValue.toInt (Int64.maxValue.toInt + 1) v
  .ok (Int64.ofInt n)

def asList (read : Json → Except Fault α) : Json → Except Fault (List α)
  | .list items => items.mapM read
  | _ => .error (.expected "a list")

def asTexts : Json → Except Fault (List String) := asList asText

/-- Null stands for a value that is absent. -/
def asOption (read : Json → Except Fault α) : Json → Except Fault (Option α)
  | .null => .ok none
  | v => do
    let x ← read v
    .ok (some x)

/-- One of several names, or an object that holds null under that name. -/
def asVariant (ofName? : String → Option α) (v : Json) : Except Fault α :=
  let name? := match v with
    | .text name => some name
    | .object [(name, .null)] => some name
    | _ => none
  match name?.bind ofName? with
  | some x => .ok x
  | none => .error (.expected "one of the known names")

def asTimestamp (v : Json) : Except Fault Timestamp := do
  let s ← asText v
  match Timestamp.read s with
  | .ok t => .ok t
  | .error fault => .error (.expected s!"a timestamp: {fault.message}")

def asDate (v : Json) : Except Fault Date := do
  let s ← asText v
  match Date.read s.toList with
  | .ok d => .ok d
  | .error fault => .error (.expected s!"a date: {fault.message}")

def asFields : Json → Except Fault (List (String × Json))
  | .object fields => .ok fields
  | _ => .error (.expected "an object")

/-- The fields of an object none of which must be present. An empty list is such
an object too. -/
def asOptionalFields : Json → Except Fault (List (String × Json))
  | .object fields => .ok fields
  | .list [] => .ok []
  | _ => .error (.expected "an object")

def readFields (start : α) (read : α → String → Json → Except Fault α)
    (fields : List (String × Json)) : Except Fault α :=
  fields.foldlM (fun draft (name, v) => read draft name v) start

def require (names : List String) (fields : List (String × Json)) : Except Fault Unit :=
  match names.find? fun name => !fields.any (·.1 == name) with
  | some name => .error (.missing name)
  | none => .ok ()

end Json

def Timestamp.toJson (t : Timestamp) : Json := .text t.text

def Date.toJson (d : Date) : Json := .text d.text

end MetricLayer
