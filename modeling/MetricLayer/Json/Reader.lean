import MetricLayer.Json.Token

/-!
# Reading a document

`Json.read?` reads one value and nothing after it. The tokens are taken one by
one with a stack of the lists and objects still open. An object may not repeat
a name. The relaxed rules also let a comma stand before a closing bracket.
-/

namespace MetricLayer.Json

/-- Which of the two written forms of documents is read. -/
inductive Rules where
  | strict
  | relaxed
  deriving DecidableEq

/-- A list or an object still open, with what it holds so far, last first. -/
inductive Frame where
  | items (done : List Json)
  | fields (done : List (String × Json))
  | field (done : List (String × Json)) (name : String)

/-- What may come next. -/
inductive Expecting where
  | value (orClose : Bool)
  | name (orClose : Bool)
  | colon
  | nothing (read : Json)

structure Reading where
  stack : List Frame
  expecting : Expecting

def Reading.start : Reading := ⟨[], .value false⟩

def Reading.next? (rules : Rules) : Reading → Token → Option Reading
  | ⟨stack, .value orClose⟩, token =>
    match token, stack with
    | .scalar v, _ => some ⟨stack, .nothing v⟩
    | .openList, _ => some ⟨.items [] :: stack, .value true⟩
    | .openObject, _ => some ⟨.fields [] :: stack, .name true⟩
    | .closeList, .items done :: below =>
      if orClose then some ⟨below, .nothing (.list done.reverse)⟩ else none
    | _, _ => none
  | ⟨stack, .name orClose⟩, token =>
    match token, stack with
    | .scalar (.text name), .fields done :: below =>
      if done.any (·.1 == name) then none else some ⟨.field done name :: below, .colon⟩
    | .closeObject, .fields done :: below =>
      if orClose then some ⟨below, .nothing (ofFields done.reverse)⟩ else none
    | _, _ => none
  | ⟨stack, .colon⟩, token =>
    match token with
    | .colon => some ⟨stack, .value false⟩
    | _ => none
  | ⟨stack, .nothing v⟩, token =>
    match token, stack with
    | .comma, .items done :: below => some ⟨.items (v :: done) :: below, .value (rules == .relaxed)⟩
    | .comma, .field done name :: below =>
      some ⟨.fields ((name, v) :: done) :: below, .name (rules == .relaxed)⟩
    | .closeList, .items done :: below => some ⟨below, .nothing (.list (v :: done).reverse)⟩
    | .closeObject, .field done name :: below =>
      some ⟨below, .nothing (ofFields ((name, v) :: done).reverse)⟩
    | _, _ => none

def Reading.end? : Reading → Option Json
  | ⟨[], .nothing v⟩ => some v
  | _ => none

def read? (rules : Rules) (s : String) : Option Json := do
  let tokens ← tokens? s.toList
  let reading ← tokens.foldlM (Reading.next? rules) Reading.start
  reading.end?

end MetricLayer.Json
