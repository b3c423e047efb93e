import MetricLayer.Json.Value

/-!
# Tables of a configuration text

A configuration is a tree of tables. A table comes into being in one of three
ways: by a header of its own, on the way to a table whose header names it, or
through a key with dots. A header may complete a table of the second kind only,
and a dotted key may add to one of the third kind only, so that no part of the
tree is defined in two places.
-/

namespace MetricLayer.Toml

inductive Origin where
  | header
  | passing
  | dotted
  deriving DecidableEq, Repr

inductive Node where
  | value (v : Json)
  | table (origin : Origin) (entries : List (String × Node))
  /-- Tables that repeat under one header, last first. -/
  | tables (items : List (List (String × Node)))
  deriving Inhabited

abbrev Entries := List (String × Node)

def get? (entries : Entries) (name : String) : Option Node :=
  (entries.find? (·.1 == name)).map (·.2)

def put (entries : Entries) (name : String) (node : Node) : Entries :=
  entries.filter (·.1 != name) ++ [(name, node)]

/-- Change the table that headers reach by `path`. -/
def underHeader? (change : Entries → Option Entries) : List String → Entries → Option Entries
  | [], entries => change entries
  | name :: path, entries =>
    match get? entries name with
    | none => do some (put entries name (.table .passing (← underHeader? change path [])))
    | some (.table origin inner) => do
      some (put entries name (.table origin (← underHeader? change path inner)))
    | some (.tables (inner :: before)) => do
      some (put entries name (.tables ((← underHeader? change path inner) :: before)))
    | some _ => none

/-- Define `last` in the table that the dotted key `path` reaches. -/
def define? (last : String) (v : Json) : List String → Entries → Option Entries
  | [], entries => if (get? entries last).isSome then none else some (put entries last (.value v))
  | name :: path, entries =>
    match get? entries name with
    | none => do some (put entries name (.table .dotted (← define? last v path [])))
    | some (.table .dotted inner) => do
      some (put entries name (.table .dotted (← define? last v path inner)))
    | some (.table .passing inner) =>
      match path with
      | [] => none
      | _ => do some (put entries name (.table .passing (← define? last v path inner)))
    | some _ => none

/-- Begin the table `last` by a header of its own. -/
def beginTable? (last : String) (entries : Entries) : Option Entries :=
  match get? entries last with
  | none => some (put entries last (.table .header []))
  | some (.table .passing inner) => some (put entries last (.table .header inner))
  | some _ => none

/-- Begin one more of the tables `last`. -/
def beginOneMore? (last : String) (entries : Entries) : Option Entries :=
  match get? entries last with
  | none => some (put entries last (.tables [[]]))
  | some (.tables items) => some (put entries last (.tables ([] :: items)))
  | some _ => none

mutual

def Node.toJson : Node → Json
  | .value v => v
  | .table _ entries => .ofFields (fieldsOf entries)
  | .tables items => .list (listOf items).reverse

def fieldsOf : List (String × Node) → List (String × Json)
  | [] => []
  | (name, node) :: rest => (name, node.toJson) :: fieldsOf rest

def listOf : List (List (String × Node)) → List Json
  | [] => []
  | entries :: rest => .ofFields (fieldsOf entries) :: listOf rest

end

end MetricLayer.Toml
