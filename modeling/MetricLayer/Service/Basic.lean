import MetricLayer.Claims
import MetricLayer.Registry.Edit
import MetricLayer.Rollup.Catalog
import MetricLayer.Store
import MetricLayer.Warehouse.Work

/-!
# The service over stored tables

Each call loads what it needs, works on that and saves the outcome if it
succeeds. Calls that wait for the warehouse are `Work`, all others a single
`Action` on the state.
-/

namespace MetricLayer

/-- The settings that a service works by. -/
structure Service where
  dialect : Sql.Dialect := .bigQuery
  config : Config := {}

namespace Service

structure State where
  store : Store := {}
  /-- The refreshes under way. -/
  claims : Claims := {}
  columns : ColumnCache := {}
  /-- What the clock shows. -/
  now : Timestamp

/-- The state in which nothing is stored. -/
def start (service : Service) (now : Timestamp) : State :=
  { now, columns := { config := service.config.schemaCache } }

abbrev Act : Type → Type := Action State

abbrev Task : Type → Type := Work State

def modifyStore (change : Store → Except Error Store) : Act Unit := do
  let s ← get
  let store ← change s.store
  set { s with store }

def loadRegistry (table : String) : Act Registry := do
  let s ← get
  match ← s.store.loadSchema table with
  | none => throw (.unknown table)
  | some document => Registry.ofDocument document

/-- Save a registry under the name of its table, as the next version. -/
def save (r : Registry) : Act Registry := do
  let s ← get
  let (document, store) ← s.store.saveSchema s.now r.document
  set { s with store }
  Registry.ofDocument document

def loadCatalog (table : String) : Act RollupCatalog := do
  let s ← get
  let rollups ← s.store.loadRollups table
  pure ⟨rollups⟩

def loadOptimized (table : String) : Act (Option OptimizedSource) := do
  let s ← get
  s.store.loadOptimized table

def saveOptimized (table : String) (source : OptimizedSource) : Act Unit :=
  modifyStore (·.saveOptimized table source)

/-- Load a registry, edit it and save it. Nothing is saved if the edit fails. -/
def editRegistry (table : String) (edit : Registry → Registry.Edited α) : Act α := do
  let r ← loadRegistry table
  match edit r with
  | (.error e, _) => throw e
  | (.ok a, r) => do
    let _ ← save r
    pure a

/-- Load the rollups of a table, edit them and save them. Nothing is saved if
the edit fails. -/
def editCatalog (table : String)
    (edit : RollupCatalog → Except Error (α × RollupCatalog)) : Act α := do
  let c ← loadCatalog table
  let (a, c) ← edit c
  modifyStore (·.saveRollups table c.rollups)
  pure a

/-- Claim a key until the task ends. -/
def claim (key : String) : Task Unit := do
  let start : Act Unit := do
    let s ← get
    let claims ← s.claims.start key
    set { s with claims }
  start
  Work.protect fun s => { s with claims := s.claims.release key }

/-- The state after an action, whatever it answers. -/
def after (action : Act α) (s : State) : State := (action.run s).2

end Service

end MetricLayer
