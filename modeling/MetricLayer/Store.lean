import MetricLayer.Optimized.Source
import MetricLayer.Rollup.Definition
import MetricLayer.Schema.File

/-!
# What is stored of each table

For each table there may be a schema, a list of rollups and an optimized source.
What was saved is loaded as it was; a text that came there in another way is
read when it is asked for. Saving a schema gives it the next version.
-/

namespace MetricLayer

/-- What a file holds. -/
inductive StoredFile (α : Type) where
  | saved (value : α)
  /-- A text that was put there, not saved. -/
  | raw (text : String)

def StoredFile.load (read : Json → Except Json.Fault α) : StoredFile α → Except Error α
  | .saved value => .ok value
  | .raw text => readStored read .relaxed text

structure TableFiles where
  schema : Option (StoredFile SchemaDocument) := none
  rollups : Option (StoredFile (List RollupDefinition)) := none
  optimized : Option (StoredFile OptimizedSource) := none

/-- The files of tables, each table once. -/
structure Store where
  tables : List (String × TableFiles) := []

namespace Store

/-- Names that stand for other places are refused. -/
def isTableName (table : String) : Bool :=
  !(table.isEmpty || table == "." || table == ".." ||
    table.toList.any fun c => c == '/' || c == '\\')

def checkName (table : String) : Except Error Unit :=
  if isTableName table then .ok () else .error (.schema (.invalidTableName table))

variable (s : Store)

def files (table : String) : TableFiles :=
  ((s.tables.find? (·.1 == table)).map (·.2)).getD {}

def putFiles (table : String) (files : TableFiles) :
    List (String × TableFiles) → List (String × TableFiles)
  | [] => [(table, files)]
  | (other, old) :: rest =>
    if other == table then (table, files) :: rest else (other, old) :: putFiles table files rest

def modifyFiles (table : String) (change : TableFiles → TableFiles) : Store :=
  ⟨putFiles table (change (s.files table)) s.tables⟩

/-- A file of a table, if there is one. -/
def loadFile (table : String) (file : TableFiles → Option (StoredFile α))
    (read : Json → Except Json.Fault α) : Except Error (Option α) := do
  checkName table
  match file (s.files table) with
  | none => .ok none
  | some stored => do
    let value ← stored.load read
    .ok (some value)

def loadSchema (table : String) : Except Error (Option SchemaDocument) :=
  s.loadFile table (·.schema) SchemaDocument.ofJson

def loadRollups (table : String) : Except Error (List RollupDefinition) := do
  let rollups ← s.loadFile table (·.rollups) (Json.asList RollupDefinition.ofJson)
  .ok (rollups.getD [])

def loadOptimized (table : String) : Except Error (Option OptimizedSource) :=
  s.loadFile table (·.optimized) OptimizedSource.ofJson

/-- The document as it is saved. It keeps the time of its creation. -/
def nextVersion (now : Timestamp) (document : SchemaDocument) : SchemaDocument :=
  { document with
    version := document.version + 1
    createdAt := document.createdAt.or (some now)
    updatedAt := some now }

/-- Save a schema under the name of its table. -/
def saveSchema (now : Timestamp) (document : SchemaDocument) :
    Except Error (SchemaDocument × Store) := do
  checkName document.table
  let document := nextVersion now document
  .ok (document, s.modifyFiles document.table fun files =>
    { files with schema := some (.saved document) })

def saveRollups (table : String) (rollups : List RollupDefinition) : Except Error Store := do
  checkName table
  .ok (s.modifyFiles table fun files => { files with rollups := some (.saved rollups) })

def saveOptimized (table : String) (source : OptimizedSource) : Except Error Store := do
  checkName table
  .ok (s.modifyFiles table fun files => { files with optimized := some (.saved source) })

/-- The tables that have a schema, readable or not, in increasing order. -/
def listTables : List String :=
  sortedSet ((s.tables.filter fun t => t.2.schema.isSome).map (·.1))

theorem files_modifyFiles (table other : String) (change : TableFiles → TableFiles) :
    (s.modifyFiles table change).files other =
      if other = table then change (s.files table) else s.files other := by
  have find_put (files : TableFiles) (tables : List (String × TableFiles)) :
      (putFiles table files tables).find? (·.1 == other) =
        if other = table then some (table, files) else tables.find? (·.1 == other) := by
    induction tables with
    | nil => grind [putFiles]
    | cons entry rest ih => grind [putFiles]
  simp only [modifyFiles, files, find_put]
  split <;> rfl

end Store

end MetricLayer
