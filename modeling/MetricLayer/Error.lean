import MetricLayer.Formula.Token
import MetricLayer.Schema.Metric
import MetricLayer.Sql.Guard

/-!
# Errors

Each constructor is a cause. `Error.kind` says which kind of failure it is and
`Error.message` words it.
-/

namespace MetricLayer

/-- What an id may name. -/
inductive Entity where
  | metric
  | dimension
  | rollup
  deriving DecidableEq, Repr

def Entity.name : Entity → String
  | .metric => "metric"
  | .dimension => "dimension"
  | .rollup => "rollup"

def commaSeparated (names : List String) : String := ", ".intercalate names

/-- What is wrong with a schema, a rollup or an optimized source. -/
inductive SchemaFault where
  | duplicate (entity : Entity) (id : String)
  | reserved (id : String)
  | alreadyThere (entity : Entity) (id : String)
  | referenced (id : String) (dependents : List String)
  | stored (id : String) (rollups : List String)
  | unknownDimensionOf (rollup dimension : String)
  | notBaseMetricOf (rollup metric : String)
  | noFlagColumn (metric : String)
  | noDimensions
  | noMetrics
  | listedTwice (entity : Entity) (id : String)
  | unknown (entity : Entity) (id : String)
  | calculatedMetric (id : String) (bases : List String)
  | noOptimizedSource (table : String)
  | invalidTableName (table : String)
  /-- A warehouse refuses a statement, in its own words. -/
  | refusedStatement (message : String)
  deriving DecidableEq, Repr

def SchemaFault.message : SchemaFault → String
  | .duplicate entity id => s!"duplicate {entity.name} id {id}"
  | .reserved id => s!"metric id {id} is reserved"
  | .alreadyThere entity id => s!"{entity.name} {id} already exists"
  | .referenced id dependents =>
    s!"metric {id} is referenced by " ++ commaSeparated dependents
  | .stored id rollups => s!"{id} is stored by rollups " ++ commaSeparated rollups
  | .unknownDimensionOf rollup dimension =>
    s!"rollup {rollup} references unknown dimension {dimension}"
  | .notBaseMetricOf rollup metric =>
    s!"rollup {rollup} references {metric}, which is not a base metric"
  | .noFlagColumn metric =>
    s!"metric {metric} includes a conditional variant but names no flag column"
  | .noDimensions => "a rollup needs at least one dimension"
  | .noMetrics => "a rollup needs at least one metric"
  | .listedTwice entity id => s!"{entity.name} {id} is listed twice"
  | .unknown entity id => s!"unknown {entity.name} {id}"
  | .calculatedMetric id bases =>
    s!"{id} is a calculated metric; rollups store base metrics, add " ++ commaSeparated bases ++
      " instead"
  | .noOptimizedSource table => s!"table {table} has no optimized source"
  | .invalidTableName table => s!"invalid table name '{table}'"
  | .refusedStatement message => message

/-- How many arguments a function takes. -/
structure Arity where
  least : Nat
  most : Option Nat
  deriving DecidableEq, Repr

def Arity.admits (a : Arity) (n : Nat) : Bool := a.least ≤ n && a.most.all (n ≤ ·)

def Arity.text (a : Arity) : String :=
  match a.most with
  | none => s!"at least {a.least}"
  | some most => if a.least = most then toString most else s!"{a.least} to {most}"

inductive Error where
  | unknownReferences (names : List String)
  | circularDependency (cycle : List String)
  | reference (fault : Reference.Fault)
  | formula (fault : Formula.Fault)
  | guard (fault : Sql.Guard.Fault)
  | wrongArity (function : String) (arity : Arity) (given : Nat)
  | functionNotAllowed (name : String)
  | emptyExpression
  | aggregateInRow (function : String)
  | invalidId (id : String)
  | baseMetric (fault : BaseMetric.Fault)
  | schema (fault : SchemaFault)
  | routingInfeasible (dimensions : List String)
  | warehouse (message : String)
  | refreshInProgress (key : String)
  | configMissing
  | configUnreadable
  | fileMissing
  /-- A document given as a value is not what it should be. -/
  | document (fault : Json.Fault)
  /-- The text of a stored document cannot be read. -/
  | unreadable (fault : Json.Fault)
  /-- A count would go below zero, which stops the program. -/
  | overflow
  deriving DecidableEq, Repr

def invalidIdMessage (id : String) : String :=
  s!"invalid id '{id}': ids start with a letter or underscore and contain only letters, " ++
    "digits and underscores"

namespace BaseMetric.Fault

def isSyntax : BaseMetric.Fault → Bool
  | .invalidId _ => true
  | _ => false

def text : BaseMetric.Fault → String
  | .invalidId id => invalidIdMessage id
  | .noColumn id => s!"base metric {id} needs at least one non-empty source column"
  | .severalColumns id count =>
    s!"base metric {id} uses {count} columns; multi-column metrics require COUNT_DISTINCT"

def message (fault : BaseMetric.Fault) : String :=
  (if fault.isSyntax then "syntax error: " else "schema validation error: ") ++ fault.text

end BaseMetric.Fault

namespace Error

inductive Kind where
  | unknownReference
  | circularDependency
  | malformed
  | forbidden
  | schemaValidation
  | routingInfeasible
  | warehouseExecution
  | refreshInProgress
  | config
  | persistence
  /-- No failure that is answered: the program stops. -/
  | panic
  deriving DecidableEq, Repr

/-- The stable name of a kind. -/
def Kind.name : Kind → String
  | .unknownReference => "UnknownReferenceError"
  | .circularDependency => "CircularDependencyError"
  | .malformed => "SyntaxError"
  | .forbidden => "ForbiddenConstructError"
  | .schemaValidation => "SchemaValidationError"
  | .routingInfeasible => "RoutingInfeasibleError"
  | .warehouseExecution => "WarehouseExecutionError"
  | .refreshInProgress => "RefreshInProgressError"
  | .config => "ConfigError"
  | .persistence => "PersistenceError"
  | .panic => "Panic"

def guardKind : Sql.Guard.Fault → Kind
  | .unexpectedClose | .unclosed _ => .malformed
  | .separator _ | .keyword _ => .forbidden

def kind : Error → Kind
  | .unknownReferences _ => .unknownReference
  | .circularDependency _ => .circularDependency
  | .reference _ | .formula _ | .wrongArity _ _ _ | .emptyExpression | .invalidId _ => .malformed
  | .guard fault => guardKind fault
  | .functionNotAllowed _ | .aggregateInRow _ => .forbidden
  | .baseMetric fault => if fault.isSyntax then .malformed else .schemaValidation
  | .schema _ => .schemaValidation
  | .routingInfeasible _ => .routingInfeasible
  | .warehouse _ => .warehouseExecution
  | .refreshInProgress _ => .refreshInProgress
  | .configMissing | .configUnreadable => .config
  | .fileMissing | .document _ | .unreadable _ => .persistence
  | .overflow => .panic

/-- What stands before the text of an error of each kind. -/
def Kind.heading : Kind → String
  | .unknownReference => "unknown reference: "
  | .circularDependency => "circular dependency: "
  | .malformed => "syntax error: "
  | .forbidden => "forbidden construct: "
  | .schemaValidation => "schema validation error: "
  | .routingInfeasible => "routing infeasible: "
  | .warehouseExecution => "warehouse execution error: "
  | .refreshInProgress => "refresh already in progress for "
  | .config => "config error: "
  | .persistence | .panic => ""

def text : Error → String
  | .unknownReferences names => commaSeparated names
  | .circularDependency cycle => " -> ".intercalate cycle
  | .reference fault => fault.message
  | .formula fault => fault.message
  | .guard fault => fault.message
  | .wrongArity function arity given =>
    s!"{function} expects {arity.text} argument(s), got {given}"
  | .functionNotAllowed name => s!"function {name} is not allowed in formulas"
  | .emptyExpression => "expression is empty"
  | .aggregateInRow function =>
    s!"aggregate function {function} is not allowed in a row-level expression"
  | .invalidId id => invalidIdMessage id
  | .baseMetric fault => fault.text
  | .schema fault => fault.message
  | .routingInfeasible dimensions =>
    "distinct-count metrics need a rollup grouped by exactly [" ++ commaSeparated dimensions ++
      "]; create one with those dimensions"
  | .warehouse message => message
  | .refreshInProgress key => key
  | .configMissing => "failed to read config file: No such file or directory (os error 2)"
  | .configUnreadable => "failed to parse config"
  | .fileMissing => "io error: No such file or directory (os error 2)"
  | .document fault => "json error: " ++ fault.message
  | .unreadable fault => "unreadable document: " ++ fault.message
  | .overflow => "attempt to subtract with overflow"

def message (e : Error) : String := e.kind.heading ++ e.text

/-- Any failure while a warehouse works is one of the warehouse. -/
def asWarehouse : Error → Error
  | .warehouse message => .warehouse message
  | e => .warehouse e.message

/-- A single unknown id. -/
def unknown (id : String) : Error := .unknownReferences [id]

end Error

end MetricLayer
