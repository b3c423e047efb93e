import MetricLayer.Config
import MetricLayer.Text.Order
import MetricLayer.Text.Search

/-!
# The columns of tables, and which of them are kept

A warehouse is asked for the columns of a table once; the answer is kept until
it is dropped, grows too old, or makes room for that of another table. Of the
tables kept, the one written longest ago makes room first.
-/

namespace MetricLayer

/-- The columns of a table. -/
structure TableColumns where
  names : List String := []
  deriving DecidableEq, Repr

/-- Names of columns are compared up to the case of ASCII letters. -/
def TableColumns.has (c : TableColumns) (name : String) : Bool :=
  c.names.any fun column => Text.equalsIgnoringCase column name

def TableColumns.distinctNames (c : TableColumns) : List String := sortedSet c.names

structure ColumnCache where
  config : SchemaCacheConfig := {}
  /-- The tables kept, the one written longest ago first, each once. -/
  entries : List (String × TableColumns) := []
  deriving DecidableEq, Repr

namespace ColumnCache

/-- There is room for one table at least. -/
def capacity (c : ColumnCache) : Nat := max 1 c.config.maxSize.toNat

def size (c : ColumnCache) : Nat := c.entries.length

/-- Whether an entry is too old as soon as it is written. -/
def expiresAtOnce (c : ColumnCache) : Bool := c.config.ttlSecs == 0

def find? (c : ColumnCache) (table : String) : Option TableColumns :=
  (c.entries.find? (·.1 == table)).map (·.2)

def invalidate (c : ColumnCache) (table : String) : ColumnCache :=
  { c with entries := c.entries.filter (·.1 != table) }

/-- Keep the columns of a table. A table that is not kept yet may push out the
oldest one. -/
def insert (c : ColumnCache) (table : String) (columns : TableColumns) : ColumnCache :=
  let kept := (c.invalidate table).entries
  let kept := if c.capacity ≤ c.size && (c.find? table).isNone then kept.drop 1 else kept
  { c with entries := kept ++ [(table, columns)] }

def get? (c : ColumnCache) (table : String) : Option TableColumns :=
  if c.expiresAtOnce then none else c.find? table

def evictExpired (c : ColumnCache) : ColumnCache :=
  if c.expiresAtOnce then { c with entries := [] } else c

end ColumnCache

end MetricLayer
