import MetricLayer.Json.Decode

/-!
# The state of a table that is built

Rollups and optimized sources are tables that a warehouse builds from another
table. A `BuildState` records how the last build ended and how large the table
was then. Only a table that is ready may be read in the place of the raw one.
-/

namespace MetricLayer

inductive BuildStatus where
  | pending
  | building
  | ready
  | stale
  | error
  deriving DecidableEq, Repr

namespace BuildStatus

def name : BuildStatus → String
  | .pending => "pending"
  | .building => "building"
  | .ready => "ready"
  | .stale => "stale"
  | .error => "error"

def all : List BuildStatus := [.pending, .building, .ready, .stale, .error]

def ofName? (s : String) : Option BuildStatus := all.find? (·.name == s)

theorem ofName?_name (b : BuildStatus) : ofName? b.name = some b := by cases b <;> decide

def toJson (b : BuildStatus) : Json := .text b.name

def ofJson : Json → Except Json.Fault BuildStatus := Json.asVariant ofName?

end BuildStatus

/-- The size of a table. Not every warehouse tells its bytes. -/
structure TableStats where
  rowCount : UInt64
  sizeBytes : Option UInt64 := none
  deriving DecidableEq, Repr

structure BuildState where
  status : BuildStatus := .pending
  rowCount : Option UInt64 := none
  sizeBytes : Option UInt64 := none
  lastRefreshAt : Option Timestamp := none
  lastRefreshError : Option String := none
  deriving DecidableEq, Repr

namespace BuildState

def isReady (b : BuildState) : Bool := b.status == .ready

def markBuilding (b : BuildState) : BuildState := { b with status := .building }

def markReady (b : BuildState) (stats : TableStats) (now : Timestamp) : BuildState :=
  { b with
    status := .ready
    rowCount := some stats.rowCount
    sizeBytes := stats.sizeBytes
    lastRefreshAt := some now
    lastRefreshError := none }

/-- The counts still tell of the table as it was. -/
def markFailed (b : BuildState) (message : String) : BuildState :=
  { b with status := .error, lastRefreshError := some message }

/-- What was never built cannot become stale. -/
def markStale (b : BuildState) : BuildState :=
  if b.status = .pending then b else { b with status := .stale }

def fields (b : BuildState) : List (String × Json) := [
  ("status", b.status.toJson),
  ("row_count", .ofOption (fun n => .ofNat n.toNat) b.rowCount),
  ("size_bytes", .ofOption (fun n => .ofNat n.toNat) b.sizeBytes),
  ("last_refresh_at", .ofOption Timestamp.toJson b.lastRefreshAt),
  ("last_refresh_error", .ofOption .text b.lastRefreshError)]

def toJson (b : BuildState) : Json := .ofFields b.fields

def readField (b : BuildState) (name : String) (v : Json) : Except Json.Fault BuildState :=
  match name with
  | "status" => do
    let status ← BuildStatus.ofJson v
    .ok { b with status }
  | "row_count" => do
    let rowCount ← v.asOption Json.asUInt64
    .ok { b with rowCount }
  | "size_bytes" => do
    let sizeBytes ← v.asOption Json.asUInt64
    .ok { b with sizeBytes }
  | "last_refresh_at" => do
    let lastRefreshAt ← v.asOption Json.asTimestamp
    .ok { b with lastRefreshAt }
  | "last_refresh_error" => do
    let lastRefreshError ← v.asOption Json.asText
    .ok { b with lastRefreshError }
  | _ => .ok b

def ofJson (v : Json) : Except Json.Fault BuildState := do
  Json.readFields {} readField (← v.asOptionalFields)

theorem markStale_isReady (b : BuildState) : b.markStale.isReady = false := by
  by_cases h : b.status = .pending <;> simp [markStale, isReady, h]

end BuildState

end MetricLayer
