import MetricLayer.Registry.Basic
import MetricLayer.Text.Order

/-!
# Dependencies between metrics

An edge leads from a calculated metric to an id that its formula refers to. A
formula whose references cannot be read counts by what it was last compiled to.
On these edges stand the metrics that depend on an id (`transitiveDependents`),
the base metrics that one rests on (`transitiveBases`), the cycle that new
dependencies would close (`cycleThrough?`), and an order in which metrics follow
those they refer to (`topologicalOrder`).
-/

namespace MetricLayer

/-- What an edge leads to. -/
inductive TargetKind where
  | calculated
  | base
  | other
  deriving DecidableEq, Repr

structure Edge where
  source : String
  target : String
  kind : TargetKind
  deriving DecidableEq, Repr

structure DependencyGraph where
  edges : List Edge
  deriving Repr

namespace CalculatedMetric

/-- The ids that the formula refers to, or else those it last compiled to. -/
def referredIds (m : CalculatedMetric) : List String :=
  match extractReferences m.formula with
  | .ok references => uniqueNames references
  | .error _ => m.dependsOnBase ++ m.dependsOnCalculated

end CalculatedMetric

namespace DependencyGraph

def targetKind (r : Registry) (id : String) : TargetKind :=
  if (r.calculatedMetric? id).isSome then .calculated
  else if (r.baseMetric? id).isSome then .base
  else .other

def ofRegistry (r : Registry) : DependencyGraph :=
  ⟨r.calculatedMetrics.flatMap fun m => m.referredIds.map fun id => ⟨m.id, id, targetKind r id⟩⟩

variable (g : DependencyGraph)

def targets (kind : TargetKind) (id : String) : List String :=
  sortedSet ((g.edges.filter fun e => e.source == id && e.kind == kind).map (·.target))

/-- The calculated metrics that the metric `id` refers to. -/
def dependencies (id : String) : List String := g.targets .calculated id

/-- The calculated metrics that refer to `id`. -/
def dependents (id : String) : List String :=
  sortedSet ((g.edges.filter fun e => e.target == id).map (·.source))

/-- `ids` with all that `steps` repetitions of `next` lead to. -/
def grow (next : String → List String) : Nat → List String → List String
  | 0, ids => ids
  | steps + 1, ids =>
    let more := sortedSet (ids ++ ids.flatMap next)
    if more.length = ids.length then ids else grow next steps more

/-- All that `next` leads to from `ids` over the edges of the graph. -/
def closure (next : String → List String) (ids : List String) : List String :=
  grow next (2 * g.edges.length) (sortedSet ids)

/-- The calculated metrics that refer to `id`, directly or through others. -/
def transitiveDependents (id : String) : List String :=
  (g.closure g.dependents [id]).filter (· != id)

/-- `id` and the calculated metrics that it rests on. -/
def reachable (id : String) : List String := g.closure g.dependencies [id]

/-- The base metrics that `id` rests on, directly or through calculated ones. -/
def transitiveBases (id : String) : List String :=
  sortedSet ((g.reachable id).flatMap (g.targets .base))

/-- A path along dependencies from `current` to `target`, of at most `depth`
edges, that avoids the metrics already visited, and the metrics visited in
looking for it. -/
def search (target : String) :
    (depth : Nat) → (visited : List String) → (current : String) →
      Option (List String) × List String
  | 0, visited, _ => (none, visited)
  | depth + 1, visited, current =>
    if current == target then (some [current], visited)
    else if visited.contains current then (none, visited)
    else
      let (found, visited) := (g.dependencies current).foldl
        (fun (found, visited) next =>
          match found with
          | some path => (some path, visited)
          | none => search target depth visited next)
        (none, current :: visited)
      (found.map (current :: ·), visited)

/-- The first path from `source` to `target` in the order of ids. -/
def path? (source target : String) : Option (List String) :=
  (g.search target (2 * g.edges.length + 2) [] source).1

/-- The cycle that `id` would close by depending on `dependencies`. -/
def cycleThrough? (id : String) (dependencies : List String) : Option (List String) :=
  dependencies.findSome? fun dependency =>
    if dependency == id then some [id, id]
    else (g.path? dependency id).map (id :: ·)

/-- How many dependencies inside `subset` a metric still waits for. -/
abbrev Degrees := List (String × Nat)

def degreesIn (subset : List String) : Degrees :=
  subset.map fun id => (id, ((g.dependencies id).filter subset.contains).length)

/-- The metric `id` waits for so many. -/
def setDegree (degrees : Degrees) (id : String) (degree : Nat) : Degrees :=
  degrees.map fun (other, old) => (other, if other == id then degree else old)

/-- A metric that `dependent` refers to has been placed in the order. If `dependent` is to
be placed too, it waits for one metric less, and becomes ready if it waits for none. A
count at zero cannot be decreased. -/
def tell? (state : Degrees × List String) (dependent : String) :
    Option (Degrees × List String) :=
  match state.1.lookup dependent with
  | none => some state
  | some 0 => none
  | some (degree + 1) =>
    some (setDegree state.1 dependent degree,
      if degree = 0 then insertSorted dependent state.2 else state.2)

/-- A metric has been placed in the order, and each of its dependents is told so. -/
def release? (degrees : Degrees) (ready : List String) (placed : String) :
    Option (Degrees × List String) :=
  (g.dependents placed).foldlM tell? (degrees, ready)

/-- The metrics in the order in which they become ready, the least id first,
with those left waiting. -/
def orderFrom? : Nat → Degrees → List String → Option (List String × Degrees)
  | 0, degrees, _ => some ([], degrees)
  | _ + 1, degrees, [] => some ([], degrees)
  | steps + 1, degrees, id :: ready => do
    let (degrees, ready) ← g.release? degrees ready id
    let (order, degrees) ← orderFrom? steps degrees ready
    return (id :: order, degrees)

/-- The run over the whole of `subset`, which comes to nothing where a count at zero
would have to be decreased. -/
def orderAll? (subset : List String) : Option (List String × Degrees) :=
  let degrees := g.degreesIn subset
  g.orderFrom? subset.length degrees ((degrees.filter (·.2 == 0)).map (·.1))

/-- The ids of the sorted set `subset`, each after the calculated metrics of the
set that it depends on. -/
def topologicalOrder (subset : List String) : Except Error (List String) :=
  match g.orderAll? subset with
  | none => .error .overflow
  | some (order, degrees) =>
    if order.length = subset.length then .ok order
    else .error (.circularDependency ((degrees.filter (·.2 != 0)).map (·.1)))

end DependencyGraph

end MetricLayer
