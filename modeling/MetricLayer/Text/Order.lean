/-!
# Sorted lists without repetition

`sortedSet xs` holds the elements of `xs` once each, in increasing order. Names
are compared by the code points of their characters, and lists of names
element by element.
-/

namespace MetricLayer

variable {α : Type} [LT α] [DecidableLT α]

/-- Put `x` in its place, unless it is there. -/
def insertSorted (x : α) : List α → List α
  | [] => [x]
  | y :: ys =>
    if x < y then x :: y :: ys
    else if y < x then y :: insertSorted x ys
    else y :: ys

def sortedSet (xs : List α) : List α := xs.foldr insertSorted []

/-- The elements of the sorted list `xs` that are not in `ys`. -/
def without [BEq α] (xs ys : List α) : List α := xs.filter fun x => !ys.contains x

end MetricLayer
