/-!
# Ranking

`ranked score xs` holds the elements of `xs` in decreasing order of their
scores. Elements of equal score stay in the order in which they came.
-/

namespace MetricLayer

variable {α κ : Type} [LT κ] [DecidableLT κ]

/-- Put `x` before the first element that scores no more. -/
def insertRanked (score : α → κ) (x : α) : List α → List α
  | [] => [x]
  | y :: ys => if score x < score y then y :: insertRanked score x ys else x :: y :: ys

def ranked (score : α → κ) (xs : List α) : List α := xs.foldr (insertRanked score) []

theorem insertRanked_perm (score : α → κ) (x : α) (ys : List α) :
    (insertRanked score x ys).Perm (x :: ys) := by
  induction ys with
  | nil => exact .refl _
  | cons y ys ih =>
    rw [insertRanked]
    split
    · exact (ih.cons y).trans (.swap x y ys)
    · exact .refl _

theorem ranked_perm (score : α → κ) (xs : List α) : (ranked score xs).Perm xs := by
  induction xs with
  | nil => exact .refl _
  | cons x xs ih => exact (insertRanked_perm score x _).trans (ih.cons x)

end MetricLayer
