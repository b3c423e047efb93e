/-!
# Classes of characters as ranges of code points

A property of characters is kept as the ranges of code points that have it, in
increasing order. `inRanges` looks a character up.
-/

namespace MetricLayer.Text

/-- Whether `c` lies in one of the ranges, ends included. -/
def inRanges (ranges : List (Nat × Nat)) (c : Char) : Bool :=
  ranges.any fun (low, high) => low ≤ c.toNat && c.toNat ≤ high

theorem inRanges_eq_true_iff {ranges : List (Nat × Nat)} {c : Char} :
    inRanges ranges c = true ↔ ∃ r ∈ ranges, r.1 ≤ c.toNat ∧ c.toNat ≤ r.2 := by
  simp [inRanges]

end MetricLayer.Text
