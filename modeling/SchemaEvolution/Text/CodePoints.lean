/-!
# Sets of characters given by ranges

A property of characters that a standard lists as data is kept as ascending ranges of code
points. `inRanges` looks a character up; the tables of the properties stand in the modules that
use them.
-/

namespace SchemaEvolution.Text

/-- Whether a code point lies in one of the ranges, ends included. -/
def inRanges (ranges : List (Nat × Nat)) (code : Nat) : Bool :=
  ranges.any fun r => r.1 ≤ code && code ≤ r.2

theorem inRanges_iff {ranges : List (Nat × Nat)} {code : Nat} :
    inRanges ranges code = true ↔ ∃ r ∈ ranges, r.1 ≤ code ∧ code ≤ r.2 := by
  simp [inRanges]

end SchemaEvolution.Text
