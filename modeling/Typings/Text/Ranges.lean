/-!
Classes of characters beyond ASCII are lists of closed ranges of code points.
-/

namespace Typings.Text

/-- Whether one of the closed ranges holds `code`. -/
def inRanges (ranges : List (Nat × Nat)) (code : Nat) : Bool :=
  ranges.any fun range => decide (range.1 ≤ code) && decide (code ≤ range.2)

theorem inRanges_iff {ranges : List (Nat × Nat)} {code : Nat}
    : inRanges ranges code = true ↔ ∃ range ∈ ranges, range.1 ≤ code ∧ code ≤ range.2 := by
  simp [inRanges]

end Typings.Text
