/-!
# Character classes given by code point ranges

The Unicode properties this library needs are tables of inclusive code point ranges; a character is
in a class exactly when one of the ranges holds its code point.
-/

namespace DarijaScript.Text

/-- The character's code point lies in one of the inclusive ranges. -/
def inRanges (ranges : List (Nat × Nat)) (c : Char) : Bool :=
  ranges.any fun range => range.1 ≤ c.toNat && c.toNat ≤ range.2

theorem inRanges_iff (ranges : List (Nat × Nat)) (c : Char) :
    inRanges ranges c = true ↔ ∃ range ∈ ranges, range.1 ≤ c.toNat ∧ c.toNat ≤ range.2 := by
  simp [inRanges]

end DarijaScript.Text
