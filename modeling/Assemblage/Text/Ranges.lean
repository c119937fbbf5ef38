/-!
Sets of code points given by closed ranges, for the character classes of the Unicode standard.
-/

namespace Assemblage.Text
set_option autoImplicit false

/-- Whether one of the closed ranges holds the code point. -/
def inRanges (ranges : List (Nat × Nat)) (code : Nat) : Bool :=
  ranges.any fun range => range.1 ≤ code && code ≤ range.2

theorem inRanges_eq_true {ranges : List (Nat × Nat)} {code : Nat} :
    inRanges ranges code = true ↔ ∃ range ∈ ranges, range.1 ≤ code ∧ code ≤ range.2 := by
  simp [inRanges]

end Assemblage.Text
