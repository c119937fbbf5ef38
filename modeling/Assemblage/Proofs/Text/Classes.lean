import Assemblage.Text.Blank
import Assemblage.Text.Digit
import Assemblage.Text.Ranges
import Mathlib.Tactic.Common

/-!
# Classes of characters as ranges

White space and decimal digits as sets of code points, so that two classes can be told apart by
comparing the ends of their ranges (`inRanges_of_disjoint`).
-/

namespace Assemblage.Text
set_option autoImplicit false

/-- Whether no code point is in a range of either list. -/
def RangesApart (rs qs : List (Nat × Nat)) : Prop := ∀ r ∈ rs, ∀ q ∈ qs, r.2 < q.1 ∨ q.2 < r.1

instance (rs qs : List (Nat × Nat)) : Decidable (RangesApart rs qs) :=
  inferInstanceAs (Decidable (∀ r ∈ rs, ∀ q ∈ qs, r.2 < q.1 ∨ q.2 < r.1))

theorem inRanges_of_disjoint {rs qs : List (Nat × Nat)} (h : RangesApart rs qs) {n : Nat}
    (hn : inRanges rs n = true) : inRanges qs n = false := by
  obtain ⟨r, hr, hlow, hhigh⟩ := inRanges_eq_true.mp hn
  rw [Bool.eq_false_iff, Ne, inRanges_eq_true]
  rintro ⟨q, hq, hlow', hhigh'⟩
  have hapart := h r hr q hq
  omega

/-- The code points of white space. -/
def blankRanges : List (Nat × Nat) :=
  [(0x9, 0xD), (0x1C, 0x20), (0x85, 0x85), (0xA0, 0xA0), (0x1680, 0x1680), (0x2000, 0x200A),
   (0x2028, 0x2028), (0x2029, 0x2029), (0x202F, 0x202F), (0x205F, 0x205F), (0x3000, 0x3000)]

theorem isBlank_eq (c : Char) : isBlank c = inRanges blankRanges c.toNat := by
  have hone (d : Char) : (c == d) = (d.toNat ≤ c.toNat && c.toNat ≤ d.toNat) := by
    rw [Bool.eq_iff_iff, beq_iff_eq, Bool.and_eq_true, decide_eq_true_eq, decide_eq_true_eq,
      ← Char.toNat_inj]
    omega
  have hrange (d e : Char) : (decide (d ≤ c) && decide (c ≤ e)) =
      (decide (d.toNat ≤ c.toNat) && decide (c.toNat ≤ e.toNat)) := rfl
  simp only [isBlank, hone, hrange, inRanges, blankRanges, List.any_cons, List.any_nil,
    Bool.or_false, Bool.or_assoc]
  rfl

/-- The code points of decimal digits. -/
def digitRanges : List (Nat × Nat) := digitZeros.map fun first => (first, first + 9)

theorem isDigit_eq (c : Char) : isDigit c = inRanges digitRanges c.toNat := by
  rw [isDigit, digitValue?, Option.isSome_map, List.isSome_find?, inRanges, digitRanges,
    List.any_map]
  congr 1
  funext first
  have hlast : c.toNat < first + 10 ↔ c.toNat ≤ first + 9 := by omega
  simp [hlast]

theorem isDigit_of_isBlank {c : Char} (h : isBlank c = true) : isDigit c = false := by
  rw [isBlank_eq] at h
  rw [isDigit_eq]
  exact inRanges_of_disjoint (by decide +kernel) h

end Assemblage.Text
