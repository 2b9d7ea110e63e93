/-!
# Text/CodeRange — character classes given as ranges of code points

A class of characters is listed as inclusive ranges of code points. `CodeRanges.holds` decides
membership, and `holds_iff` reads it as a statement about the listed ranges.
-/

namespace Stencil.Text

/-- Inclusive ranges of code points, in increasing order. -/
abbrev CodeRanges := List (Nat × Nat)

/-- Whether a character lies in one of the ranges. -/
def CodeRanges.holds (ranges : CodeRanges) (c : Char) : Bool :=
  ranges.any fun r => r.1 ≤ c.toNat && c.toNat ≤ r.2

theorem CodeRanges.holds_iff (ranges : CodeRanges) (c : Char) :
    ranges.holds c = true ↔ ∃ r ∈ ranges, r.1 ≤ c.toNat ∧ c.toNat ≤ r.2 := by
  simp [CodeRanges.holds]

end Stencil.Text
