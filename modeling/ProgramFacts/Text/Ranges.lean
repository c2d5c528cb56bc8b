/-!
# Classes of characters as ranges

A class of characters is a list of closed ranges of code points; membership is one Boolean check with
its `_iff`.
-/

namespace ProgramFacts.Text

/-- Whether a code point lies in one of the closed ranges. -/
def inRanges (rs : List (Nat × Nat)) (n : Nat) : Bool :=
  rs.any fun r => decide (r.1 ≤ n) && decide (n ≤ r.2)

theorem inRanges_iff {rs : List (Nat × Nat)} {n : Nat} :
    inRanges rs n = true ↔ ∃ r ∈ rs, r.1 ≤ n ∧ n ≤ r.2 := by
  simp [inRanges]

/-- The ranges of blank characters: controls that move the carriage, and every kind of space. -/
def blankRanges : List (Nat × Nat) := [
  (0x9, 0xD), (0x1C, 0x20), (0x85, 0x85), (0xA0, 0xA0), (0x1680, 0x1680), (0x2000, 0x200A),
  (0x2028, 0x2029), (0x202F, 0x202F), (0x205F, 0x205F), (0x3000, 0x3000)]

/-- Whether trimming takes the character away. -/
def isBlank (c : Char) : Bool := inRanges blankRanges c.toNat

end ProgramFacts.Text
