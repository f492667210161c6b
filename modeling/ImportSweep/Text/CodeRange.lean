/-!
# Character classes given by ranges of code points

A class of characters that a standard lists is kept as a list of closed ranges of code points.
`inRanges` decides membership.
-/

namespace ImportSweep.Text

/-- A closed range of code points, first and last. -/
abbrev CodeRange := Nat × Nat

/-- The character lies in one of the ranges. -/
def inRanges (ranges : List CodeRange) (c : Char) : Bool :=
  ranges.any fun r => r.1 ≤ c.toNat && c.toNat ≤ r.2

end ImportSweep.Text
