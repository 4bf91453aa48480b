import DosConsole.Text.Symbol

/-!
# Ranges of code points

A class of characters that follows no short rule is written as a list of closed ranges of code
points, in ascending order.
-/

namespace DosConsole.Text

/-- A class of characters, as closed ranges `(first, last)` of code points. -/
abbrev CodeRanges := List (Nat × Nat)

/-- The code of `c` lies in one of the ranges. -/
def CodeRanges.contains (ranges : CodeRanges) (c : Symbol) : Bool :=
  ranges.any fun r => decide (r.1 ≤ c.code) && decide (c.code ≤ r.2)

end DosConsole.Text
