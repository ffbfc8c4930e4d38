/-!
# `SchemaForge.Text.Ranges` — classes of characters as ranges of code points

A character class is a list of closed ranges of code points, written in ascending order and apart
from one another. The tables of this folder (`Blank`, `Printable`) are such lists.

## Contents
- **Membership.** `inRanges` decides whether a code point lies in one of the ranges.
-/

namespace SchemaForge.Text

/-- Closed ranges of code points. -/
abbrev Ranges := List (Nat × Nat)

/-- Whether the code point lies in one of the ranges. -/
def inRanges (ranges : Ranges) (code : Nat) : Bool :=
  ranges.any fun range => range.1 ≤ code && code ≤ range.2

end SchemaForge.Text
