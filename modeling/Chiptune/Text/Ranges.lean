/-
  Sets of characters as ranges of code points.
-/
set_option autoImplicit false

namespace Chiptune.Text

/-- First and last code point of each run of a set, in increasing order. -/
abbrev CharRanges := List (Nat × Nat)

/-- Whether a character lies in one of the ranges. -/
def CharRanges.holds (ranges : CharRanges) (c : Char) : Bool :=
  ranges.any fun (first, last) => first ≤ c.toNat && c.toNat ≤ last

end Chiptune.Text
