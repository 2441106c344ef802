/-
  The shortest decimal number that reads back.

  A decimal reads back as a binary number when it lies between the midpoints to
  that number's neighbours; the midpoints themselves count for an even mantissa.
  The grids of the multiples of ten, one, a tenth and so on are tried from the
  coarsest one that does not lose the number's first digit, and of each grid the
  two points on either side of the number.  If any point of a grid lies between
  the midpoints, then so does one of these two.
-/
import Chiptune.Decimal.Binary

set_option autoImplicit false

namespace Chiptune.Decimal

/-- The number `coefficient * 10 ^ power`. -/
structure Digits where
  coefficient : Nat
  power : Int
  deriving DecidableEq, Repr, Inhabited

/-- Which of two equally near decimals is taken. -/
inductive Tie where
  | up
  | even
  deriving DecidableEq, Repr, Inhabited

/-- The choice between `k` and `k + 1` for a number that is `doubled / 2` above zero,
`doubled` counted in halves of a grid step that is `step` units wide. -/
def Tie.nearer (tie : Tie) (doubled step k : Nat) : Nat :=
  let middle := (2 * k + 1) * step
  if doubled < middle then k
  else if middle < doubled then k + 1
  else
    match tie with
    | .up => k + 1
    | .even => if k % 2 = 0 then k else k + 1

namespace Binary

/-- The number and its midpoints in quarters of the mantissa's unit. -/
def quarters (b : Binary) : Nat := 4 * b.mantissa

/-- The midpoint to the next smaller number, in quarters. -/
def lowerQuarters (b : Binary) : Nat := b.quarters - (if b.narrow then 1 else 2)

/-- The midpoint to the next larger number, in quarters. -/
def upperQuarters (b : Binary) : Nat := b.quarters + 2

/-- What a quarter and a step of the grid of `10 ^ power` measure in a common unit. -/
def scales (b : Binary) (power : Int) : Nat × Nat :=
  let q := b.exponent - 2
  (Nat.pow 2 q.toNat * Nat.pow 10 (-power).toNat,
    Nat.pow 2 (-q).toNat * Nat.pow 10 power.toNat)

/-- The best point of the grid of `10 ^ power`, if one reads back. -/
def onGrid? (b : Binary) (tie : Tie) (power : Int) : Option Nat :=
  let (quarter, step) := b.scales power
  let below := b.quarters * quarter / step
  let readsBack (k : Nat) : Bool :=
    if b.mantissa % 2 = 0 then
      b.lowerQuarters * quarter ≤ k * step && k * step ≤ b.upperQuarters * quarter
    else
      b.lowerQuarters * quarter < k * step && k * step < b.upperQuarters * quarter
  if below = 0 then none
  else
    match readsBack below, readsBack (below + 1) with
    | true, true => some (tie.nearer (2 * (b.quarters * quarter)) step below)
    | true, false => some below
    | false, true => some (below + 1)
    | false, false => none

/-- A power of ten that is not below the number's first digit. -/
def topPower (b : Binary) : Int :=
  ((b.mantissa.log2 + 1 : Nat) + b.exponent) * 30103 / 100000 + 1

/-- How many grids there are from the top one to one that holds the number itself. -/
def gridCount (b : Binary) : Nat :=
  (b.topPower - min b.exponent 0).toNat + 1

/-- The first grid, from `10 ^ power` down, with a point that reads back. -/
def searchGrids (b : Binary) (tie : Tie) : Nat → Int → Digits
  | 0, power => ⟨b.mantissa, power⟩
  | count + 1, power =>
    match b.onGrid? tie power with
    | some k => ⟨k, power⟩
    | none => b.searchGrids tie count (power - 1)

end Binary

/-- The same number without zeros at the end of the coefficient. -/
def Digits.strip : Nat → Digits → Digits
  | 0, d => d
  | fuel + 1, d =>
    if d.coefficient ≠ 0 ∧ d.coefficient % 10 = 0 then
      strip fuel ⟨d.coefficient / 10, d.power + 1⟩
    else d

/-- The decimal with the fewest digits that reads back as the number, and of
those the nearest. -/
def shortest (tie : Tie) (b : Binary) : Digits :=
  let d := b.searchGrids tie b.gridCount b.topPower
  d.strip (d.coefficient.log2 + 1)

/-- A tenth is written with one digit. -/
example : shortest .even ⟨3602879701896397, -55, false⟩ = ⟨1, -1⟩ := by decide +kernel

/-- The smallest positive number is nearer to 5 than to any other single digit. -/
example : shortest .even ⟨1, -1074, false⟩ = ⟨5, -324⟩ := by decide +kernel

/-- Exactly between two candidates the rule for ties decides. -/
example : shortest .even ⟨4503599627370497, -2, false⟩ = ⟨11258999068426242, -1⟩ ∧
    shortest .up ⟨4503599627370497, -2, false⟩ = ⟨11258999068426243, -1⟩ := by
  decide +kernel

end Chiptune.Decimal
