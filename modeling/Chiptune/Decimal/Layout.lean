/-
  How numbers are written.

  A layout says from where to where a number is written without an exponent,
  whether a whole number keeps a decimal point, and what stands for the values
  that are no finite numbers.  `fixed` writes a given count of places instead.
-/
import Chiptune.Decimal.Shortest

set_option autoImplicit false

namespace Chiptune.Decimal

/-- One way of writing numbers. -/
structure Layout where
  tie : Tie
  /-- The powers of ten of a first digit that are written without an exponent;
  `none` when all of them are. -/
  plain : Option (Int × Int)
  /-- Whole numbers end in a point and a zero. -/
  point : Bool
  nan : List Char
  infinite : Bool → List Char

/-- The decimal digits of a natural. -/
def digitsOf (n : Nat) : List Char := Nat.toDigits 10 n

/-- The sign of a negative number. -/
def signOf (negative : Bool) : List Char := if negative then ['-'] else []

/-- The digits with the point where `power` puts it. -/
def writePlain (point : Bool) (d : Digits) : List Char :=
  let ds := digitsOf d.coefficient
  if 0 ≤ d.power then
    ds ++ List.replicate d.power.toNat '0' ++ (if point then ['.', '0'] else [])
  else
    let places := (-d.power).toNat
    if places < ds.length then
      ds.take (ds.length - places) ++ '.' :: ds.drop (ds.length - places)
    else
      '0' :: '.' :: List.replicate (places - ds.length) '0' ++ ds

/-- One digit before the point, the others behind it, and the exponent with its sign. -/
def writeExponent (d : Digits) : List Char :=
  let ds := digitsOf d.coefficient
  let first := d.power + (ds.length - 1 : Nat)
  let head :=
    match ds with
    | [] => []
    | c :: [] => [c]
    | c :: rest => c :: '.' :: rest
  head ++ 'e' :: (if first < 0 then '-' else '+') :: digitsOf first.natAbs

namespace Layout

/-- Writes the digits with or without an exponent, as the layout says. -/
def writeDigits (l : Layout) (d : Digits) : List Char :=
  match l.plain with
  | none => writePlain l.point d
  | some (low, high) =>
    let first := d.power + ((digitsOf d.coefficient).length - 1 : Nat)
    if low ≤ first ∧ first < high then writePlain l.point d else writeExponent d

/-- Writes a number. -/
def write (l : Layout) : Reading → List Char
  | .nan => l.nan
  | .infinite negative => l.infinite negative
  | .finite negative size =>
    signOf negative ++
      (if size.mantissa = 0 then writePlain l.point ⟨0, 0⟩
        else l.writeDigits (shortest l.tie size))

/-- Messages to the listener never use an exponent and drop the point of a whole
number. -/
def message : Layout where
  tie := .up
  plain := none
  point := false
  nan := ['N', 'a', 'N']
  infinite negative := signOf negative ++ ['i', 'n', 'f']

end Layout

/-- The nearest natural to `num / den`, the even one of two. -/
def roundHalfEven (num den : Nat) : Nat :=
  let k := num / den
  Tie.even.nearer (2 * num) den k

/-- A number with the given count of places, rounded exactly. -/
def fixed (places : Nat) : Reading → List Char
  | .nan => Layout.message.nan
  | .infinite negative => Layout.message.infinite negative
  | .finite negative size =>
    let scaled :=
      roundHalfEven (size.mantissa * Nat.pow 2 size.exponent.toNat * Nat.pow 10 places)
        (Nat.pow 2 (-size.exponent).toNat)
    let ds := digitsOf scaled
    let padded := List.replicate (places + 1 - ds.length) '0' ++ ds
    signOf negative ++ padded.take (padded.length - places) ++
      (if places = 0 then [] else '.' :: padded.drop (padded.length - places))

/-- A double precision number as messages show it. -/
def messageFloat (x : Float) : String :=
  String.ofList (Layout.message.write (.ofFloat x))

/-- A single precision number as messages show it. -/
def messageFloat32 (x : Float32) : String :=
  String.ofList (Layout.message.write (.ofFloat32 x))

/-- A half goes to the even neighbour. -/
example : fixed 2 (.ofBits .double 0x3FC0000000000000) = ['0', '.', '1', '2'] := by
  decide +kernel

end Chiptune.Decimal
