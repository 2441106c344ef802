/-
  Times in seconds.

  A time is a floating point number of 64 bits.  Its bits are kept, since clocks and
  lengths may be no numbers, and those are told apart when times are put in order: the
  order goes by the bits, from the numbers below zero to those above, and what is no
  number comes first or last by its sign.
-/
set_option autoImplicit false

namespace Chiptune

/-- A number of seconds, by its bits. -/
structure Seconds where
  bits : UInt64
  deriving DecidableEq, Repr

namespace Seconds

/-- A time as a number. -/
def toFloat (time : Seconds) : Float := Float.ofBits time.bits

/-- A number of seconds. -/
def ofFloat (number : Float) : Seconds := ⟨number.toBits⟩

instance : OfNat Seconds 0 := ⟨ofFloat 0⟩

instance : Inhabited Seconds := ⟨0⟩

/-- Zero from below, to which adding changes no number. -/
def negativeZero : Seconds := ofFloat (-0.0)

/-- Whether a time is no number. -/
def isNaN (time : Seconds) : Bool := time.toFloat.isNaN

/-- What stands for a result that numbers do not have; its sign is negative. -/
def undefined : Seconds := ⟨0xFFF8000000000000⟩

/-- The result of an operation on numbers. -/
def ofResult (number : Float) : Seconds :=
  if number.isNaN then undefined else ofFloat number

/-- A time that is no number as it goes through an operation: it stops to signal. -/
def quiet (time : Seconds) : Seconds := ⟨time.bits ||| 0x0008000000000000⟩

/-- The sum of two times.  Of times that are no numbers the first goes through. -/
def add (first second : Seconds) : Seconds :=
  if first.isNaN then first.quiet
  else if second.isNaN then second.quiet
  else ofResult (first.toFloat + second.toFloat)

instance : Add Seconds := ⟨add⟩

instance : LE Seconds := ⟨fun first second => first.toFloat ≤ second.toFloat⟩

instance : LT Seconds := ⟨fun first second => first.toFloat < second.toFloat⟩

instance (first second : Seconds) : Decidable (first ≤ second) :=
  inferInstanceAs (Decidable (first.toFloat ≤ second.toFloat))

instance (first second : Seconds) : Decidable (first < second) :=
  inferInstanceAs (Decidable (first.toFloat < second.toFloat))

/-- The rank of a time in the total order of floating point numbers: the bits, counted
from zero to both sides. -/
def rank (time : Seconds) : Int :=
  let bits := time.bits.toNat
  if bits < 0x8000000000000000 then bits else 0x7FFFFFFFFFFFFFFF - (bits : Int)

/-- Zero comes after negative zero. -/
example : rank negativeZero < rank 0 := by decide +kernel

/-- Negative times come before zero, the lesser ones first. -/
example : rank (ofFloat (-2)) < rank (ofFloat (-1)) ∧ rank (ofFloat (-1)) < rank 0 := by
  decide +kernel

/-- The sum of opposite infinities comes before every number. -/
example : rank (⟨0x7FF0000000000000⟩ + ⟨0xFFF0000000000000⟩) < rank ⟨0xFFF0000000000000⟩ := by
  decide +kernel

end Seconds

end Chiptune
