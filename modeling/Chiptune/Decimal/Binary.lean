/-
  Binary numbers, read from their bits.

  The bits of a floating point number hold a sign, an exponent field and a
  fraction field.  A finite number is `mantissa * 2 ^ exponent`, exactly, and so
  everything that is said about its decimal text is arithmetic on naturals.
-/
set_option autoImplicit false

namespace Chiptune.Decimal

/-- A non-negative number `mantissa * 2 ^ exponent`. -/
structure Binary where
  mantissa : Nat
  exponent : Int
  /-- The next smaller number is only half as far away as the next larger one. -/
  narrow : Bool
  deriving DecidableEq, Repr, Inhabited

/-- What the bits of a floating point number say. -/
inductive Reading where
  | nan
  | infinite (negative : Bool)
  | finite (negative : Bool) (size : Binary)
  deriving DecidableEq, Repr, Inhabited

/-- The widths of the two fields behind the sign bit. -/
structure Width where
  fraction : Nat
  exponent : Nat
  deriving DecidableEq, Repr, Inhabited

/-- Single precision. -/
def Width.single : Width := ⟨23, 8⟩

/-- Double precision. -/
def Width.double : Width := ⟨52, 11⟩

/-- What an exponent field of one stands for, below the weight of the fraction's last bit. -/
def Width.lowest (w : Width) : Int :=
  2 - (Nat.pow 2 (w.exponent - 1) : Nat) - (w.fraction : Int)

/-- Splits the bits into their fields.  An exponent field of zero has no hidden
leading bit; the largest one is left to the infinities and to what is no number. -/
def Reading.ofBits (w : Width) (bits : Nat) : Reading :=
  let hidden := Nat.pow 2 w.fraction
  let top := Nat.pow 2 w.exponent - 1
  let fraction := bits % hidden
  let field := bits / hidden % (top + 1)
  let negative := bits / Nat.pow 2 (w.fraction + w.exponent) % 2 == 1
  if field = top then
    if fraction = 0 then .infinite negative else .nan
  else if field = 0 then
    .finite negative ⟨fraction, w.lowest, false⟩
  else
    .finite negative
      ⟨hidden + fraction, w.lowest + (field - 1 : Nat), fraction == 0 && field != 1⟩

/-- The reading of a double precision number. -/
def Reading.ofFloat (x : Float) : Reading :=
  .ofBits .double x.toBits.toNat

/-- The reading of a single precision number. -/
def Reading.ofFloat32 (x : Float32) : Reading :=
  .ofBits .single x.toBits.toNat

/-- One and a half is three halves. -/
example : Reading.ofBits .double 0x3FF8000000000000 =
    .finite false ⟨0x18000000000000, -52, false⟩ := by decide

/-- The smallest positive number has a mantissa of one. -/
example : Reading.ofBits .double 1 = .finite false ⟨1, -1074, false⟩ := by decide

end Chiptune.Decimal
