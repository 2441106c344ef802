/-
  How numbers stand in JSON text.

  A whole number keeps a point and a zero, so that it reads as a number with
  places again; large and small numbers have an exponent with its sign; what is
  no finite number has no JSON text and is written as null.
-/
import Chiptune.Decimal.Layout

set_option autoImplicit false

namespace Chiptune.Json

open Chiptune.Decimal

/-- The word for no value. -/
def nullWord : List Char := ['n', 'u', 'l', 'l']

/-- Double precision numbers have an exponent from ten to the 16 up and below ten to the -5. -/
def doubleLayout : Layout where
  tie := .even
  plain := some (-5, 16)
  point := true
  nan := nullWord
  infinite _ := nullWord

/-- Single precision numbers have an exponent from ten to the 13 up and below ten to the -6. -/
def singleLayout : Layout where
  tie := .even
  plain := some (-6, 13)
  point := true
  nan := nullWord
  infinite _ := nullWord

/-- A double precision number in JSON text. -/
def writeFloat (x : Float) : List Char :=
  doubleLayout.write (.ofFloat x)

/-- A single precision number in JSON text. -/
def writeFloat32 (x : Float32) : List Char :=
  singleLayout.write (.ofFloat32 x)

end Chiptune.Json
