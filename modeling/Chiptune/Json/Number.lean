/-
  Numbers in JSON text.

  The digits of a number are gathered into a whole significand of at most 64
  bits; digits that no longer fit are dropped, those before the point with a
  power of ten each.  A number with a point, an exponent or too many digits is
  the significand times or divided by one power of ten, each operation rounded.
-/
import Chiptune.Json.Fault

set_option autoImplicit false

namespace Chiptune.Json

/-- A number as it was written: a whole one, with its sign, or a rounded one. -/
inductive Number where
  | natural (value : Nat)
  | negative (value : Nat)
  | real (value : Float)
  deriving DecidableEq

/-- The largest significand. -/
def maxSignificand : Nat := 18446744073709551615

/-- The largest exponent that is still counted. -/
def maxExponent : Nat := 2147483647

/-- The value of a decimal digit. -/
def digitValue (c : Char) : Nat := c.toNat - '0'.toNat

/-- Appends digits to a whole number as long as it stays within `limit`; the
second part is what is left of the digits. -/
def gather (limit : Nat) : Nat → List Char → Nat × List Char
  | value, [] => (value, [])
  | value, c :: rest =>
    let next := value * 10 + digitValue c
    if next ≤ limit then gather limit next rest else (value, c :: rest)

/-- The digits that come next. -/
def Cursor.digits (c : Cursor) : List Char := c.rest.takeWhile Char.isDigit

/-- A power of ten, rounded. -/
def tenTo (exponent : Nat) : Float := Float.ofScientific 1 false exponent

/-- `value * 10 ^ exponent`, in steps of at most 308 powers; `none` when it is too large. -/
def scaleByTen (value : Float) (exponent : Int) : Option Float :=
  if 0 ≤ exponent then
    if exponent ≤ 308 then
      let scaled := value * tenTo exponent.toNat
      if scaled.isInf then none else some scaled
    else if value == 0 then some value
    else none
  else
    some (shrink value (exponent.natAbs / 308 + 1) exponent.natAbs)
where
  /-- Divides by the power of ten, at most 308 powers at a time. -/
  shrink : Float → Nat → Nat → Float
    | value, 0, _ => value
    | value, fuel + 1, powers =>
      if powers ≤ 308 then value / tenTo powers
      else if value == 0 then value
      else shrink (value / tenTo 308) fuel (powers - 308)

/-- The rounded number, or the complaint that it is out of range. -/
def realNumber (negative : Bool) (significand : Nat) (exponent : Int) (c : Cursor) :
    Except Fault (Number × Cursor) :=
  match scaleByTen (Float.ofNat significand) exponent with
  | some value => .ok (.real (if negative then -value else value), c)
  | none => c.fail .numberOutOfRange

/-- Reads what follows the letter of an exponent. -/
def readExponent (negative : Bool) (significand : Nat) (exponent : Int) (c : Cursor) :
    Except Fault (Number × Cursor) :=
  let below := c.rest.head? == some '-'
  let c := if below || c.rest.head? == some '+' then c.advance 1 else c
  match c.rest with
  | [] => c.fail .endInValue
  | first :: _ =>
    if first.isDigit then
      let ds := c.digits
      let (power, left) := gather maxExponent 0 ds
      if left.isEmpty then
        let shift : Int := if below then -(power : Int) else power
        realNumber negative significand (exponent + shift) (c.advance ds.length)
      else if significand ≠ 0 ∧ ¬ below then
        (c.advance (ds.length - left.length + 1)).fail .numberOutOfRange
      else .ok (.real (if negative then -0.0 else 0.0), c.advance ds.length)
    else .error (.located .invalidNumber (c.offset + 1))

/-- Reads an exponent, if there is one. -/
def readScale (negative : Bool) (significand : Nat) (exponent : Int) (c : Cursor) :
    Except Fault (Number × Cursor) :=
  match c.rest with
  | 'e' :: _ => readExponent negative significand exponent (c.advance 1)
  | 'E' :: _ => readExponent negative significand exponent (c.advance 1)
  | _ => realNumber negative significand exponent c

/-- Reads the places behind the point. -/
def readPlaces (negative : Bool) (significand : Nat) (exponent : Int) (c : Cursor) :
    Except Fault (Number × Cursor) :=
  let ds := c.digits
  if ds.isEmpty then
    c.failPeek (if c.rest.isEmpty then .endInValue else .invalidNumber)
  else
    let (significand, left) := gather maxSignificand significand ds
    readScale negative significand (exponent - (ds.length - left.length : Nat))
      (c.advance ds.length)

/-- A whole number; what does not fit in 64 bits with its sign, and a negative
zero, are rounded numbers. -/
def wholeNumber (negative : Bool) (significand : Nat) : Number :=
  if !negative then .natural significand
  else if significand = 0 ∨ 9223372036854775808 < significand then
    .real (-Float.ofNat significand)
  else .negative significand

/-- Reads a number behind its sign. -/
def readNumber (negative : Bool) (c : Cursor) : Except Fault (Number × Cursor) :=
  match c.rest with
  | [] => c.fail .endInValue
  | first :: second =>
    if first = '0' ∧ (second.head?.any Char.isDigit) then
      (c.advance 1).failPeek .invalidNumber
    else if first.isDigit then
      let ds := c.digits
      let (significand, left) := gather maxSignificand 0 ds
      let after := c.advance ds.length
      match after.rest with
      | '.' :: _ => readPlaces negative significand left.length (after.advance 1)
      | 'e' :: _ => readExponent negative significand left.length (after.advance 1)
      | 'E' :: _ => readExponent negative significand left.length (after.advance 1)
      | _ =>
        if left.isEmpty then .ok (wholeNumber negative significand, after)
        else realNumber negative significand left.length after
    else .error (.located .invalidNumber (c.offset + 1))

/-- A double precision number in single precision, the nearest one and of two the even
one; what is too large becomes infinite. -/
def narrow (x : Float) : Float32 :=
  .ofModel <| .pack <|
    match x.toModel.unpack with
    | .finite sign mantissa exponent _ =>
      Float.Model.UnpackedFloat.round .binary32 sign mantissa exponent
    | other => other

/-- A third of a step above one there is no number in single precision. -/
example : narrow 1.00000004 = 1 := by decide +kernel

namespace Number

/-- The number in double precision. -/
def toFloat : Number → Float
  | natural value => Float.ofNat value
  | negative value => -Float.ofNat value
  | real value => value

/-- The number in single precision; a whole one is rounded only once. -/
def toFloat32 : Number → Float32
  | natural value => Float32.ofNat value
  | negative value => -Float32.ofNat value
  | real value => narrow value

/-- What a complaint finds where a number stands. -/
def found : Number → Found
  | natural value => .integer value
  | negative value => .integer (-(value : Int))
  | real value => .number value

end Number

/-! ## Numbers that are not needed -/

/-- Passes the digits of an exponent behind its letter. -/
def skipExponent (c : Cursor) : Except Fault Cursor :=
  let c := if c.rest.head? == some '-' || c.rest.head? == some '+' then c.advance 1 else c
  match c.rest with
  | [] => c.fail .invalidNumber
  | first :: _ =>
    if first.isDigit then .ok (c.advance c.digits.length)
    else .error (.located .invalidNumber (c.offset + 1))

/-- Passes an exponent, if there is one. -/
def skipScale (c : Cursor) : Except Fault Cursor :=
  match c.rest with
  | 'e' :: _ => skipExponent (c.advance 1)
  | 'E' :: _ => skipExponent (c.advance 1)
  | _ => .ok c

/-- Passes a number behind its sign, however large it is. -/
def skipNumber (c : Cursor) : Except Fault Cursor :=
  match c.rest with
  | [] => c.fail .invalidNumber
  | first :: second =>
    if first = '0' ∧ (second.head?.any Char.isDigit) then
      (c.advance 1).failPeek .invalidNumber
    else if first.isDigit then
      let after := c.advance c.digits.length
      match after.rest with
      | '.' :: _ =>
        let c := after.advance 1
        if c.digits.isEmpty then c.failPeek .invalidNumber
        else skipScale (c.advance c.digits.length)
      | _ => skipScale after
    else .error (.located .invalidNumber (c.offset + 1))

end Chiptune.Json
