/-
  Strings in JSON text.

  `readText` reads a string behind its opening quote.  An escape of four
  hexadecimal digits names a UTF-16 unit, and a character beyond the first plane
  takes two of them.  `skipText` passes a string whose contents are not needed,
  and so does not ask whether its units form characters.
-/
import Chiptune.Json.Fault

set_option autoImplicit false

namespace Chiptune.Json

/-- The value of a hexadecimal digit. -/
def hexValue? (c : Char) : Option Nat :=
  if '0' ≤ c ∧ c ≤ '9' then some (c.toNat - '0'.toNat)
  else if 'a' ≤ c ∧ c ≤ 'f' then some (c.toNat - 'a'.toNat + 10)
  else if 'A' ≤ c ∧ c ≤ 'F' then some (c.toNat - 'A'.toNat + 10)
  else none

/-- The character a one-letter escape stands for. -/
def simpleEscape? (c : Char) : Option Char :=
  if c = '"' then some '"'
  else if c = '\\' then some '\\'
  else if c = '/' then some '/'
  else if c = 'b' then some '\x08'
  else if c = 'f' then some '\x0c'
  else if c = 'n' then some '\n'
  else if c = 'r' then some '\r'
  else if c = 't' then some '\t'
  else none

/-- The unit that the next four characters spell.  The complaint about anything else is
placed four bytes on, or at the end of the text if it is nearer. -/
def readUnit (c : Cursor) : Except Fault Nat :=
  let refuse : Except Fault Nat :=
    if 4 ≤ byteCount c.rest then .error (.located .invalidEscape (c.offset + 4))
    else .error (.located .endInString (c.offset + byteCount c.rest))
  match c.rest with
  | a :: b :: d :: e :: _ =>
    match hexValue? a, hexValue? b, hexValue? d, hexValue? e with
    | some a, some b, some d, some e => .ok (((a * 16 + b) * 16 + d) * 16 + e)
    | _, _, _, _ => refuse
  | _ => refuse

/-- Whether a unit is the first half of a character. -/
def isLeading (unit : Nat) : Bool := 0xD800 ≤ unit && unit ≤ 0xDBFF

/-- Whether a unit is the second half of a character. -/
def isTrailing (unit : Nat) : Bool := 0xDC00 ≤ unit && unit ≤ 0xDFFF

/-- The character of two halves. -/
def joinUnits (leading trailing : Nat) : Char :=
  Char.ofNat ((leading - 0xD800) * 0x400 + (trailing - 0xDC00) + 0x10000)

/-- The second half of a character, which has to follow as an escape of its own. -/
def readTrailing (leading : Nat) (c : Cursor) : Except Fault Char :=
  match c.rest with
  | [] => c.fail .endInString
  | b :: rest =>
    if b ≠ '\\' then .error (.located .endOfEscape (c.offset + 1))
    else
      match rest with
      | [] => .error (.located .endInString (c.offset + 1))
      | u :: _ =>
        if u ≠ 'u' then .error (.located .endOfEscape (c.offset + 2))
        else do
          let after := c.advance 2
          let trailing ← readUnit after
          if isTrailing trailing then .ok (joinUnits leading trailing)
          else .error (.located .loneSurrogate (after.offset + 4))

/-- The character an escape stands for and how many characters spell it, behind
the backslash. -/
def readEscape (c : Cursor) : Except Fault (Char × Nat) :=
  match c.rest with
  | [] => c.fail .endInString
  | e :: _ =>
    if e = 'u' then do
      let after := c.advance 1
      let unit ← readUnit after
      if isTrailing unit then .error (.located .loneSurrogate (after.offset + 4))
      else if isLeading unit then do
        let whole ← readTrailing unit (after.advance 4)
        .ok (whole, 11)
      else .ok (Char.ofNat unit, 5)
    else
      match simpleEscape? e with
      | some value => .ok (value, 1)
      | none => .error (.located .invalidEscape (c.offset + 1))

/-- Reads a string to its closing quote. -/
def readText (rest : List Char) (offset : Nat) : Except Fault (List Char × Cursor) :=
  match rest with
  | [] => .error (.located .endInString offset)
  | c :: rest =>
    if c = '"' then .ok ([], ⟨rest, offset + 1⟩)
    else if c = '\\' then do
      let (value, used) ← readEscape ⟨rest, offset + 1⟩
      let (values, after) ← readText (rest.drop used) (offset + 1 + used)
      .ok (value :: values, after)
    else if c.toNat < 0x20 then .error (.located .controlCharacter (offset + 1))
    else do
      let (values, after) ← readText rest (offset + c.utf8Size)
      .ok (c :: values, after)
termination_by rest.length
decreasing_by
  · simp only [List.length_drop, List.length_cons]; omega
  · simp only [List.length_cons]; omega

/-- How many characters spell an escape whose value is not needed. -/
def skipEscape (c : Cursor) : Except Fault Nat :=
  match c.rest with
  | [] => c.fail .endInString
  | e :: _ =>
    if e = 'u' then do
      let _ ← readUnit (c.advance 1)
      .ok 5
    else if (simpleEscape? e).isSome then .ok 1
    else .error (.located .invalidEscape (c.offset + 1))

/-- Passes a string to behind its closing quote. -/
def skipText (rest : List Char) (offset : Nat) : Except Fault Cursor :=
  match rest with
  | [] => .error (.located .endInString offset)
  | c :: rest =>
    if c = '"' then .ok ⟨rest, offset + 1⟩
    else if c = '\\' then do
      let used ← skipEscape ⟨rest, offset + 1⟩
      skipText (rest.drop used) (offset + 1 + used)
    else if c.toNat < 0x20 then .error (.located .controlCharacter offset)
    else skipText rest (offset + c.utf8Size)
termination_by rest.length
decreasing_by
  · simp only [List.length_drop, List.length_cons]; omega
  · simp only [List.length_cons]; omega

/-- Reads a string behind its opening quote. -/
def readString (c : Cursor) : Except Fault (String × Cursor) := do
  let (values, after) ← readText c.rest c.offset
  .ok (String.ofList values, after)

end Chiptune.Json
