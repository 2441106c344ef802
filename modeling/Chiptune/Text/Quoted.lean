/-
  Text in double quotes, as messages show it.

  A quote and a backslash get a backslash before them, the four control
  characters with a letter of their own are written with it, and every other
  hidden character is written by its code point in hexadecimal.
-/
import Chiptune.Text.Hidden

set_option autoImplicit false

namespace Chiptune.Text

/-- A number in hexadecimal, with the letters in lower case and no leading zero. -/
def hexDigits (n : Nat) : List Char :=
  Nat.toDigits 16 n

/-- How one character is written between the quotes. -/
def quoteChar (c : Char) : List Char :=
  if c = '\x00' then ['\\', '0']
  else if c = '\t' then ['\\', 't']
  else if c = '\r' then ['\\', 'r']
  else if c = '\n' then ['\\', 'n']
  else if c = '\\' then ['\\', '\\']
  else if c = '"' then ['\\', '"']
  else if isHidden c then ['\\', 'u', '\x7b'] ++ hexDigits c.toNat ++ ['\x7d']
  else [c]

/-- The text between double quotes. -/
def quoted (text : String) : String :=
  String.ofList (['"'] ++ text.toList.flatMap quoteChar ++ ['"'])

end Chiptune.Text
