/-
  Writing JSON text, without blanks.
-/
import Chiptune.Json.Layout
import Chiptune.Text.Quoted

set_option autoImplicit false

namespace Chiptune.Json

/-- How one character is written in a string: a quote, a backslash and the control
characters are escaped, everything else stands for itself. -/
def escapeChar (c : Char) : List Char :=
  if c = '"' then ['\\', '"']
  else if c = '\\' then ['\\', '\\']
  else if c = '\x08' then ['\\', 'b']
  else if c = '\x0c' then ['\\', 'f']
  else if c = '\n' then ['\\', 'n']
  else if c = '\r' then ['\\', 'r']
  else if c = '\t' then ['\\', 't']
  else if c.toNat < 0x10 then ['\\', 'u', '0', '0', '0'] ++ Text.hexDigits c.toNat
  else if c.toNat < 0x20 then ['\\', 'u', '0', '0'] ++ Text.hexDigits c.toNat
  else [c]

/-- A string with its quotes. -/
def writeString (text : String) : List Char :=
  '"' :: text.toList.flatMap escapeChar ++ ['"']

/-- A truth value. -/
def writeBool (value : Bool) : List Char :=
  if value then ['t', 'r', 'u', 'e'] else ['f', 'a', 'l', 's', 'e']

/-- A list of written items. -/
def writeList (items : List (List Char)) : List Char :=
  '[' :: [','].intercalate items ++ [']']

/-- An object of keys and written values. -/
def writeObject (fields : List (String × List Char)) : List Char :=
  '\x7b' :: [','].intercalate (fields.map fun (key, value) => writeString key ++ ':' :: value) ++
    ['\x7d']

end Chiptune.Json
