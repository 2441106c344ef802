/-
  Why a text is refused.

  A cause says what is wrong; a fault adds where.  A complaint about a value
  (a field left out, a name that is not known) is placed only when the structure
  that holds the value has been left, so until then it floats at the place where
  the reader stood.
-/
import Chiptune.Json.Cursor
import Chiptune.Json.Layout
import Chiptune.Text.Quoted

set_option autoImplicit false

namespace Chiptune.Json

/-- What stands in a text where something else was wanted. -/
inductive Found where
  | null
  | bool (value : Bool)
  | integer (value : Int)
  | number (value : Float)
  | string (value : String)
  | list
  | object
  deriving DecidableEq

/-- What is wrong with a text. -/
inductive Cause where
  | endInList
  | endInObject
  | endInString
  | endInValue
  | expectedColon
  | expectedListEnd
  | expectedObjectEnd
  | expectedWord
  | expectedValue
  | invalidEscape
  | invalidNumber
  | numberOutOfRange
  | controlCharacter
  | keyNotString
  | loneSurrogate
  | endOfEscape
  | trailingComma
  | trailingCharacters
  | wrongType (found : Found) (wanted : String)
  | wrongValue (found : Found) (wanted : String)
  | wrongLength (length : Nat) (wanted : String)
  /-- A value that its own type refuses, in that type's words. -/
  | refused (complaint : String)
  | missingField (name : String)
  | duplicateField (name : String)
  | unknownChoice (name : String) (known : List String)
  deriving DecidableEq

/-- A cause with its place in the text. -/
inductive Fault where
  | located (cause : Cause) (offset : Nat)
  | floating (cause : Cause) (stand : Cursor)
  deriving DecidableEq

/-- How a complaint names what it found. -/
def Found.message : Found → String
  | .null => "null"
  | .bool value => s!"boolean `{value}`"
  | .integer value => s!"integer `{value}`"
  | .number value => s!"floating point `{String.ofList (writeFloat value)}`"
  | .string value => s!"string {Text.quoted value}"
  | .list => "sequence"
  | .object => "map"

/-- The names that would have done. -/
def choices : List String → String
  | [] => "nothing"
  | [a] => s!"`{a}`"
  | [a, b] => s!"`{a}` or `{b}`"
  | names => "one of " ++ ", ".intercalate (names.map fun name => s!"`{name}`")

/-- What is wrong, in words. -/
def Cause.message : Cause → String
  | .endInList => "EOF while parsing a list"
  | .endInObject => "EOF while parsing an object"
  | .endInString => "EOF while parsing a string"
  | .endInValue => "EOF while parsing a value"
  | .expectedColon => "expected `:`"
  | .expectedListEnd => "expected `,` or `]`"
  | .expectedObjectEnd => "expected `,` or `\x7d`"
  | .expectedWord => "expected ident"
  | .expectedValue => "expected value"
  | .invalidEscape => "invalid escape"
  | .invalidNumber => "invalid number"
  | .numberOutOfRange => "number out of range"
  | .controlCharacter =>
    "control character (\\u0000-\\u001F) found while parsing a string"
  | .keyNotString => "key must be a string"
  | .loneSurrogate => "lone leading surrogate in hex escape"
  | .endOfEscape => "unexpected end of hex escape"
  | .trailingComma => "trailing comma"
  | .trailingCharacters => "trailing characters"
  | .wrongType found wanted => s!"invalid type: {found.message}, expected {wanted}"
  | .wrongValue found wanted => s!"invalid value: {found.message}, expected {wanted}"
  | .wrongLength length wanted => s!"invalid length {length}, expected {wanted}"
  | .refused complaint => complaint
  | .missingField name => s!"missing field `{name}`"
  | .duplicateField name => s!"duplicate field `{name}`"
  | .unknownChoice name known => s!"unknown variant `{name}`, expected {choices known}"

/-- Whether the types of the songbook complain, and not the JSON text itself. -/
def Cause.isOwn : Cause → Bool
  | .refused _ => true
  | .missingField _ => true
  | .duplicateField _ => true
  | .unknownChoice _ _ => true
  | _ => false

namespace Fault

/-- What is wrong, wherever it is. -/
def cause : Fault → Cause
  | .located cause _ => cause
  | .floating cause _ => cause

/-- The complaint about a text, with line and column once it has a place. -/
def message (text : String) : Fault → String
  | .located cause offset =>
    let (line, column) := locate offset text.toList
    s!"{cause.message} at line {line} column {column}"
  | .floating cause _ => cause.message

end Fault

/-- A complaint about the bytes that have been read. -/
def Cursor.fail {α : Type} (c : Cursor) (cause : Cause) : Except Fault α :=
  .error (.located cause c.offset)

/-- A complaint about the character that comes next. -/
def Cursor.failPeek {α : Type} (c : Cursor) (cause : Cause) : Except Fault α :=
  .error (.located cause c.peekOffset)

/-- A complaint about a value that has been read, to be placed later. -/
def Cursor.failLater {α : Type} (c : Cursor) (cause : Cause) : Except Fault α :=
  .error (.floating cause c)

end Chiptune.Json
