/-
  Parts: the header of an instrument and a body of notes.

  A part begins with the id of its instrument, three capital letters; whatever
  follows is the body.
-/
import Chiptune.Notation.Scan
import Chiptune.Music.Error

set_option autoImplicit false

namespace Chiptune.Notation

/-- How many letters the id of an instrument has. -/
def headerLength : Nat := 3

/-- Whether the characters are those of an instrument id. -/
def isHeader (cs : List Char) : Bool :=
  cs.length == headerLength && cs.all Char.isUpper

/-- Whether a name is the id of an instrument: three capital letters of ASCII. -/
def isHeaderText (id : String) : Bool := isHeader id.toList

/-- A part that has been read. -/
structure Part where
  instrumentId : String
  notes : List Note
  deriving DecidableEq, Repr, Inhabited

/-- Splits a part into its header and its notes.  Only a bad header is refused. -/
def Part.parse (text : String) : Except MusicError Part :=
  let header := text.toList.take headerLength
  if isHeader header then
    .ok ⟨String.ofList header, scan (text.toList.drop headerLength)⟩
  else .error (.malformedPart text)

end Chiptune.Notation
