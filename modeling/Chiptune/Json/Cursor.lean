/-
  Where a reader of JSON text stands.

  A cursor holds the characters that are still unread and the number of bytes
  before them.  Places in the text are told by line and by byte column; both are
  worked out from the byte count once, when a complaint is written.
-/
set_option autoImplicit false

namespace Chiptune.Json

/-- A place in a text that is being read. -/
structure Cursor where
  rest : List Char
  /-- How many bytes have been read. -/
  offset : Nat
  deriving DecidableEq, Repr, Inhabited

/-- The blanks that may stand between the tokens of JSON text. -/
def isSpace (c : Char) : Bool :=
  c == ' ' || c == '\n' || c == '\t' || c == '\r'

/-- How many bytes the characters take. -/
def byteCount (cs : List Char) : Nat :=
  cs.foldl (fun n c => n + c.utf8Size) 0

namespace Cursor

/-- The beginning of a text. -/
def start (text : String) : Cursor := ⟨text.toList, 0⟩

/-- Past the blanks that come next, each of them one byte. -/
def skipSpaces (c : Cursor) : Cursor :=
  ⟨c.rest.dropWhile isSpace, c.offset + (c.rest.takeWhile isSpace).length⟩

/-- Past `count` characters of one byte each. -/
def advance (c : Cursor) (count : Nat) : Cursor :=
  ⟨c.rest.drop count, c.offset + count⟩

/-- One byte further, unless the text has ended: the place of the character that is looked at. -/
def peekOffset (c : Cursor) : Nat :=
  if c.rest.isEmpty then c.offset else c.offset + 1

end Cursor

/-- The line of the place `offset` bytes into the text, and its distance from the
beginning of that line in bytes. -/
def locate (offset : Nat) : List Char → Nat × Nat :=
  go offset 1 0
where
  /-- Walks on from a line and column. -/
  go : Nat → Nat → Nat → List Char → Nat × Nat
    | 0, line, column, _ => (line, column)
    | _, line, column, [] => (line, column)
    | left + 1, line, column, c :: rest =>
      if c = '\n' then go left (line + 1) 0 rest
      else go (left + 1 - c.utf8Size) line (column + min c.utf8Size (left + 1)) rest

/-- The place behind a line break is the beginning of the next line. -/
example : locate 2 ['a', '\n', 'b'] = (2, 0) := by decide +kernel

/-- Columns count bytes. -/
example : locate 3 ['é', 'b'] = (1, 3) := by decide +kernel

end Chiptune.Json
