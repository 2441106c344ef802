/-
  Values that are not needed.

  A skipped value may nest to any depth, so the containers that are still open
  are kept in a list.  Every second step reads a character, which bounds the
  number of steps by the text that is left.
-/
import Chiptune.Json.Text
import Chiptune.Json.Number

set_option autoImplicit false

namespace Chiptune.Json

/-- A container that has been entered and not yet left. -/
inductive Frame where
  | list
  | object
  deriving DecidableEq, Repr, Inhabited

/-- What comes next while a value is passed. -/
inductive Stage where
  /-- A value. -/
  | value
  /-- The first item of the innermost container, or its end. -/
  | opened
  /-- Another item of the innermost container, or its end. -/
  | after
  /-- The key of the next item of an object. -/
  | key
  deriving DecidableEq, Repr, Inhabited

/-- Reads the rest of a word of which the first letter has been read. -/
def readWord : List Char → Cursor → Except Fault Cursor
  | [], c => .ok c
  | w :: word, c =>
    match c.rest with
    | [] => c.fail .endInValue
    | d :: rest =>
      if d = w then readWord word ⟨rest, c.offset + 1⟩
      else .error (.located .expectedWord (c.offset + 1))

namespace Frame

/-- The character that ends a container. -/
def closer : Frame → Char
  | list => ']'
  | object => '\x7d'

/-- The complaint about a text that ends inside a container. -/
def unended : Frame → Cause
  | list => .endInList
  | object => .endInObject

/-- The complaint about an item that is followed by something else. -/
def unseparated : Frame → Cause
  | list => .expectedListEnd
  | object => .expectedObjectEnd

/-- What an item of a container begins with. -/
def item : Frame → Stage
  | list => .value
  | object => .key

end Frame

/-- One step: what comes next, the open containers and the place after it. -/
def skipStep (stage : Stage) (frames : List Frame) (c : Cursor) :
    Except Fault (Stage × List Frame × Cursor) :=
  let c := c.skipSpaces
  match stage, frames, c.rest with
  | .value, _, [] => c.failPeek .endInValue
  | .value, _, d :: _ =>
    if d = '[' then .ok (.opened, .list :: frames, c.advance 1)
    else if d = '\x7b' then .ok (.opened, .object :: frames, c.advance 1)
    else do
      let c ←
        if d = 'n' then readWord ['u', 'l', 'l'] (c.advance 1)
        else if d = 't' then readWord ['r', 'u', 'e'] (c.advance 1)
        else if d = 'f' then readWord ['a', 'l', 's', 'e'] (c.advance 1)
        else if d = '-' then skipNumber (c.advance 1)
        else if d.isDigit then skipNumber c
        else if d = '"' then skipText (c.rest.drop 1) (c.offset + 1)
        else c.failPeek .expectedValue
      .ok (.after, frames, c)
  | .opened, frame :: outer, d :: _ =>
    if d = frame.closer then .ok (.after, outer, c.advance 1)
    else .ok (frame.item, frames, c)
  | .after, frame :: outer, d :: _ =>
    if d = ',' then .ok (frame.item, frames, c.advance 1)
    else if d = frame.closer then .ok (.after, outer, c.advance 1)
    else c.failPeek frame.unseparated
  | .key, _, d :: _ =>
    if d = '"' then do
      let c ← skipText (c.rest.drop 1) (c.offset + 1)
      let c := c.skipSpaces
      match c.rest with
      | [] => c.failPeek .endInObject
      | ':' :: _ => .ok (.value, frames, c.advance 1)
      | _ => c.failPeek .expectedColon
    else c.failPeek .keyNotString
  | .key, _, [] => c.failPeek .endInObject
  | _, frame :: _, [] => c.failPeek frame.unended
  | _, [], _ => .ok (.after, [], c)

/-- Steps until no container is open any more and a value has been passed. -/
def skipSteps : Nat → Stage → List Frame → Cursor → Except Fault Cursor
  | _, .after, [], c => .ok c
  | 0, _, _, c => c.fail .expectedValue
  | fuel + 1, stage, frames, c => do
    let (stage, frames, c) ← skipStep stage frames c
    skipSteps fuel stage frames c

/-- Passes one value of any kind. -/
def skipValue (c : Cursor) : Except Fault Cursor :=
  skipSteps (2 * c.rest.length + 1) .value [] c

end Chiptune.Json
