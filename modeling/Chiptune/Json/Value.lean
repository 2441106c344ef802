/-
  Values of a wanted type in JSON text.

  A reader takes the place where a value should stand and gives the value with
  the place behind it.  A record of named fields may also be written as a list
  of its fields in order; fields at the end that may be left out may be missing
  from the list.  Fields with unknown names are passed.
-/
import Chiptune.Json.Skip

set_option autoImplicit false

namespace Chiptune.Json

/-- Reads a value of one type. -/
abbrev Reader (α : Type) := Cursor → Except Fault (α × Cursor)

/-! ## Single values -/

/-- The complaint about a value of another type than the wanted one. -/
def refuseType {α : Type} (wanted : String) (c : Cursor) : Except Fault α :=
  let refuse (found : Found) (c : Cursor) : Except Fault α := c.fail (.wrongType found wanted)
  match c.rest with
  | [] => c.failPeek .expectedValue
  | d :: rest =>
    if d = 'n' then do
      refuse .null (← readWord ['u', 'l', 'l'] (c.advance 1))
    else if d = 't' then do
      refuse (.bool true) (← readWord ['r', 'u', 'e'] (c.advance 1))
    else if d = 'f' then do
      refuse (.bool false) (← readWord ['a', 'l', 's', 'e'] (c.advance 1))
    else if d = '-' then do
      let (number, c) ← readNumber true (c.advance 1)
      refuse number.found c
    else if d.isDigit then do
      let (number, c) ← readNumber false c
      refuse number.found c
    else if d = '"' then do
      let (text, c) ← readString ⟨rest, c.offset + 1⟩
      refuse (.string text) c
    else if d = '[' then refuse .list c
    else if d = '\x7b' then refuse .object c
    else c.failPeek .expectedValue

/-- Reads a number. -/
def readNumeric (wanted : String) : Reader Number := fun c =>
  let c := c.skipSpaces
  match c.rest with
  | [] => c.failPeek .endInValue
  | d :: _ =>
    if d = '-' then readNumber true (c.advance 1)
    else if d.isDigit then readNumber false c
    else refuseType wanted c

/-- Reads a double precision number. -/
def readFloat : Reader Float := fun c => do
  let (number, c) ← readNumeric "f64" c
  .ok (number.toFloat, c)

/-- Reads a single precision number. -/
def readFloat32 : Reader Float32 := fun c => do
  let (number, c) ← readNumeric "f32" c
  .ok (number.toFloat32, c)

/-- Reads a whole number up to 255. -/
def readByte : Reader Nat := fun c => do
  let (number, c) ← readNumeric "u8" c
  match number with
  | .natural value =>
    if value ≤ 255 then .ok (value, c) else c.fail (.wrongValue number.found "u8")
  | .negative _ => c.fail (.wrongValue number.found "u8")
  | .real _ => c.fail (.wrongType number.found "u8")

/-- Reads a truth value. -/
def readBool : Reader Bool := fun c => do
  let c := c.skipSpaces
  match c.rest with
  | [] => c.failPeek .endInValue
  | d :: _ =>
    if d = 't' then .ok (true, ← readWord ['r', 'u', 'e'] (c.advance 1))
    else if d = 'f' then .ok (false, ← readWord ['a', 'l', 's', 'e'] (c.advance 1))
    else refuseType "a boolean" c

/-- Reads a string with its quotes; `wanted` names what it stands for. -/
def readStringFor (wanted : String) : Reader String := fun c =>
  let c := c.skipSpaces
  match c.rest with
  | [] => c.failPeek .endInValue
  | d :: rest =>
    if d = '"' then readString ⟨rest, c.offset + 1⟩
    else refuseType wanted c

/-- Reads a string. -/
def readPlainString : Reader String := readStringFor "a string"

/-- Reads a value or null. -/
def readOption {α : Type} (read : Reader α) : Reader (Option α) := fun c => do
  let c := c.skipSpaces
  match c.rest with
  | 'n' :: _ => .ok (none, ← readWord ['u', 'l', 'l'] (c.advance 1))
  | _ =>
    let (value, c) ← read c
    .ok (some value, c)

/-! ## Lists and objects -/

/-- Whether a list has another item; the place is then the item's. -/
def nextItem (first : Bool) (c : Cursor) : Except Fault (Bool × Cursor) :=
  let c := c.skipSpaces
  match c.rest with
  | [] => c.failPeek .endInList
  | d :: _ =>
    if d = ']' then .ok (false, c)
    else if first then .ok (true, c)
    else if d = ',' then
      let c := (c.advance 1).skipSpaces
      match c.rest with
      | [] => c.failPeek .endInValue
      | e :: _ => if e = ']' then c.failPeek .trailingComma else .ok (true, c)
    else c.failPeek .expectedListEnd

/-- The key of the next field of an object, if there is one. -/
def nextKey (first : Bool) (c : Cursor) : Except Fault (Option String × Cursor) :=
  let c := c.skipSpaces
  let readKey (c : Cursor) : Except Fault (Option String × Cursor) := do
    let (key, c) ← readString (c.advance 1)
    .ok (some key, c)
  match c.rest with
  | [] => c.failPeek .endInObject
  | d :: _ =>
    if d = '\x7d' then .ok (none, c)
    else if first then
      if d = '"' then readKey c else c.failPeek .keyNotString
    else if d = ',' then
      let c := (c.advance 1).skipSpaces
      match c.rest with
      | [] => c.failPeek .endInValue
      | e :: _ =>
        if e = '"' then readKey c
        else if e = '\x7d' then c.failPeek .trailingComma
        else c.failPeek .keyNotString
    else c.failPeek .expectedObjectEnd

/-- Passes the colon between a key and its value. -/
def passColon (c : Cursor) : Except Fault Cursor :=
  let c := c.skipSpaces
  match c.rest with
  | [] => c.failPeek .endInObject
  | ':' :: _ => .ok (c.advance 1)
  | _ => c.failPeek .expectedColon

/-- Leaves a list. -/
def leaveList (c : Cursor) : Except Fault Cursor :=
  let c := c.skipSpaces
  match c.rest with
  | [] => c.failPeek .endInList
  | d :: _ =>
    if d = ']' then .ok (c.advance 1)
    else if d = ',' then
      let c := (c.advance 1).skipSpaces
      c.failPeek (if c.rest.head? == some ']' then .trailingComma else .trailingCharacters)
    else c.failPeek .trailingCharacters

/-- Leaves an object. -/
def leaveObject (c : Cursor) : Except Fault Cursor :=
  let c := c.skipSpaces
  match c.rest with
  | [] => c.failPeek .endInObject
  | d :: _ =>
    if d = '\x7d' then .ok (c.advance 1)
    else c.failPeek (if d = ',' then .trailingComma else .trailingCharacters)

/-- How far a look for the end of a list reads. -/
def listEndOffset (c : Cursor) : Nat :=
  let c := c.skipSpaces
  match c.rest with
  | ']' :: _ => c.offset + 1
  | ',' :: _ => (c.advance 1).skipSpaces.offset
  | _ => c.offset

/-- How far a look for the end of an object reads. -/
def objectEndOffset (c : Cursor) : Nat :=
  let c := c.skipSpaces
  match c.rest with
  | '\x7d' :: _ => c.offset + 1
  | _ => c.offset

/-- Gives a floating complaint its place, where the structure around it ends. -/
def placeFault {α : Type} (endOffset : Cursor → Nat) : Except Fault α → Except Fault α
  | .error (.floating cause stand) => .error (.located cause (endOffset stand))
  | result => result

/-- Reads a list whose contents `body` reads, behind the bracket. -/
def withinList {α : Type} (body : Reader α) (c : Cursor) : Except Fault (α × Cursor) := do
  let (value, c) ← placeFault listEndOffset (body (c.advance 1))
  .ok (value, ← leaveList c)

/-- Reads an object whose contents `body` reads, behind the brace. -/
def withinObject {α : Type} (body : Reader α) (c : Cursor) : Except Fault (α × Cursor) := do
  let (value, c) ← placeFault objectEndOffset (body (c.advance 1))
  .ok (value, ← leaveObject c)

/-- Reads the items of a list; `fuel` bounds their number. -/
def readItems {α : Type} (read : Reader α) : Nat → Bool → Reader (List α)
  | 0, _ => fun c => c.fail .endInList
  | fuel + 1, first => fun c => do
    let (more, c) ← nextItem first c
    if more then
      let (item, c) ← read c
      let (items, c) ← readItems read fuel false c
      .ok (item :: items, c)
    else .ok ([], c)

/-- Reads a list of values. -/
def readList {α : Type} (read : Reader α) : Reader (List α) := fun c =>
  let c := c.skipSpaces
  match c.rest with
  | [] => c.failPeek .endInValue
  | d :: _ =>
    if d = '[' then withinList (fun c => readItems read (c.rest.length + 1) true c) c
    else refuseType "a sequence" c

/-- Reads the entries of an object with free keys; `fuel` bounds their number. -/
def readEntries {α : Type} (read : Reader α) : Nat → Bool → Reader (List (String × α))
  | 0, _ => fun c => c.fail .endInObject
  | fuel + 1, first => fun c => do
    let (key, c) ← nextKey first c
    match key with
    | none => .ok ([], c)
    | some key =>
      let c ← passColon c
      let (value, c) ← read c
      let (entries, c) ← readEntries read fuel false c
      .ok ((key, value) :: entries, c)

/-- Reads an object with free keys, as its entries in order. -/
def readObject {α : Type} (read : Reader α) : Reader (List (String × α)) := fun c =>
  let c := c.skipSpaces
  match c.rest with
  | [] => c.failPeek .endInValue
  | d :: _ =>
    if d = '\x7b' then withinObject (fun c => readEntries read (c.rest.length + 1) true c) c
    else refuseType "a map" c

/-! ## Records -/

/-- One field of a record of which `δ` is a draft. -/
structure Field (δ : Type) where
  name : String
  /-- Other names that mean the same field. -/
  aliases : List String
  /-- A list of the fields may end before this one. -/
  optional : Bool
  isSet : δ → Bool
  read : δ → Reader δ

/-- How a record is read into a draft, field by field, and finished. -/
structure Shape (δ α : Type) where
  /-- What a complaint calls the record. -/
  title : String
  blank : δ
  fields : List (Field δ)
  finish : δ → Except Cause α

namespace Field

/-- Whether a key names the field. -/
def answersTo {δ : Type} (field : Field δ) (key : String) : Bool :=
  key == field.name || field.aliases.contains key

end Field

namespace Shape

variable {δ α : Type}

/-- Finishes a draft, or complains about a field that is not there. -/
def conclude (shape : Shape δ α) (draft : δ) (c : Cursor) : Except Fault (α × Cursor) :=
  match shape.finish draft with
  | .ok value => .ok (value, c)
  | .error cause => c.failLater cause

/-- Reads the fields of an object in any order; `fuel` bounds their number. -/
def readNamed (shape : Shape δ α) : Nat → Bool → δ → Reader α
  | 0, _, _ => fun c => c.fail .endInObject
  | fuel + 1, first, draft => fun c => do
    let (key, c) ← nextKey first c
    match key with
    | none => shape.conclude draft c
    | some key =>
      match shape.fields.find? (·.answersTo key) with
      | none =>
        let c ← skipValue (← passColon c)
        shape.readNamed fuel false draft c
      | some field =>
        if field.isSet draft then c.failLater (.duplicateField field.name)
        else do
          let (draft, c) ← field.read draft (← passColon c)
          shape.readNamed fuel false draft c

/-- Reads the fields of a list in order, `count` of them before. -/
def readOrdered (shape : Shape δ α) : List (Field δ) → Nat → δ → Reader α
  | [], _, draft => shape.conclude draft
  | field :: fields, count, draft => fun c => do
    let (more, c) ← nextItem (count == 0) c
    if more then
      let (draft, c) ← field.read draft c
      shape.readOrdered fields (count + 1) draft c
    else if field.optional then shape.readOrdered fields (count + 1) draft c
    else
      c.failLater (.wrongLength count s!"{shape.title} with {shape.fields.length} elements")

/-- Reads a record, from an object or from a list. -/
def read (shape : Shape δ α) : Reader α := fun c =>
  let c := c.skipSpaces
  match c.rest with
  | [] => c.failPeek .endInValue
  | d :: _ =>
    if d = '[' then withinList (shape.readOrdered shape.fields 0 shape.blank) c
    else if d = '\x7b' then
      withinObject (fun c => shape.readNamed (c.rest.length + 1) true shape.blank c) c
    else refuseType shape.title c

end Shape

/-! ## Choices -/

/-- Reads one of a few names: a string, or an object with that one key and null. -/
def readChoice {α : Type} (known : List (String × α)) : Reader α := fun c => do
  let pick (name : String) (c : Cursor) : Except Fault α :=
    match known.lookup name with
    | some value => .ok value
    | none => c.fail (.unknownChoice name (known.map (·.1)))
  let c := c.skipSpaces
  match c.rest with
  | [] => c.failPeek .endInValue
  | d :: _ =>
    if d = '"' then
      let (name, c) ← readPlainString c
      .ok (← pick name c, c)
    else if d = '\x7b' then
      let (name, c) ← readStringFor "variant identifier" (c.advance 1)
      let value ← pick name c
      let c ← passColon c
      let c := c.skipSpaces
      let c ←
        match c.rest with
        | [] => c.failPeek .endInValue
        | 'n' :: _ => readWord ['u', 'l', 'l'] (c.advance 1)
        | _ => refuseType "unit" c
      let c := c.skipSpaces
      match c.rest with
      | [] => c.fail .endInObject
      | e :: _ => if e = '\x7d' then .ok (value, c.advance 1) else c.fail .expectedValue
    else c.failPeek .expectedValue

/-! ## Whole texts -/

/-- Reads a text that holds one value and nothing else. -/
def readAll {α : Type} (read : Reader α) (text : String) : Except Fault α := do
  let (value, c) ← read (.start text)
  let c := c.skipSpaces
  if c.rest.isEmpty then .ok value else c.failPeek .trailingCharacters

end Chiptune.Json
