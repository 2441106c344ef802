/-
  Songbooks: the instruments and the tracks one can choose from.
-/
import Chiptune.Songbook.Table
import Chiptune.Notation.Part
import Chiptune.Music.Track

set_option autoImplicit false

namespace Chiptune

/-- Instruments by their ids and tracks by their names. -/
structure Songbook where
  instruments : Table Instrument
  tracks : Table Track
  deriving DecidableEq

namespace Songbook

/-- The songbook without entries. -/
def empty : Songbook := ⟨.empty, .empty⟩

instance : Inhabited Songbook := ⟨empty⟩

/-- The instrument of an id. -/
def instrument (book : Songbook) (id : String) : Except MusicError Instrument :=
  match book.instruments.get? id with
  | some instrument => .ok instrument
  | none => .error (.unknownInstrument id)

/-- The track of a name. -/
def track (book : Songbook) (name : String) : Except MusicError Track :=
  match book.tracks.get? name with
  | some track => .ok track
  | none => .error (.unknownTrack name)

/-- What is wrong with an instrument under its id; the id is looked at first. -/
def instrumentError? (id : String) (instrument : Instrument) : Option MusicError :=
  if Notation.isHeaderText id then instrument.flaw?.map (.invalidInstrument id)
  else some (.invalidInstrument id .badId)

/-- A songbook is fit for use when its instruments have proper ids and settings
within their ranges.  The first one that has not is named. -/
def validate (book : Songbook) : Except MusicError Unit :=
  match book.instruments.entries.findSome? fun (id, instrument) =>
      instrumentError? id instrument with
  | some error => .error error
  | none => .ok ()

end Songbook

end Chiptune
