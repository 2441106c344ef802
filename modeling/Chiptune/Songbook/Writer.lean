/-
  Songbooks in JSON text: writing.

  Settings an instrument has not are left out.
-/
import Chiptune.Songbook.Basic
import Chiptune.Music.Tone
import Chiptune.Json.Writer

set_option autoImplicit false

namespace Chiptune

open Json

/-- The name of a waveform. -/
def Waveform.writeJson (waveform : Waveform) : List Char := writeString waveform.name

/-- The letter of a pitch. -/
def Pitch.writeJson (pitch : Pitch) : List Char := ['"', pitch.letter, '"']

/-- An instrument with the settings it has. -/
def Instrument.writeJson (instrument : Instrument) : List Char :=
  let setting (name : String) (value : Option Float32) : List (String × List Char) :=
    (value.map fun x => (name, writeFloat32 x)).toList
  writeObject <|
    ("wave", instrument.waveform.writeJson) ::
      setting "gain" instrument.gain ++ setting "pan" instrument.pan

/-- A track. -/
def Track.writeJson (track : Track) : List Char :=
  writeObject [
    ("bpm", writeFloat track.bpm),
    ("isLooping", writeBool track.looping),
    ("parts", writeList (track.parts.map writeString))]

/-- A note. -/
def Note.writeJson (note : Note) : List Char :=
  writeObject [
    ("pitch_class", note.pitch.writeJson),
    ("sharp", writeBool note.sharp),
    ("octave", Decimal.digitsOf note.octave),
    ("duration_code", Decimal.digitsOf note.code)]

/-- A tone. -/
def Tone.writeJson (tone : Tone) : List Char :=
  writeObject [("hz", writeFloat tone.hz), ("seconds", writeFloat tone.seconds.toFloat)]

/-- A table, in the order of its names. -/
def Table.writeJson {α : Type} (write : α → List Char) (table : Table α) : List Char :=
  writeObject (table.entries.map fun (name, value) => (name, write value))

/-- A songbook. -/
def Songbook.writeJson (book : Songbook) : List Char :=
  writeObject [
    ("instruments", book.instruments.writeJson Instrument.writeJson),
    ("tracks", book.tracks.writeJson Track.writeJson)]

end Chiptune
