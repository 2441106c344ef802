/-
  What can be wrong with a piece of music.
-/
import Chiptune.Music.Instrument
import Chiptune.Json.Fault

set_option autoImplicit false

namespace Chiptune

/-- What is wrong with a songbook, a track or a part of one. -/
inductive MusicError where
  /-- A part does not begin with the id of an instrument. -/
  | malformedPart (part : String)
  | unknownInstrument (id : String)
  | unknownTrack (name : String)
  /-- A tempo is not a positive number. -/
  | invalidTempo (bpm : Float)
  /-- A part without length cannot be repeated. -/
  | stuckLoop
  | invalidInstrument (id : String) (flaw : InstrumentFlaw)
  /-- The text of a songbook cannot be read. -/
  | invalidSongbook (text : String) (fault : Json.Fault)
  deriving DecidableEq

/-- What is wrong, in words. -/
def MusicError.message : MusicError → String
  | malformedPart part =>
    s!"malformed notation {Text.quoted part}: expected a three-letter uppercase " ++
      "instrument header"
  | unknownInstrument id => s!"unknown instrument '{id}'"
  | unknownTrack name => s!"unknown track '{name}'"
  | invalidTempo bpm => s!"invalid tempo {Decimal.messageFloat bpm} bpm"
  | stuckLoop => "cannot loop a sequence with zero total duration"
  | invalidInstrument id flaw => s!"invalid instrument '{id}': {flaw.message}"
  | invalidSongbook text fault => s!"invalid songbook: {fault.message text}"

end Chiptune
