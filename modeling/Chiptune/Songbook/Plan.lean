/-
  Parts and tracks with everything looked up that they need.
-/
import Chiptune.Songbook.Basic
import Chiptune.Music.Tone

set_option autoImplicit false

namespace Chiptune

/-- A part with its instrument and its tones. -/
structure PlannedPart where
  instrumentId : String
  instrument : Instrument
  tones : List Tone
  deriving DecidableEq

instance : Inhabited PlannedPart := ⟨⟨"", default, []⟩⟩

namespace Songbook

/-- Reads a part, looks up its instrument and works out its tones; the first of these
that fails names the error. -/
def planPart (book : Songbook) (part : String) (bpm : Float) :
    Except MusicError PlannedPart := do
  let parsed ← Notation.Part.parse part
  let instrument ← book.instrument parsed.instrumentId
  let tones ← tonesOf parsed.notes bpm
  .ok ⟨parsed.instrumentId, instrument, tones⟩

/-- Looks up a track and plans its parts in order; the first part that fails names
the error. -/
def planTrack (book : Songbook) (name : String) :
    Except MusicError (Track × List PlannedPart) := do
  let track ← book.track name
  let parts ← track.parts.mapM fun part => book.planPart part track.bpm
  .ok (track, parts)

end Songbook

end Chiptune
