/-
  Tones: notes in absolute units.
-/
import Chiptune.Music.Note
import Chiptune.Music.Seconds
import Chiptune.Music.Tempo

set_option autoImplicit false

namespace Chiptune

/-- A frequency in Hz, 0 for silence, and a length. -/
structure Tone where
  hz : Float
  seconds : Seconds
  deriving DecidableEq

instance : Inhabited Tone := ⟨⟨0, 0⟩⟩

namespace Tone

/-- Whether nothing sounds. -/
def isRest (tone : Tone) : Bool := tone.hz == 0

/-- The length of several tones together, added up from the left.  The sum of none
is negative zero, to which adding changes no number. -/
def totalLength (tones : List Tone) : Seconds :=
  tones.foldl (fun sum tone => sum + tone.seconds) .negativeZero

end Tone

/-- The length of a note at a tempo. -/
def Note.seconds (note : Note) (bpm : Float) : Except MusicError Float :=
  codeLength note.code bpm

/-- The tones of notes at a tempo, in order. -/
def tonesOf (notes : List Note) (bpm : Float) : Except MusicError (List Tone) := do
  let beat ← beatLength bpm
  .ok (notes.map fun note => ⟨note.hz, .ofFloat (Beats.toFloat (beatsOf note.code) * beat)⟩)

end Chiptune
