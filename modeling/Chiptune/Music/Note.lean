/-
  Notes as the notation spells them.
-/
import Chiptune.Music.Pitch
import Chiptune.Decimal.Layout

set_option autoImplicit false

namespace Chiptune

/-- A pitch in an octave with a length.  The scanner gives octaves from 1 to 8 and
length codes from 1 to 99 without a zero; other sources may give up to 255. -/
structure Note where
  pitch : Pitch
  sharp : Bool
  octave : Nat
  /-- The length in quarters of a beat. -/
  code : Nat
  deriving DecidableEq, Repr, Inhabited

namespace Note

/-- A rest of a length. -/
def silence (octave code : Nat) : Note := ⟨.rest, false, octave, code⟩

/-- Whether the note makes no sound. -/
def isRest (note : Note) : Bool := note.pitch == .rest

/-- The frequency of the note in Hz. -/
def hz (note : Note) : Float := frequency note.pitch note.sharp note.octave

/-- The note as the notation spells it. -/
def spell (note : Note) : List Char :=
  note.pitch.letter :: (if note.sharp then ['#'] else []) ++
    Decimal.digitsOf note.octave ++ Decimal.digitsOf note.code

end Note

end Chiptune
