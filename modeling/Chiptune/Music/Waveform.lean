/-
  The waveforms an oscillator can make.
-/
set_option autoImplicit false

namespace Chiptune

/-- The shape of one period of a tone. -/
inductive Waveform where
  | sine
  | square
  | sawtooth
  | triangle
  deriving DecidableEq, Repr, Inhabited

namespace Waveform

/-- The full name of a waveform. -/
def name : Waveform → String
  | sine => "sine"
  | square => "square"
  | sawtooth => "sawtooth"
  | triangle => "triangle"

/-- The waveform of a name, full or short, in any mixture of cases.  No character
outside ASCII has a lower case among the letters of these names, so it is enough
to lower those of ASCII. -/
def ofName? (name : String) : Option Waveform :=
  let lower := name.map Char.toLower
  if lower = "sine" ∨ lower = "sin" then some sine
  else if lower = "square" ∨ lower = "sq" then some square
  else if lower = "sawtooth" ∨ lower = "saw" then some sawtooth
  else if lower = "triangle" ∨ lower = "tri" then some triangle
  else none

/-- The complaint about a name that no waveform has. -/
def unknownMessage (name : String) : String := s!"unknown waveform '{name}'"

end Waveform

end Chiptune
