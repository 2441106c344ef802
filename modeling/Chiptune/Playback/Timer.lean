/-
  Timers that fire at the end of a voice's tones.

  Timers wait in the order in which they fire: by the time they are due, and by their
  voice when they are due together.  Times are put in their total order, so a time that
  is no number comes before or after all that are.
-/
import Chiptune.Music.Seconds

set_option autoImplicit false

namespace Chiptune

/-- Identifies a started voice; handles are given out in order and never twice. -/
abbrev VoiceId := Nat

/-- The text of a handle. -/
def handleText (handle : VoiceId) : String := s!"voice-{handle}"

/-- Fires at the time it is due. -/
structure Timer where
  due : Seconds
  handle : VoiceId
  /-- The epoch of the scheduler in which it was armed. -/
  epoch : Nat
  deriving DecidableEq

namespace Timer

/-- Whether a timer fires before another one. -/
def precedes (timer other : Timer) : Bool :=
  timer.due.rank < other.due.rank ||
    (timer.due.rank == other.due.rank && timer.handle < other.handle)

/-- Puts a timer among others that wait in order. -/
def arm (timer : Timer) : List Timer → List Timer
  | [] => [timer]
  | other :: others =>
    if timer.precedes other then timer :: other :: others else other :: arm timer others

end Timer

end Chiptune
