/-
  Instruments: how one voice sounds.

  An instrument is a waveform with an optional level and an optional place
  between left and right.  A setting that is zero asks for no effect at all, so
  it adds nothing to the chain of nodes; a setting that is no number is not zero.
-/
import Chiptune.Music.Waveform
import Chiptune.Decimal.Layout

set_option autoImplicit false

namespace Chiptune

/-- The settings an instrument may have, each of them a node behind the oscillator. -/
inductive Setting where
  | gain
  | pan
  deriving DecidableEq, Repr, Inhabited

/-- A node that follows an oscillator, with its setting. -/
structure Effect where
  setting : Setting
  value : Float32
  deriving DecidableEq

/-- A waveform with its settings. -/
structure Instrument where
  waveform : Waveform
  /-- The level, from 0 to 1. -/
  gain : Option Float32
  /-- The place between left at -1 and right at 1. -/
  pan : Option Float32
  deriving DecidableEq

namespace Instrument

/-- An instrument without settings. -/
def plain (waveform : Waveform) : Instrument := ⟨waveform, none, none⟩

instance : Inhabited Instrument := ⟨plain .sine⟩

/-- The settings as effects, the level before the place. -/
def settings (instrument : Instrument) : List Effect :=
  (instrument.gain.map (Effect.mk .gain)).toList ++ (instrument.pan.map (Effect.mk .pan)).toList

/-- The effects the instrument asks for: its settings that are not zero. -/
def effects (instrument : Instrument) : List Effect :=
  instrument.settings.filter fun effect => effect.value != 0

end Instrument

/-- Why an instrument is refused. -/
inductive InstrumentFlaw where
  | gainOutside (gain : Float32)
  | panOutside (pan : Float32)
  | badId
  deriving DecidableEq

/-- Why an instrument is refused, in words. -/
def InstrumentFlaw.message : InstrumentFlaw → String
  | .gainOutside gain => s!"gain {Decimal.messageFloat32 gain} is outside [0, 1]"
  | .panOutside pan => s!"pan {Decimal.messageFloat32 pan} is outside [-1, 1]"
  | .badId => "id must be three uppercase letters"

namespace Instrument

/-- A level and a place have to lie within their ranges; the level is looked at first. -/
def flaw? (instrument : Instrument) : Option InstrumentFlaw :=
  let outside (low high : Float32) (value : Float32) : Bool := !(low ≤ value && value ≤ high)
  match instrument.gain.filter (outside 0 1), instrument.pan.filter (outside (-1) 1) with
  | some gain, _ => some (.gainOutside gain)
  | none, some pan => some (.panOutside pan)
  | none, none => none

end Instrument

end Chiptune
