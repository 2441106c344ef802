/-
  Oscillators: tones, sample by sample.

  An oscillator holds the steps of frequency that are still to come.  A step is applied
  by the first sample at or after its time.
-/
import Chiptune.Music.Waveform
import Chiptune.Sound.StepRing

set_option autoImplicit false

namespace Chiptune

/-- The source of a tone. -/
structure Oscillator where
  waveform : Waveform
  /-- The frequency of the tone in Hz; nothing sounds at 0. -/
  frequency : Float32
  /-- How much of a period has passed. -/
  phase : Float32
  sampleRate : Float32
  /-- The steps still to come. -/
  steps : StepRing
  startTime : Option Float
  stopTime : Option Float
  deriving DecidableEq

/-- Half the circumference of the unit circle. -/
def pi : Float32 := Float32.ofBits 0x40490FDB

/-- The value of a waveform where part of a period, from 0 to 1, has passed. -/
def Waveform.value (waveform : Waveform) (phase : Float32) : Float32 :=
  match waveform with
  | .sine => (2 * pi * phase).sin
  | .sawtooth => 2 * phase - 1
  | .square => if phase < 0.5 then 1 else -1
  | .triangle => if phase < 0.5 then 4 * phase - 1 else 3 - 4 * phase

namespace Oscillator

/-- An oscillator that has not been started. -/
def silent (waveform : Waveform) (sampleRate : Float32) : Oscillator :=
  ⟨waveform, 0, 0, sampleRate, .empty, none, none⟩

/-- Sounds from a time on. -/
def start (time : Float) (oscillator : Oscillator) : Oscillator :=
  { oscillator with startTime := some time }

/-- Sounds until a time. -/
def stop (time : Float) (oscillator : Oscillator) : Oscillator :=
  { oscillator with stopTime := some time }

/-- Schedules a step of frequency. -/
def tune (hz : Float32) (time : Float) (oscillator : Oscillator) : Oscillator :=
  { oscillator with steps := oscillator.steps.enter ⟨time, hz⟩ }

/-- Whether the oscillator has been started and not stopped by a time. -/
def sounds (oscillator : Oscillator) (time : Float) : Bool :=
  oscillator.startTime.any (fun start => start ≤ time) &&
    oscillator.stopTime.all (fun stop => time < stop)

/-- Applies the steps that are not later than a time. -/
def advanceTo (time : Float) (oscillator : Oscillator) : Oscillator :=
  let (frequency, steps) := oscillator.steps.applyUntil time oscillator.frequency
  { oscillator with frequency, steps }

/-- The sample at a time.  The period goes on only while something sounds. -/
def sampleAt (time : Float) (oscillator : Oscillator) : Float32 × Oscillator :=
  let oscillator := oscillator.advanceTo time
  if !oscillator.sounds time || oscillator.frequency ≤ 0 then (0, oscillator)
  else
    let phase := oscillator.phase + oscillator.frequency / oscillator.sampleRate
    (oscillator.waveform.value oscillator.phase,
      { oscillator with phase := if 1 ≤ phase then phase - phase.floor else phase })

end Oscillator

end Chiptune
