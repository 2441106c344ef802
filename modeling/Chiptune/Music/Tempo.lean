/-
  Beats and seconds.

  The code of a note counts quarters of a beat, and beats are exact rationals.
  They become seconds only when a tempo is given, which has to be a positive
  finite number of beats per minute.
-/
import Chiptune.Music.Error

set_option autoImplicit false

namespace Chiptune

/-- A count of beats. -/
abbrev Beats := Rat

/-- The beats a length code stands for. -/
def beatsOf (code : Nat) : Beats := (code : Rat) / 4

/-- A count of beats as a floating point number: numerator by denominator. -/
def Beats.toFloat (beats : Beats) : Float :=
  Float.ofNat beats.num.toNat / Float.ofNat beats.den

/-- The beats of several notes together. -/
def sumBeats (codes : List Nat) : Beats :=
  codes.foldl (fun sum code => sum + beatsOf code) 0

/-- The length of one beat. -/
def beatLength (bpm : Float) : Except MusicError Float :=
  if bpm.isFinite && 0 < bpm then .ok (60 / bpm) else .error (.invalidTempo bpm)

/-- The length of a note by its code. -/
def codeLength (code : Nat) (bpm : Float) : Except MusicError Float := do
  let beat ← beatLength bpm
  .ok (Beats.toFloat (beatsOf code) * beat)

end Chiptune
