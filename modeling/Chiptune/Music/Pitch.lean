/-
  Pitches and their frequencies.

  A pitch is a letter from A to G, or the rest.  The frequencies of the lowest
  octave are a table; each octave doubles them.  E sharp sounds as F, and B sharp
  as the C of the next octave.
-/
set_option autoImplicit false

namespace Chiptune

/-- A note letter, or a rest, which takes time and makes no sound. -/
inductive Pitch where
  | a
  | b
  | c
  | d
  | e
  | f
  | g
  | rest
  deriving DecidableEq, Repr, Inhabited

namespace Pitch

/-- Every pitch, in the order of the letters. -/
def all : List Pitch := [a, b, c, d, e, f, g, rest]

/-- The letter of a pitch; a rest is written X. -/
def letter : Pitch → Char
  | a => 'A'
  | b => 'B'
  | c => 'C'
  | d => 'D'
  | e => 'E'
  | f => 'F'
  | g => 'G'
  | rest => 'X'

/-- The pitch of a letter. -/
def ofLetter? (letter : Char) : Option Pitch :=
  if letter = 'A' then some a
  else if letter = 'B' then some b
  else if letter = 'C' then some c
  else if letter = 'D' then some d
  else if letter = 'E' then some e
  else if letter = 'F' then some f
  else if letter = 'G' then some g
  else if letter = 'X' then some rest
  else none

/-- How many semitones a pitch lies above the C of its octave. -/
def semitone? : Pitch → Option Nat
  | c => some 0
  | d => some 2
  | e => some 4
  | f => some 5
  | g => some 7
  | a => some 9
  | b => some 11
  | rest => none

/-- The letter of a pitch names it. -/
theorem ofLetter?_letter (p : Pitch) : ofLetter? p.letter = some p := by
  cases p <;> rfl

/-- A letter names no pitch but the one it is the letter of. -/
theorem letter_of_ofLetter? {x : Char} {p : Pitch} (h : ofLetter? x = some p) :
    p.letter = x := by
  unfold ofLetter? at h
  repeat' split at h
  all_goals first
    | (injection h with h; subst h; subst_vars; rfl)
    | contradiction

end Pitch

/-- The frequencies of the lowest octave in Hz, C first. -/
def lowestOctave : List Float :=
  [16.35, 17.32, 18.35, 19.45, 20.60, 21.83, 23.12, 24.50, 25.96, 27.50, 29.14, 30.87]

/-- The frequency of a pitch in an octave, raised by a semitone or not; 0 for a rest. -/
def frequency (pitch : Pitch) (sharp : Bool) (octave : Nat) : Float :=
  match pitch.semitone? with
  | none => 0.0
  | some natural =>
    let semitone := if sharp then natural + 1 else natural
    lowestOctave.getD (semitone % 12) 0.0 * Float.ofNat (Nat.pow 2 (octave + semitone / 12))

end Chiptune
