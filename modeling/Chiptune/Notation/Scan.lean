/-
  Notes in the body of a part.

  A note is a pitch letter or the X of a rest, an optional sharp, an octave from 1
  to 8, and a length code of one or two digits from 1 to 9, of which the second
  is taken whenever it is there.  Text that forms no note is passed without
  complaint, so that decorated and hand-edited parts still play.
-/
import Chiptune.Music.Note

set_option autoImplicit false

namespace Chiptune.Notation

/-- The value of a digit from 1 to `high`. -/
def digit? (high : Nat) (c : Char) : Option Nat :=
  let value := c.toNat - '0'.toNat
  if '0'.toNat < c.toNat ∧ value ≤ high then some value else none

/-- Passes a sharp, if there is one. -/
def readSharp : List Char → Bool × List Char
  | '#' :: rest => (true, rest)
  | rest => (false, rest)

/-- Reads a length code behind its first digit. -/
def readCode (first : Nat) : List Char → Nat × List Char
  | [] => (first, [])
  | c :: rest =>
    match digit? 9 c with
    | some second => (first * 10 + second, rest)
    | none => (first, c :: rest)

/-- Reads an octave and a length code. -/
def readFigures? : List Char → Option (Nat × Nat × List Char)
  | c :: d :: rest => do
    let octave ← digit? 8 c
    let first ← digit? 9 d
    let (code, after) := readCode first rest
    some (octave, code, after)
  | _ => none

/-- Reads the note the characters begin with. -/
def readNote? : List Char → Option (Note × List Char)
  | [] => none
  | c :: rest => do
    let pitch ← Pitch.ofLetter? c
    let (sharp, figures) := readSharp rest
    let (octave, code, after) ← readFigures? figures
    some (⟨pitch, sharp, octave, code⟩, after)

/-! ## What is left gets shorter -/

/-- Passing a sharp leaves no more than before. -/
theorem length_readSharp_le (cs : List Char) : (readSharp cs).2.length ≤ cs.length := by
  unfold readSharp
  split <;> simp

/-- Reading a length code leaves no more than before. -/
theorem length_readCode_le (first : Nat) (cs : List Char) :
    (readCode first cs).2.length ≤ cs.length := by
  unfold readCode
  split
  · simp
  · split <;> simp

/-- Reading an octave and a length code leaves less than before. -/
theorem length_of_readFigures? {cs after : List Char} {octave code : Nat}
    (h : readFigures? cs = some (octave, code, after)) : after.length < cs.length := by
  unfold readFigures? at h
  split at h
  · rename_i c d rest
    cases hc : digit? 8 c with
    | none => simp [hc] at h
    | some o =>
      cases hd : digit? 9 d with
      | none => simp [hc, hd] at h
      | some first =>
        simp only [hc, hd, Option.bind_eq_bind, Option.bind_some, Option.some.injEq,
          Prod.mk.injEq] at h
        have := length_readCode_le first rest
        rw [← h.2.2]
        simp only [List.length_cons]
        omega
  · contradiction

/-- Reading a note leaves less than before. -/
theorem length_of_readNote? {cs after : List Char} {note : Note}
    (h : readNote? cs = some (note, after)) : after.length < cs.length := by
  cases cs with
  | nil => simp [readNote?] at h
  | cons c rest =>
    cases hp : Pitch.ofLetter? c with
    | none => simp [readNote?, hp] at h
    | some pitch =>
      cases hf : readFigures? (readSharp rest).2 with
      | none => simp [readNote?, hp, hf] at h
      | some figures =>
        obtain ⟨octave, code, left⟩ := figures
        simp only [readNote?, hp, hf, Option.bind_eq_bind, Option.bind_some,
          Option.some.injEq, Prod.mk.injEq] at h
        have hl := length_of_readFigures? hf
        have hs := length_readSharp_le rest
        rw [← h.2]
        simp only [List.length_cons]
        omega

/-- Every note in the body of a part, from left to right. -/
def scan (body : List Char) : List Note :=
  match body with
  | [] => []
  | c :: rest =>
    match _h : readNote? (c :: rest) with
    | some (note, after) => note :: scan after
    | none => scan rest
termination_by body.length
decreasing_by
  · exact length_of_readNote? ‹_›
  · exact Nat.lt_succ_self rest.length

/-- Two digits are taken where there are two, and a third is passed. -/
example : scan ['A', '4', '1', '2', '3'] = [⟨.a, false, 4, 12⟩] := by decide +kernel

end Chiptune.Notation
