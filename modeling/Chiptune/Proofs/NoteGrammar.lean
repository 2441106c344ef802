/-
  The grammar of notes.

  A note is a letter from A to G or an X, a sharp or none, a digit from 1 to 8, and one or
  two digits from 1 to 9.  The grammar says which texts are notes, and not how they are
  found.  The reader takes a note of the grammar from the front of a text whenever there
  is one, and the longer one if there are two.
-/
import Chiptune.Notation.Scan
import Mathlib.Data.Nat.Digits.Lemmas
import Mathlib.Tactic.IntervalCases

set_option autoImplicit false

namespace Chiptune.Notation

/-! ## The grammar -/

/-- A digit from 1 to `high` stands for its value. -/
structure IsDigit (high : Nat) (c : Char) (value : Nat) : Prop where
  pos : 1 ≤ value
  le : value ≤ high
  spelt : c = Nat.digitChar value

/-- One or two digits from 1 to 9 are a length code, read in decimal. -/
inductive IsCode : List Char → Nat → Prop where
  | one {c : Char} {value : Nat} (digit : IsDigit 9 c value) : IsCode [c] value
  | two {c d : Char} {tens units : Nat} (first : IsDigit 9 c tens) (second : IsDigit 9 d units) :
      IsCode [c, d] (10 * tens + units)

/-- The sign of a sharp, where there is one. -/
def sharpSign (sharp : Bool) : List Char := if sharp then ['#'] else []

/-- The texts that are notes. -/
inductive IsNote : List Char → Note → Prop where
  | note (pitch : Pitch) (sharp : Bool) {c : Char} {digits : List Char} {octave code : Nat}
      (figure : IsDigit 8 c octave) (length : IsCode digits code) :
      IsNote (pitch.letter :: (sharpSign sharp ++ c :: digits)) ⟨pitch, sharp, octave, code⟩

/-- A length code is not cut short: where it has one digit, no other digit follows. -/
def IsWhole (code : Nat) (after : List Char) : Prop :=
  code < 10 → ∀ c ∈ after.head?, ∀ value, ¬ IsDigit 9 c value

/-! ## What the grammar says of notes -/

theorem IsCode.bounds {digits : List Char} {code : Nat} (h : IsCode digits code) :
    1 ≤ code ∧ code ≤ 99 ∧ 0 ∉ Nat.digits 10 code := by
  cases h with
  | one digit =>
    obtain ⟨hpos, hle, -⟩ := digit
    refine ⟨hpos, by omega, ?_⟩
    rw [Nat.digits_of_lt 10 code (by omega) (by omega)]
    simp
    omega
  | @two _ _ tens units first second =>
    obtain ⟨htens, hten, -⟩ := first
    obtain ⟨hunits, hunit, -⟩ := second
    refine ⟨by omega, by omega, ?_⟩
    have hdigits : Nat.digits 10 (10 * tens + units) = [units, tens] := by
      rw [Nat.add_comm, Nat.digits_add 10 (by omega) units tens (by omega) (by omega),
        Nat.digits_of_lt 10 tens (by omega) (by omega)]
    rw [hdigits]
    simp
    omega

/-- Notes have octaves from 1 to 8 and length codes from 1 to 99 without a zero. -/
theorem IsNote.bounds {text : List Char} {note : Note} (h : IsNote text note) :
    (1 ≤ note.octave ∧ note.octave ≤ 8) ∧ 1 ≤ note.code ∧ note.code ≤ 99 ∧
      0 ∉ Nat.digits 10 note.code := by
  cases h with
  | note pitch sharp figure length => exact ⟨⟨figure.pos, figure.le⟩, length.bounds⟩

/-- A note is not empty. -/
theorem IsNote.ne_nil {text : List Char} {note : Note} (h : IsNote text note) : text ≠ [] := by
  cases h
  exact List.cons_ne_nil _ _

/-- A note with one more digit is a longer note. -/
theorem IsNote.concat {text : List Char} {note : Note} {c : Char} {value : Nat}
    (h : IsNote text note) (hcode : note.code < 10) (hdigit : IsDigit 9 c value) :
    IsNote (text ++ [c]) { note with code := 10 * note.code + value } := by
  cases h with
  | @note pitch sharp _ _ _ _ figure length =>
    cases length with
    | one digit =>
      simpa using IsNote.note pitch sharp figure (IsCode.two digit hdigit)
    | two first second =>
      obtain ⟨hpos, -, -⟩ := first
      simp only at hcode
      omega

/-! ## The readers and the grammar -/

theorem digit?_eq_some_iff {high : Nat} (hhigh : high ≤ 9) {c : Char} {value : Nat} :
    digit? high c = some value ↔ IsDigit high c value := by
  have hzero : '0'.toNat = 48 := rfl
  simp only [digit?, hzero]
  constructor
  · intro h
    split at h
    · rename_i hrange
      obtain rfl := Option.some.inj h
      refine ⟨by omega, hrange.2, Char.toNat_inj.1 ?_⟩
      rw [Nat.toNat_digitChar_of_lt_ten (by omega)]
      omega
    · cases h
  · rintro ⟨hpos, hle, rfl⟩
    rw [Nat.toNat_digitChar_of_lt_ten (by omega), if_pos (by omega), Nat.add_sub_cancel_left]

theorem digit?_eq_none_iff {high : Nat} (hhigh : high ≤ 9) {c : Char} :
    digit? high c = none ↔ ∀ value, ¬ IsDigit high c value := by
  simp only [Option.eq_none_iff_forall_ne_some, ne_eq, digit?_eq_some_iff hhigh]

/-- A length code is read to its end. -/
theorem readCode_sound {first : Nat} {c : Char} (hfirst : IsDigit 9 c first)
    (cs : List Char) :
    ∃ digits, cs = digits ++ (readCode first cs).2 ∧
      IsCode (c :: digits) (readCode first cs).1 ∧
      IsWhole (readCode first cs).1 (readCode first cs).2 := by
  unfold readCode
  split
  · refine ⟨[], rfl, .one hfirst, fun _ _ hnext => ?_⟩
    cases hnext
  · rename_i d rest
    cases hsecond : digit? 9 d with
    | some second =>
      rw [digit?_eq_some_iff (Nat.le_refl 9)] at hsecond
      refine ⟨[d], rfl, ?_, fun hcode => ?_⟩
      · have htwo := IsCode.two hfirst hsecond
        rwa [Nat.mul_comm 10] at htwo
      · have hpos := hfirst.pos
        simp only at hcode
        omega
    | none =>
      refine ⟨[], rfl, .one hfirst, fun _ other hother => ?_⟩
      obtain rfl := Option.some.inj hother
      exact (digit?_eq_none_iff (Nat.le_refl 9)).1 hsecond

theorem readCode_complete {first code : Nat} {c : Char} {digits after : List Char}
    (hfirst : IsDigit 9 c first) (hcode : IsCode (c :: digits) code)
    (hwhole : IsWhole code after) : readCode first (digits ++ after) = (code, after) := by
  have hvalue := (digit?_eq_some_iff (Nat.le_refl 9)).2 hfirst
  cases hcode with
  | one digit =>
    rw [(digit?_eq_some_iff (Nat.le_refl 9)).2 digit] at hvalue
    obtain rfl := Option.some.inj hvalue
    cases after with
    | nil => rfl
    | cons d rest =>
      have hone : code < 10 := by
        have := digit.le
        omega
      have hnone := (digit?_eq_none_iff (Nat.le_refl 9)).2 (hwhole hone d rfl)
      simp [readCode, hnone]
  | two tens units =>
    rw [(digit?_eq_some_iff (Nat.le_refl 9)).2 tens] at hvalue
    obtain rfl := Option.some.inj hvalue
    simp [readCode, (digit?_eq_some_iff (Nat.le_refl 9)).2 units, Nat.mul_comm]

/-- A sharp is read where there is one. -/
theorem readSharp_sound (cs : List Char) :
    cs = sharpSign (readSharp cs).1 ++ (readSharp cs).2 := by
  unfold readSharp
  split <;> rfl

theorem readSharp_complete (sharp : Bool) {c : Char} {octave : Nat} (hfigure : IsDigit 8 c octave)
    (rest : List Char) : readSharp (sharpSign sharp ++ c :: rest) = (sharp, c :: rest) := by
  cases sharp with
  | true => rfl
  | false =>
    have hne : c ≠ '#' := by
      rintro rfl
      have hread := (digit?_eq_some_iff (by omega)).2 hfigure
      cases hread
    unfold readSharp
    simp only [sharpSign, Bool.false_eq_true, if_false, List.nil_append]
    split
    · rename_i heq
      exact absurd (List.cons.inj heq).1 hne
    · rfl

/-- An octave and a length code are read together. -/
theorem readFigures?_sound {cs after : List Char} {octave code : Nat}
    (h : readFigures? cs = some (octave, code, after)) :
    ∃ c digits, cs = c :: digits ++ after ∧ IsDigit 8 c octave ∧ IsCode digits code ∧
      IsWhole code after := by
  unfold readFigures? at h
  split at h
  · rename_i c d rest
    obtain ⟨value, hoctave, h⟩ := Option.bind_eq_some_iff.1 h
    obtain ⟨first, hfirst, h⟩ := Option.bind_eq_some_iff.1 h
    rw [digit?_eq_some_iff (by omega)] at hoctave
    rw [digit?_eq_some_iff (Nat.le_refl 9)] at hfirst
    obtain ⟨more, hrest, hcode, hwhole⟩ := readCode_sound hfirst rest
    cases hread : readCode first rest with
    | mk found left =>
    rw [hread] at h hrest hcode hwhole
    cases h
    exact ⟨c, d :: more, by rw [hrest]; rfl, hoctave, hcode, hwhole⟩
  · cases h

/-- What is read is a note of the grammar, and it is not cut short. -/
theorem readNote?_sound {body after : List Char} {note : Note}
    (h : readNote? body = some (note, after)) :
    ∃ text, body = text ++ after ∧ IsNote text note ∧ IsWhole note.code after := by
  cases body with
  | nil => cases h
  | cons c rest =>
    have hsharp := readSharp_sound rest
    unfold readNote? at h
    obtain ⟨pitch, hpitch, h⟩ := Option.bind_eq_some_iff.1 h
    cases hread : readSharp rest with
    | mk sharp figures =>
    rw [hread] at h hsharp
    obtain ⟨⟨octave, code, left⟩, hfigures, h⟩ := Option.bind_eq_some_iff.1 h
    cases h
    obtain ⟨d, digits, rfl, hoctave, hcode, hwhole⟩ := readFigures?_sound hfigures
    obtain rfl := Pitch.letter_of_ofLetter? hpitch
    refine ⟨_, ?_, .note pitch sharp hoctave hcode, hwhole⟩
    rw [hsharp]
    simp

/-- Every note of the grammar that is not cut short is read as it is. -/
theorem readNote?_complete {text after : List Char} {note : Note} (h : IsNote text note)
    (hwhole : IsWhole note.code after) : readNote? (text ++ after) = some (note, after) := by
  cases h with
  | @note pitch sharp c digits octave code figure length =>
    obtain ⟨d, more, first, rfl, hfirst⟩ :
        ∃ d more first, digits = d :: more ∧ IsDigit 9 d first := by
      cases length with
      | one digit => exact ⟨_, [], _, rfl, digit⟩
      | two first second => exact ⟨_, [_], _, rfl, first⟩
    have hcode := readCode_complete hfirst length hwhole
    have hsharp := readSharp_complete sharp figure (d :: more ++ after)
    rw [List.cons_append, List.append_assoc, List.cons_append, readNote?, Pitch.ofLetter?_letter,
      hsharp]
    simp [readFigures?, (digit?_eq_some_iff (by omega)).2 figure,
      (digit?_eq_some_iff (Nat.le_refl 9)).2 hfirst, hcode]

/-- Where a text begins with a note, the reader finds one. -/
theorem readNote?_of_isNote {text : List Char} {note : Note} (h : IsNote text note)
    (after : List Char) : ∃ found left, readNote? (text ++ after) = some (found, left) := by
  by_cases hwhole : IsWhole note.code after
  · exact ⟨note, after, readNote?_complete h hwhole⟩
  · unfold IsWhole at hwhole
    push Not at hwhole
    obtain ⟨hcode, c, hhead, value, hdigit⟩ := hwhole
    obtain ⟨left, rfl⟩ : ∃ left, after = c :: left := List.head?_eq_some_iff.1 hhead
    -- the note goes on with one more digit, behind which its code is whole
    have hwhole : IsWhole (10 * note.code + value) left := by
      intro hshort
      have hpos := h.bounds.2.1
      omega
    have hlonger := readNote?_complete (h.concat hcode hdigit) hwhole
    rw [List.append_assoc, List.singleton_append] at hlonger
    exact ⟨_, left, hlonger⟩

/-- No note begins where the reader finds none. -/
theorem not_isNote_of_readNote? {text after : List Char} {note : Note}
    (h : readNote? (text ++ after) = none) : ¬ IsNote text note := by
  intro hnote
  obtain ⟨found, left, hread⟩ := readNote?_of_isNote hnote after
  rw [h] at hread
  cases hread

end Chiptune.Notation
