/-
  Notes that are written down.

  A note is spelt as the grammar says, and where the next note begins, the last one is not cut
  short.  So notes may be written one after the other, without anything between them or with
  any text in which no note begins, and they are read as they were written.
-/
import Chiptune.Proofs.NoteSpans

set_option autoImplicit false

namespace Chiptune.Notation

/-! ## Spelling -/

/-- The notes that the notation has a text for. -/
structure IsWritable (note : Note) : Prop where
  octave : 1 ≤ note.octave ∧ note.octave ≤ 8
  code : 1 ≤ note.code ∧ note.code ≤ 99
  noZero : 0 ∉ Nat.digits 10 note.code

instance (note : Note) : Decidable (IsWritable note) :=
  decidable_of_iff ((1 ≤ note.octave ∧ note.octave ≤ 8) ∧ (1 ≤ note.code ∧ note.code ≤ 99) ∧
      0 ∉ Nat.digits 10 note.code)
    ⟨fun ⟨octave, code, noZero⟩ => ⟨octave, code, noZero⟩, fun h => ⟨h.octave, h.code, h.noZero⟩⟩

theorem isDigit_digitChar {high value : Nat} (hpos : 1 ≤ value) (hle : value ≤ high) :
    IsDigit high (Nat.digitChar value) value :=
  ⟨hpos, hle, rfl⟩

/-- A length code is spelt with one digit or with two. -/
theorem isCode_digitsOf {code : Nat} (hpos : 1 ≤ code) (hle : code ≤ 99)
    (hzero : 0 ∉ Nat.digits 10 code) : IsCode (Decimal.digitsOf code) code := by
  rw [Decimal.digitsOf]
  rcases Nat.lt_or_ge code 10 with hlt | hge
  · rw [Nat.toDigits_of_lt_base hlt]
    exact .one (isDigit_digitChar hpos (by omega))
  · have hunits : code % 10 ≠ 0 := by
      intro heq
      refine hzero ?_
      rw [Nat.digits_def' (by omega) (by omega), heq]
      exact List.mem_cons_self
    rw [Nat.toDigits_of_base_le (by omega) hge, Nat.toDigits_of_lt_base (by omega)]
    have htens : IsDigit 9 (Nat.digitChar (code / 10)) (code / 10) :=
      isDigit_digitChar (by omega) (by omega)
    have hones : IsDigit 9 (Nat.digitChar (code % 10)) (code % 10) :=
      isDigit_digitChar (by omega) (by omega)
    have hcode := IsCode.two htens hones
    rwa [Nat.div_add_mod] at hcode

/-- The spelling of a note is a text of the grammar. -/
theorem isNote_spell {note : Note} (h : IsWritable note) : IsNote note.spell note := by
  obtain ⟨pitch, sharp, octave, code⟩ := note
  obtain ⟨⟨hlow, hhigh⟩, ⟨hpos, hle⟩, hzero⟩ := h
  have hoctave : Decimal.digitsOf octave = [Nat.digitChar octave] :=
    Nat.toDigits_of_lt_base (Nat.lt_succ_of_le (Nat.le_trans hhigh (by decide)))
  have hnote := IsNote.note pitch sharp (isDigit_digitChar hlow hhigh)
    (isCode_digitsOf hpos hle hzero)
  simpa [Note.spell, hoctave, sharpSign] using hnote

/-- Notes that are read can be written. -/
theorem isWritable_of_mem_scan {body : List Char} {note : Note} (h : note ∈ scan body) :
    IsWritable note := by
  obtain ⟨spans, hleft⟩ := (scan_eq_iff body _).1 rfl
  obtain ⟨span, -, htakes⟩ := exists_of_mem_forall₂ hleft.takes.flip h
  obtain ⟨hoctave, hpos, hle, hzero⟩ := htakes.text.bounds
  exact ⟨hoctave, ⟨hpos, hle⟩, hzero⟩

/-! ## Text around notes -/

/-- The letters with which notes begin. -/
def noteLetters : List Char := Pitch.all.map Pitch.letter

/-- Text in which no note begins. -/
def Letterless (text : List Char) : Prop := ∀ c ∈ text, c ∉ noteLetters

instance (text : List Char) : Decidable (Letterless text) :=
  List.decidableBAll (fun c => c ∉ noteLetters) text

/-- Text that does not begin with a digit from 1 to 9. -/
def Digitless (text : List Char) : Prop := ∀ c ∈ text.head?, ∀ value, ¬ IsDigit 9 c value

theorem digitless_iff {text : List Char} :
    (text.head?.all fun c => (digit? 9 c).isNone) = true ↔ Digitless text := by
  cases text <;> simp [Digitless, digit?_eq_none_iff]

instance (text : List Char) : Decidable (Digitless text) := decidable_of_iff _ digitless_iff

theorem ofLetter?_eq_none {c : Char} (h : c ∉ noteLetters) : Pitch.ofLetter? c = none := by
  refine Option.eq_none_iff_forall_ne_some.2 fun pitch hpitch => h ?_
  obtain rfl := Pitch.letter_of_ofLetter? hpitch
  exact List.mem_map_of_mem (by cases pitch <;> decide)

theorem digitless_letter (pitch : Pitch) (rest : List Char) :
    Digitless (pitch.letter :: rest) := by
  intro c hc value hdigit
  obtain rfl := Option.some.inj hc
  have hread := (digit?_eq_some_iff (Nat.le_refl 9)).2 hdigit
  cases pitch <;> cases hread

/-- Notes with texts behind them. -/
def interleaved (line : List (Note × List Char)) : List Char :=
  line.flatMap fun item => item.1.spell ++ item.2

/-- No digit follows a note. -/
theorem digitless_append {text : List Char} (h : Digitless text)
    (line : List (Note × List Char)) : Digitless (text ++ interleaved line) := by
  cases text with
  | cons c rest => exact h
  | nil =>
    cases line with
    | nil => exact h
    | cons item line =>
      rw [List.nil_append, interleaved, List.flatMap_cons, Note.spell]
      exact digitless_letter _ _

/-- Notes with texts behind them are read as they were written. -/
theorem scan_interleaved {line : List (Note × List Char)}
    (h : ∀ item ∈ line, IsWritable item.1 ∧ Letterless item.2 ∧ Digitless item.2) :
    scan (interleaved line) = line.map (·.1) := by
  induction line with
  | nil => exact scan_nil
  | cons item line ih =>
    obtain ⟨note, text⟩ := item
    obtain ⟨⟨hnote, hletterless, hdigitless⟩, hline⟩ := List.forall_mem_cons.1 h
    have hwhole : IsWhole note.code (text ++ interleaved line) :=
      fun _ => digitless_append hdigitless line
    have hread := readNote?_complete (isNote_spell hnote) hwhole
    have hbody : interleaved ((note, text) :: line) =
        note.spell ++ (text ++ interleaved line) := by
      rw [interleaved, List.flatMap_cons, List.append_assoc]
      rfl
    rw [hbody, scan_of_readNote? hread,
      scan_append_of_letterless fun c hmem => ofLetter?_eq_none (hletterless c hmem), ih hline]
    rfl

/-- **Notes are read as they are written**, whatever stands between them, as long as no
letter of a note is in it and none of it can be taken for the digit of a length code.  So the
notes of any body, written one behind the other, are the notes of a body. -/
theorem scan_decorated :
    (∀ (front : List Char) (line : List (Note × List Char)), Letterless front →
      (∀ item ∈ line, IsWritable item.1 ∧ Letterless item.2 ∧ Digitless item.2) →
      scan (front ++ interleaved line) = line.map (·.1)) ∧
    ∀ body, scan ((scan body).flatMap Note.spell) = scan body := by
  refine ⟨fun front line hfront hline => ?_, fun body => ?_⟩
  · rw [scan_append_of_letterless fun c hmem => ofLetter?_eq_none (hfront c hmem)]
    exact scan_interleaved hline
  · have hline : ∀ item ∈ (scan body).map fun note => (note, ([] : List Char)),
        IsWritable item.1 ∧ Letterless item.2 ∧ Digitless item.2 := by
      intro item hmem
      obtain ⟨note, hnote, rfl⟩ := List.mem_map.1 hmem
      exact ⟨isWritable_of_mem_scan hnote, List.forall_mem_nil _, fun _ hc => absurd hc (by simp)⟩
    have hscan := scan_interleaved hline
    simpa [interleaved, List.flatMap_map, Function.comp_def] using hscan

/-- Notes with one digit and with two, next to each other and with other characters around
them, a sharp and digits among them. -/
theorem scan_decorated_noisyLine :
    Letterless ['7', 'é', '#', '1'] ∧
      (∀ item ∈ [(⟨.a, true, 8, 99⟩, ['0', 'é', '9']), (⟨.rest, false, 1, 1⟩, []),
          (⟨.c, false, 4, 2⟩, ['#', '4', '4'])],
        IsWritable item.1 ∧ Letterless item.2 ∧ Digitless item.2) ∧
      scan (['7', 'é', '#', '1'] ++ interleaved
          [(⟨.a, true, 8, 99⟩, ['0', 'é', '9']), (⟨.rest, false, 1, 1⟩, []),
            (⟨.c, false, 4, 2⟩, ['#', '4', '4'])]) =
        [⟨.a, true, 8, 99⟩, ⟨.rest, false, 1, 1⟩, ⟨.c, false, 4, 2⟩] := by
  have hfront : Letterless ['7', 'é', '#', '1'] := by decide
  have hline : ∀ item ∈ [((⟨.a, true, 8, 99⟩ : Note), ['0', 'é', '9']),
      (⟨.rest, false, 1, 1⟩, []), (⟨.c, false, 4, 2⟩, ['#', '4', '4'])],
      IsWritable item.1 ∧ Letterless item.2 ∧ Digitless item.2 := by
    decide
  exact ⟨hfront, hline, scan_decorated.1 _ _ hfront hline⟩

end Chiptune.Notation
