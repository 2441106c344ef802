/-
  Bodies that are put together from two pieces.

  A note goes on, behind its letter, with a sharp and with digits only.  So where a piece begins
  with none of these, no note reaches from the piece before into it, and the notes of both
  are those of the one and then those of the other.  Nothing is asked of the end of the first
  piece: what is unfinished there is no note in the whole body either.
-/
import Chiptune.Proofs.NoteSpelling

set_option autoImplicit false

namespace Chiptune.Notation

/-- Text that no note goes on with: it is empty, or it begins neither with a sharp nor with a
digit from 1 to 9. -/
def IsFreshStart (text : List Char) : Prop :=
  ∀ c ∈ text.head?, c ≠ '#' ∧ ∀ value, ¬ IsDigit 9 c value

theorem isFreshStart_iff {text : List Char} :
    IsFreshStart text ↔ text.head? ≠ some '#' ∧ Digitless text := by
  cases text <;> simp [IsFreshStart, Digitless]

instance (text : List Char) : Decidable (IsFreshStart text) := decidable_of_iff' _ isFreshStart_iff

/-- A length code that is whole stays so when a fresh start follows. -/
theorem IsWhole.append {code : Nat} {after rest : List Char} (h : IsWhole code after)
    (hfresh : IsFreshStart rest) : IsWhole code (after ++ rest) := by
  intro hcode c hhead
  cases after with
  | nil => exact (hfresh c hhead).2
  | cons d after => exact h hcode c hhead

theorem IsCode.digits {digits : List Char} {code : Nat} (h : IsCode digits code) :
    ∀ c ∈ digits, ∃ value, IsDigit 9 c value := by
  cases h with
  | one digit => simpa using ⟨_, digit⟩
  | two first second => simpa using ⟨⟨_, first⟩, ⟨_, second⟩⟩

/-- Behind its letter a note has a sharp and digits only. -/
theorem IsNote.of_mem_tail {text : List Char} {note : Note} (h : IsNote text note) :
    ∀ c ∈ text.tail, c = '#' ∨ ∃ value, IsDigit 9 c value := by
  cases h with
  | @note pitch sharp d digits octave code figure length =>
    intro c hmem
    rw [List.tail_cons, List.mem_append, List.mem_cons] at hmem
    rcases hmem with hsign | rfl | hdigit
    · refine Or.inl ?_
      cases sharp with
      | true => exact List.mem_singleton.1 hsign
      | false => cases hsign
    · obtain ⟨hpos, hle, hspelt⟩ := figure
      exact Or.inr ⟨octave, hpos, by omega, hspelt⟩
    · exact Or.inr (length.digits c hdigit)

/-- No note begins in a text and ends behind it where a fresh start follows. -/
theorem IsNote.isPrefix_of_append {text front rest left : List Char} {note : Note}
    (h : IsNote text note) (hfront : front ≠ []) (hfresh : IsFreshStart rest)
    (hbody : front ++ rest = text ++ left) : ∃ after, front = text ++ after := by
  rcases List.append_eq_append_iff.1 hbody with ⟨inside, rfl, hrest⟩ | ⟨after, rfl, -⟩
  · cases inside with
    | nil => exact ⟨[], by simp⟩
    | cons c inside =>
      -- the first character of the piece behind would stand in the note, but not at its front
      obtain ⟨hsharp, hdigit⟩ := hfresh c (by rw [hrest]; rfl)
      have hmem : c ∈ (front ++ c :: inside).tail := by
        rw [List.tail_append_of_ne_nil hfront]
        exact List.mem_append_right _ List.mem_cons_self
      rcases h.of_mem_tail c hmem with heq | ⟨value, hvalue⟩
      · exact absurd heq hsharp
      · exact absurd hvalue (hdigit value)
  · exact ⟨after, rfl⟩

/-- A note at the front of a text is read in the same way when a fresh start follows. -/
theorem readNote?_append {body after : List Char} {note : Note} (rest : List Char)
    (hfresh : IsFreshStart rest) (h : readNote? body = some (note, after)) :
    readNote? (body ++ rest) = some (note, after ++ rest) := by
  obtain ⟨text, rfl, hnote, hwhole⟩ := readNote?_sound h
  rw [List.append_assoc]
  exact readNote?_complete hnote (hwhole.append hfresh)

/-- Where there is no note, there is none when a fresh start follows. -/
theorem readNote?_append_of_none {c : Char} {body rest : List Char} (hfresh : IsFreshStart rest)
    (h : readNote? (c :: body) = none) : readNote? (c :: (body ++ rest)) = none := by
  refine Option.eq_none_iff_forall_ne_some.2 ?_
  rintro ⟨note, left⟩ hread
  obtain ⟨text, hbody, hnote, -⟩ := readNote?_sound hread
  obtain ⟨after, hfront⟩ :=
    hnote.isPrefix_of_append (List.cons_ne_nil c body) hfresh hbody
  exact not_isNote_of_readNote? (hfront ▸ h) hnote

/-- The notes of characters in two pieces. -/
theorem scan_append_of_isFreshStart (front : List Char) {rest : List Char}
    (hfresh : IsFreshStart rest) : scan (front ++ rest) = scan front ++ scan rest := by
  -- the recursion of the scanner on the first piece
  fun_induction scan front with
  | case1 => rfl
  | case2 c body note after hread ih =>
    rw [scan_of_readNote? (readNote?_append rest hfresh hread), ih]
    rfl
  | case3 c body hnone ih =>
    rw [List.cons_append, scan_cons_of_none (readNote?_append_of_none hfresh hnone), ih]

/-- **Bodies may be cut where a piece begins with neither a sharp nor a digit.**  The notes of two
texts, one behind the other, are the notes of the first one and then those of the second one,
whatever the first one ends with; and so it is when they are read byte by byte. -/
theorem scan_pieces (first second : String) (hfresh : IsFreshStart second.toList) :
    scan (first ++ second).toList = scan first.toList ++ scan second.toList ∧
      scanBytes (first ++ second).toUTF8.data.toList =
        scanBytes first.toUTF8.data.toList ++ scanBytes second.toUTF8.data.toList := by
  have hscan : scan (first ++ second).toList = scan first.toList ++ scan second.toList := by
    rw [String.toList_append]
    exact scan_append_of_isFreshStart first.toList hfresh
  refine ⟨hscan, ?_⟩
  rw [scanBytes_toUTF8, scanBytes_toUTF8, scanBytes_toUTF8, hscan]

/-- The first piece ends within a note, behind its sharp, and the second one begins with a letter
beyond ASCII. -/
theorem scan_pieces_unfinishedNote :
    IsFreshStart "é44B12".toList ∧
      scan ("A48C#" ++ "é44B12").toList = [⟨.a, false, 4, 8⟩, ⟨.b, false, 1, 2⟩] := by
  have hfresh : IsFreshStart "é44B12".toList := by decide +kernel
  refine ⟨hfresh, ?_⟩
  rw [(scan_pieces "A48C#" "é44B12" hfresh).1]
  decide +kernel

/-- Before a digit the notes may change, since the length code of the last note goes on. -/
example : scan ['A', '4', '8', '9'] ≠ scan ['A', '4', '8'] ++ scan ['9'] := by decide +kernel

end Chiptune.Notation
