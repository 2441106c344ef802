/-
  Where the notes of a body stand.

  The scanner takes the notes of the grammar from left to right, each of them as long as
  it can be.  So the notes it gives stand in spans that do not overlap; and no note of the
  grammar begins outside of them.  There is only one list of notes of which this can be said.
-/
import Chiptune.Proofs.NoteGrammar
import Chiptune.Proofs.Outcomes
import Chiptune.Proofs.ScanBytes

set_option autoImplicit false

namespace Chiptune.Notation

/-! ## Spans -/

/-- The characters from `start` on and before `stop`. -/
structure Span where
  start : Nat
  stop : Nat
  deriving DecidableEq, Repr

namespace Span

/-- What stands in a span. -/
def text (span : Span) (body : List Char) : List Char := body.extract span.start span.stop

/-- The same span where the text begins later. -/
def shift (offset : Nat) (span : Span) : Span := ⟨offset + span.start, offset + span.stop⟩

theorem text_shift (front body : List Char) (span : Span) :
    (span.shift front.length).text (front ++ body) = span.text body := by
  simp only [text, shift, List.extract_eq_take_drop, List.drop_length_add_append,
    Nat.add_sub_add_left]

/-- A span behind an offset is one that has been shifted. -/
theorem exists_shift {offset : Nat} {span : Span} (hle : offset ≤ span.start)
    (hlt : span.start < span.stop) : ∃ inner : Span, span = inner.shift offset := by
  refine ⟨⟨span.start - offset, span.stop - offset⟩, ?_⟩
  rw [shift, Nat.add_sub_cancel' hle,
    Nat.add_sub_cancel' (Nat.le_of_lt (Nat.lt_of_le_of_lt hle hlt))]

theorem exists_map_shift {offset : Nat} {spans : List Span}
    (h : ∀ span ∈ spans, offset ≤ span.start ∧ span.start < span.stop) :
    ∃ inner : List Span, spans = inner.map (shift offset) := by
  induction spans with
  | nil => exact ⟨[], rfl⟩
  | cons span spans ih =>
    obtain ⟨⟨hle, hlt⟩, hspans⟩ := List.forall_mem_cons.1 h
    obtain ⟨first, rfl⟩ := exists_shift hle hlt
    obtain ⟨inner, rfl⟩ := ih hspans
    exact ⟨first :: inner, rfl⟩

end Span

/-- A position lies in one of the spans. -/
def Covered (spans : List Span) (position : Nat) : Prop :=
  ∃ span ∈ spans, span.start ≤ position ∧ position < span.stop

theorem covered_map_shift {offset position : Nat} {spans : List Span} :
    Covered (spans.map (Span.shift offset)) (offset + position) ↔ Covered spans position := by
  simp [Covered, Span.shift]

/-- A note stands in a span of a body. -/
structure Spells (body : List Char) (span : Span) (note : Note) : Prop where
  within : span.stop ≤ body.length
  text : IsNote (span.text body) note

/-- A note stands in a span, and its length code is not cut short. -/
structure Takes (body : List Char) (span : Span) (note : Note) : Prop extends
    Spells body span note where
  whole : IsWhole note.code (body.drop span.stop)

/-- The notes of a body, from left to right and as long as they can be. -/
structure Leftmost (body : List Char) (spans : List Span) (notes : List Note) : Prop where
  /-- The spans do not overlap, and they are in order. -/
  ordered : spans.Pairwise fun span later => span.stop ≤ later.start
  /-- Each span holds its note, with the second digit of the length code if there is one. -/
  takes : List.Forall₂ (Takes body) spans notes
  /-- No note begins outside of the spans. -/
  complete : ∀ span note, Spells body span note → Covered spans span.start

section

variable {front body text after : List Char} {span : Span} {spans : List Span} {note : Note}
  {notes : List Note}

/-- A span with a note is not empty. -/
theorem Spells.start_lt_stop (h : Spells body span note) : span.start < span.stop := by
  by_contra hge
  refine h.text.ne_nil ?_
  rw [Span.text, List.extract_eq_take_drop, Nat.sub_eq_zero_of_le (Nat.le_of_not_lt hge)]
  rfl

theorem spells_shift : Spells (front ++ body) (span.shift front.length) note ↔
    Spells body span note := by
  constructor
  · rintro ⟨hwithin, htext⟩
    rw [Span.text_shift] at htext
    refine ⟨?_, htext⟩
    simp only [Span.shift, List.length_append] at hwithin
    omega
  · rintro ⟨hwithin, htext⟩
    refine ⟨?_, by rwa [Span.text_shift]⟩
    simp only [Span.shift, List.length_append]
    omega

theorem takes_shift : Takes (front ++ body) (span.shift front.length) note ↔
    Takes body span note := by
  have hdrop : (front ++ body).drop (span.shift front.length).stop = body.drop span.stop :=
    List.drop_length_add_append _
  constructor
  · rintro ⟨hspells, hwhole⟩
    exact ⟨spells_shift.1 hspells, by rwa [hdrop] at hwhole⟩
  · rintro ⟨hspells, hwhole⟩
    exact ⟨spells_shift.2 hspells, by rwa [hdrop]⟩

/-- A note at the front of a text is one that the text begins with. -/
theorem spells_front : Spells (text ++ after) ⟨0, text.length⟩ note ↔ IsNote text note := by
  have hfront : (Span.mk 0 text.length).text (text ++ after) = text := by
    simp [Span.text]
  constructor
  · rintro ⟨-, htext⟩
    rwa [hfront] at htext
  · intro htext
    exact ⟨by simp, by rwa [hfront]⟩

/-- Behind some other text the notes stand in the same places, shifted. -/
theorem leftmost_iff_shift (front : List Char) : Leftmost body spans notes ↔
    ((spans.map (Span.shift front.length)).Pairwise fun span later => span.stop ≤ later.start) ∧
      List.Forall₂ (Takes (front ++ body)) (spans.map (Span.shift front.length)) notes ∧
      ∀ (span : Span) (note : Note), Spells (front ++ body) (span.shift front.length) note →
        Covered (spans.map (Span.shift front.length)) (front.length + span.start) := by
  simp only [List.forall₂_map_left_iff, takes_shift, spells_shift, covered_map_shift]
  simp only [List.pairwise_map, Span.shift, Nat.add_le_add_iff_left]
  exact ⟨fun h => ⟨h.ordered, h.takes, h.complete⟩, fun ⟨hordered, htakes, hcomplete⟩ =>
    ⟨hordered, htakes, hcomplete⟩⟩

/-- The notes that can be taken at the front of a body are one and the same. -/
theorem Takes.front_unique {stop : Nat} {found : Note} (h : Takes (text ++ after) ⟨0, stop⟩ found)
    (hnote : IsNote text note) (hwhole : IsWhole note.code after) :
    stop = text.length ∧ found = note := by
  have hbody : (Span.mk 0 stop).text (text ++ after) ++ (text ++ after).drop stop =
      text ++ after := by
    simp [Span.text]
  have hread := readNote?_complete h.text h.whole
  rw [hbody, readNote?_complete hnote hwhole] at hread
  obtain ⟨rfl, hafter⟩ := Prod.mk.inj (Option.some.inj hread)
  have hlength := congrArg List.length hafter
  have hwithin := h.within
  simp only [List.length_drop, List.length_append] at hlength hwithin
  exact ⟨by omega, rfl⟩

/-- The empty body has no notes. -/
theorem leftmost_nil_iff : Leftmost [] spans notes ↔ spans = [] ∧ notes = [] := by
  have hnone : ∀ span note, ¬ Spells [] span note := by
    intro span note h
    refine h.text.ne_nil ?_
    simp [Span.text]
  constructor
  · intro h
    cases h.takes with
    | nil => exact ⟨rfl, rfl⟩
    | cons hfirst => exact absurd hfirst.toSpells (hnone _ _)
  · rintro ⟨rfl, rfl⟩
    exact ⟨.nil, .nil, fun span note h => absurd h (hnone span note)⟩

/-- Where no note is at the front, the notes are those behind the first character. -/
theorem leftmost_skip_iff {c : Char} {rest : List Char} (h : readNote? (c :: rest) = none) :
    Leftmost (c :: rest) spans notes ↔
      ∃ inner : List Span, spans = inner.map (Span.shift 1) ∧ Leftmost rest inner notes := by
  have hbehind : ∀ span note, Spells (c :: rest) span note → 1 ≤ span.start := by
    rintro ⟨start, stop⟩ note ⟨-, htext⟩
    by_contra hlt
    obtain rfl : start = 0 := by simpa using hlt
    have hbody : (Span.mk 0 stop).text (c :: rest) ++ (c :: rest).drop stop = c :: rest := by
      simp [Span.text]
    exact not_isNote_of_readNote? (hbody.symm ▸ h) htext
  constructor
  · intro hleft
    obtain ⟨inner, rfl⟩ : ∃ inner : List Span, spans = inner.map (Span.shift 1) := by
      refine Span.exists_map_shift fun span hmem => ?_
      obtain ⟨note, -, htakes⟩ := exists_of_mem_forall₂ hleft.takes hmem
      exact ⟨hbehind span note htakes.toSpells, htakes.start_lt_stop⟩
    refine ⟨inner, rfl, (leftmost_iff_shift [c]).2 ⟨hleft.ordered, hleft.takes, ?_⟩⟩
    exact fun span note hspells => hleft.complete _ note hspells
  · rintro ⟨inner, rfl, hinner⟩
    obtain ⟨hordered, htakes, hcomplete⟩ := (leftmost_iff_shift [c]).1 hinner
    refine ⟨hordered, htakes, fun span note hspells => ?_⟩
    obtain ⟨shifted, rfl⟩ :=
      Span.exists_shift (hbehind span note hspells) hspells.start_lt_stop
    exact hcomplete shifted note hspells

/-- Where a note is read at the front, it is the first one, and the others are behind it. -/
theorem leftmost_take_iff (hnote : IsNote text note) (hwhole : IsWhole note.code after) :
    Leftmost (text ++ after) spans notes ↔
      ∃ inner others, spans = ⟨0, text.length⟩ :: inner.map (Span.shift text.length) ∧
        notes = note :: others ∧ Leftmost after inner others := by
  have hfront : Spells (text ++ after) ⟨0, text.length⟩ note := spells_front.2 hnote
  constructor
  · rintro ⟨hordered, htakes, hcomplete⟩
    obtain ⟨first, hfirst, hstart, -⟩ := hcomplete _ note hfront
    cases htakes with
    | nil => cases hfirst
    | @cons span found spans others hfound hothers =>
    have hbehind := (List.pairwise_cons.1 hordered).1
    -- the span in which the front of the body lies is the first one
    have hzero : span.start = 0 := by
      rcases List.mem_cons.1 hfirst with rfl | hmem
      · exact Nat.le_zero.1 hstart
      · have hle : span.stop ≤ 0 := Nat.le_trans (hbehind first hmem) hstart
        have hlt := hfound.start_lt_stop
        omega
    obtain ⟨_, stop⟩ := span
    obtain rfl := hzero
    obtain ⟨rfl, rfl⟩ := hfound.front_unique hnote hwhole
    obtain ⟨inner, rfl⟩ : ∃ inner : List Span, spans = inner.map (Span.shift text.length) := by
      refine Span.exists_map_shift fun span hmem => ?_
      obtain ⟨_, -, hspan⟩ := exists_of_mem_forall₂ hothers hmem
      exact ⟨hbehind span hmem, hspan.start_lt_stop⟩
    refine ⟨inner, others, rfl, rfl, (leftmost_iff_shift text).2 ⟨hordered.of_cons, hothers, ?_⟩⟩
    intro span other hspells
    obtain ⟨cover, hmem, hcover⟩ := hcomplete _ other hspells
    rcases List.mem_cons.1 hmem with rfl | hmem
    · exact absurd hcover.2 (Nat.not_lt.2 (Nat.le_add_right _ _))
    · exact ⟨cover, hmem, hcover⟩
  · rintro ⟨inner, others, rfl, rfl, hinner⟩
    obtain ⟨hordered, htakes, hcomplete⟩ := (leftmost_iff_shift text).1 hinner
    refine ⟨List.pairwise_cons.2 ⟨?_, hordered⟩, .cons ⟨hfront, by simpa using hwhole⟩ htakes, ?_⟩
    · intro span hmem
      obtain ⟨shifted, -, rfl⟩ := List.mem_map.1 hmem
      exact Nat.le_add_right _ _
    · intro span other hspells
      rcases Nat.lt_or_ge span.start text.length with hlt | hle
      · exact ⟨_, List.mem_cons_self, Nat.zero_le _, hlt⟩
      · obtain ⟨shifted, rfl⟩ := Span.exists_shift hle hspells.start_lt_stop
        obtain ⟨found, hmem, hcover⟩ := hcomplete shifted other hspells
        exact ⟨found, List.mem_cons_of_mem _ hmem, hcover⟩

end

/-! ## The scanner -/

/-- The scanner gives the leftmost notes, and there are no other ones. -/
theorem scan_eq_iff (body : List Char) (notes : List Note) :
    scan body = notes ↔ ∃ spans, Leftmost body spans notes := by
  -- the recursion of the scanner: the end of the body, a note at its front, and none
  fun_induction scan body generalizing notes with
  | case1 =>
    simp only [leftmost_nil_iff]
    constructor
    · rintro rfl
      exact ⟨[], rfl, rfl⟩
    · rintro ⟨spans, -, rfl⟩
      rfl
  | case2 c rest note after hread ih =>
    obtain ⟨text, hbody, hnote, hwhole⟩ := readNote?_sound hread
    simp only [hbody, leftmost_take_iff hnote hwhole]
    constructor
    · rintro rfl
      obtain ⟨inner, hinner⟩ := (ih (scan after)).1 rfl
      exact ⟨_, inner, scan after, rfl, rfl, hinner⟩
    · rintro ⟨spans, inner, others, rfl, rfl, hinner⟩
      rw [(ih others).2 ⟨inner, hinner⟩]
  | case3 c rest hnone ih =>
    simp only [leftmost_skip_iff hnone, ih]
    constructor
    · rintro ⟨inner, hinner⟩
      exact ⟨_, inner, rfl, hinner⟩
    · rintro ⟨spans, inner, rfl, hinner⟩
      exact ⟨inner, hinner⟩

/-- **The notes of a text are its leftmost notes.** They stand in spans that do not overlap,
each of them as long as it can be, and no note of the grammar begins outside of the spans.
So the octaves go from 1 to 8 and the length codes from 1 to 99, without a zero.  A scanner
that goes over the bytes of the text, and takes each of them for a character, gives the same
notes. -/
theorem scan_leftmost (body : String) :
    (∀ notes, scan body.toList = notes ↔ ∃ spans, Leftmost body.toList spans notes) ∧
      (∀ note ∈ scan body.toList, (1 ≤ note.octave ∧ note.octave ≤ 8) ∧ 1 ≤ note.code ∧
        note.code ≤ 99 ∧ 0 ∉ Nat.digits 10 note.code) ∧
      scanBytes body.toUTF8.data.toList = scan body.toList := by
  refine ⟨scan_eq_iff body.toList, fun note hmem => ?_, scanBytes_toUTF8 body⟩
  obtain ⟨spans, hleft⟩ := (scan_eq_iff body.toList _).1 rfl
  obtain ⟨span, -, htakes⟩ := exists_of_mem_forall₂ hleft.takes.flip hmem
  exact htakes.text.bounds

end Chiptune.Notation
