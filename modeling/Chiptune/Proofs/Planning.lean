/-
  What becomes of a track that is asked for.

  A part may fail by its header, by its instrument or by its tempo, and is looked at in this
  order; a track fails by the first of its parts that does.  Otherwise each part gets
  its instrument and its tones, one for each of its notes, and it makes no difference that the
  tempo is looked at once for all of them.
-/
import Chiptune.Proofs.Outcomes
import Chiptune.Songbook.Plan

set_option autoImplicit false

namespace Chiptune

/-! ## Headers -/

namespace Notation

/-- A text is the id of an instrument with a body behind it. -/
structure Splits (text id body : String) : Prop where
  header : isHeaderText id = true
  text : text = id ++ body

variable {text id body : String}

/-- Behind the id of an instrument there may be any body. -/
theorem Splits.parse (h : Splits text id body) :
    Part.parse text = .ok ⟨id, scan body.toList⟩ := by
  obtain ⟨hheader, rfl⟩ := h
  have hlength : id.toList.length = headerLength :=
    beq_iff_eq.1 (Bool.and_eq_true_iff.1 hheader).1
  have htake : (id ++ body).toList.take headerLength = id.toList := by
    rw [String.toList_append, ← hlength, List.take_left]
  have hdrop : (id ++ body).toList.drop headerLength = body.toList := by
    rw [String.toList_append, ← hlength, List.drop_left]
  rw [isHeaderText] at hheader
  rw [Part.parse, htake, hdrop, if_pos hheader, String.ofList_toList]

/-- Whatever is read has an id in front, and the notes are those behind it. -/
theorem parse_eq_ok_iff {part : Part} :
    Part.parse text = .ok part ↔
      ∃ body, Splits text part.instrumentId body ∧ part.notes = scan body.toList := by
  constructor
  · intro h
    rw [Part.parse] at h
    split at h
    · rename_i hheader
      cases h
      refine ⟨String.ofList (text.toList.drop headerLength), ⟨?_, ?_⟩, ?_⟩
      · rw [isHeaderText, String.toList_ofList]
        exact hheader
      · rw [← String.ofList_append, List.take_append_drop, String.ofList_toList]
      · rw [String.toList_ofList]
    · cases h
  · rintro ⟨body, hsplits, hnotes⟩
    rw [hsplits.parse, ← hnotes]

/-- Where there is no id in front, the whole text is given back. -/
theorem parse_eq_error_iff {error : MusicError} :
    Part.parse text = .error error ↔
      error = .malformedPart text ∧ ¬ ∃ id body, Splits text id body := by
  constructor
  · intro h
    refine ⟨?_, ?_⟩
    · rw [Part.parse] at h
      split at h
      · cases h
      · cases h
        rfl
    · rintro ⟨id, body, hsplits⟩
      rw [hsplits.parse] at h
      cases h
  · rintro ⟨rfl, hnone⟩
    cases hparse : Part.parse text with
    | ok part =>
      obtain ⟨body, hsplits, -⟩ := parse_eq_ok_iff.1 hparse
      exact absurd ⟨_, _, hsplits⟩ hnone
    | error error =>
      rw [Part.parse] at hparse
      split at hparse
      · cases hparse
      · rw [← hparse]

end Notation

/-! ## Tempo -/

/-- A tempo is a positive finite number of beats per minute. -/
def IsTempo (bpm : Float) : Prop := bpm.isFinite = true ∧ 0 < bpm

instance (bpm : Float) : Decidable (IsTempo bpm) := inferInstanceAs (Decidable (_ ∧ _))

theorem beatLength_eq (bpm : Float) :
    beatLength bpm = if IsTempo bpm then .ok (60 / bpm) else .error (.invalidTempo bpm) := by
  rw [beatLength]
  exact if_congr (by simp [IsTempo]) rfl rfl

/-- A tone is what becomes of a note at a tempo: its frequency is that of the note, and its
length is, to the bit, that of the note on its own. -/
structure Sounds (bpm : Float) (note : Note) (tone : Tone) : Prop where
  hz : tone.hz = note.hz
  seconds : ∃ length, note.seconds bpm = .ok length ∧ tone.seconds = .ofFloat length

/-- At a tempo there is one tone that a note becomes. -/
theorem sounds_iff {bpm : Float} (htempo : IsTempo bpm) {note : Note} {tone : Tone} :
    Sounds bpm note tone ↔
      ⟨note.hz, .ofFloat (Beats.toFloat (beatsOf note.code) * (60 / bpm))⟩ = tone := by
  have hseconds : note.seconds bpm = .ok (Beats.toFloat (beatsOf note.code) * (60 / bpm)) := by
    rw [Note.seconds, codeLength, beatLength_eq, if_pos htempo]
    rfl
  constructor
  · rintro ⟨hhz, length, hlength, htone⟩
    rw [hseconds] at hlength
    cases hlength
    rw [← hhz, ← htone]
  · rintro rfl
    exact ⟨rfl, _, hseconds, rfl⟩

/-- Several notes become tones as each of them would, if there is a tempo, even where there is no
note. -/
theorem tonesOf_eq_ok_iff {notes : List Note} {bpm : Float} {tones : List Tone} :
    tonesOf notes bpm = .ok tones ↔ IsTempo bpm ∧ List.Forall₂ (Sounds bpm) notes tones := by
  rw [tonesOf, beatLength_eq]
  by_cases htempo : IsTempo bpm
  · have hsounds : List.Forall₂ (Sounds bpm) notes tones ↔ (notes.map fun note =>
        ⟨note.hz, .ofFloat (Beats.toFloat (beatsOf note.code) * (60 / bpm))⟩) = tones := by
      rw [← List.forall₂_eq_eq_eq, List.forall₂_map_left_iff]
      exact iff_of_eq (congrArg (List.Forall₂ · notes tones)
        (funext fun note => funext fun tone => propext (sounds_iff htempo)))
    rw [hsounds, if_pos htempo]
    constructor
    · intro h
      exact ⟨htempo, Except.ok.inj h⟩
    · rintro ⟨-, rfl⟩
      rfl
  · rw [if_neg htempo]
    constructor
    · rintro ⟨⟩
    · rintro ⟨h, -⟩
      exact absurd h htempo

theorem tonesOf_eq_error_iff {notes : List Note} {bpm : Float} {error : MusicError} :
    tonesOf notes bpm = .error error ↔ ¬ IsTempo bpm ∧ error = .invalidTempo bpm := by
  rw [tonesOf, beatLength_eq]
  by_cases htempo : IsTempo bpm
  · rw [if_pos htempo]
    constructor
    · rintro ⟨⟩
    · rintro ⟨h, -⟩
      exact absurd htempo h
  · rw [if_neg htempo]
    constructor
    · rintro ⟨⟩
      exact ⟨htempo, rfl⟩
    · rintro ⟨-, rfl⟩
      rfl

/-! ## Instruments -/

/-- What stands under a name is one of the entries. -/
theorem Table.mem_of_get? {α : Type} {table : Table α} {name : String} {value : α}
    (h : table.get? name = some value) : (name, value) ∈ table.entries := by
  obtain ⟨before, after, heq, -⟩ := List.lookup_eq_some_iff.1 h
  rw [heq]
  exact List.mem_append_right _ List.mem_cons_self

/-- The instruments of a songbook that is fit for use have proper ids and no flaws. -/
theorem Songbook.fit_of_validate {book : Songbook} (hvalid : book.validate = .ok ()) {id : String}
    {instrument : Instrument} (hfound : book.instruments.get? id = some instrument) :
    Notation.isHeaderText id = true ∧ instrument.flaw? = none := by
  unfold Songbook.validate at hvalid
  split at hvalid
  · cases hvalid
  · rename_i hnone
    have herror := List.findSome?_eq_none_iff.1 hnone _ (Table.mem_of_get? hfound)
    simp only [instrumentError?] at herror
    split at herror
    · rename_i hid
      exact ⟨hid, Option.map_eq_none_iff.1 herror⟩
    · cases herror

/-! ## Parts -/

namespace Songbook

open Notation

/-- What is wrong with a part: that no id stands in front, or else that there is no instrument
of this id, or else that the tempo is none. -/
inductive PartFlaw (book : Songbook) (bpm : Float) (text : String) : MusicError → Prop where
  | header (hnone : ¬ ∃ id body, Splits text id body) : PartFlaw book bpm text (.malformedPart text)
  | instrument {id body : String} (hsplits : Splits text id body)
      (hnone : book.instruments.get? id = none) : PartFlaw book bpm text (.unknownInstrument id)
  | tempo {id body : String} {instrument : Instrument} (hsplits : Splits text id body)
      (hfound : book.instruments.get? id = some instrument) (hnone : ¬ IsTempo bpm) :
      PartFlaw book bpm text (.invalidTempo bpm)

/-- A part with what it needs: the instrument under its id, and a tone for each note of its body,
in order. -/
structure Plans (book : Songbook) (bpm : Float) (text : String) (part : PlannedPart) : Prop where
  instrument : book.instruments.get? part.instrumentId = some part.instrument
  tempo : IsTempo bpm
  tones : ∃ body, Splits text part.instrumentId body ∧
    List.Forall₂ (Sounds bpm) (scan body.toList) part.tones

variable {book : Songbook} {bpm : Float} {text name : String} {error : MusicError}

theorem instrument_eq_ok_iff {id : String} {instrument : Instrument} :
    book.instrument id = .ok instrument ↔ book.instruments.get? id = some instrument := by
  rw [Songbook.instrument]
  cases book.instruments.get? id <;> simp

theorem instrument_eq_error_iff {id : String} :
    book.instrument id = .error error ↔
      book.instruments.get? id = none ∧ error = .unknownInstrument id := by
  rw [Songbook.instrument]
  cases book.instruments.get? id <;> simp [eq_comm]

theorem track_eq_ok_iff {track : Track} :
    book.track name = .ok track ↔ book.tracks.get? name = some track := by
  rw [Songbook.track]
  cases book.tracks.get? name <;> simp

theorem track_eq_error_iff :
    book.track name = .error error ↔
      book.tracks.get? name = none ∧ error = .unknownTrack name := by
  rw [Songbook.track]
  cases book.tracks.get? name <;> simp [eq_comm]

theorem planPart_eq_ok_iff {part : PlannedPart} :
    book.planPart text bpm = .ok part ↔ book.Plans bpm text part := by
  constructor
  · intro h
    obtain ⟨parsed, hparse, h⟩ := bind_ok h
    obtain ⟨instrument, hinstrument, h⟩ := bind_ok h
    obtain ⟨tones, htones, h⟩ := bind_ok h
    cases h
    obtain ⟨body, hsplits, hnotes⟩ := parse_eq_ok_iff.1 hparse
    obtain ⟨htempo, hsounds⟩ := tonesOf_eq_ok_iff.1 htones
    exact ⟨instrument_eq_ok_iff.1 hinstrument, htempo, body, hsplits, hnotes ▸ hsounds⟩
  · rintro ⟨hfound, htempo, body, hsplits, hsounds⟩
    have htones : tonesOf (scan body.toList) bpm = .ok part.tones :=
      tonesOf_eq_ok_iff.2 ⟨htempo, hsounds⟩
    simp only [planPart, hsplits.parse, instrument_eq_ok_iff.2 hfound, htones, bind, Except.bind]

theorem planPart_eq_error_iff :
    book.planPart text bpm = .error error ↔ book.PartFlaw bpm text error := by
  constructor
  · intro h
    rcases bind_error h with hparse | ⟨parsed, hparse, h⟩
    · obtain ⟨rfl, hnone⟩ := parse_eq_error_iff.1 hparse
      exact .header hnone
    obtain ⟨body, hsplits, -⟩ := parse_eq_ok_iff.1 hparse
    rcases bind_error h with hinstrument | ⟨instrument, hinstrument, h⟩
    · obtain ⟨hnone, rfl⟩ := instrument_eq_error_iff.1 hinstrument
      exact .instrument hsplits hnone
    rcases bind_error h with htones | ⟨tones, -, h⟩
    · obtain ⟨hnone, rfl⟩ := tonesOf_eq_error_iff.1 htones
      exact .tempo hsplits (instrument_eq_ok_iff.1 hinstrument) hnone
    · cases h
  · rintro (hnone | ⟨hsplits, hnone⟩ | ⟨hsplits, hfound, hnone⟩)
    · rw [planPart, parse_eq_error_iff.2 ⟨rfl, hnone⟩]
      rfl
    · rw [planPart, hsplits.parse]
      simp only [bind, Except.bind, instrument_eq_error_iff.2 ⟨hnone, rfl⟩]
    · rw [planPart, hsplits.parse]
      simp only [bind, Except.bind, instrument_eq_ok_iff.2 hfound,
        tonesOf_eq_error_iff.2 ⟨hnone, rfl⟩]

/-! ## Tracks -/

/-- What is wrong with a track that is there: what is wrong with the first of its parts that
cannot be planned. -/
def TrackFlaw (book : Songbook) (track : Track) (error : MusicError) : Prop :=
  ∃ before text after, track.parts = before ++ text :: after ∧
    (∀ earlier ∈ before, ∃ part, book.Plans track.bpm earlier part) ∧
    book.PartFlaw track.bpm text error

/-- The parts of a track fail as the first of them that does. -/
theorem planParts_eq_error_iff {track : Track} :
    (track.parts.mapM fun text => book.planPart text track.bpm) = .error error ↔
      book.TrackFlaw track error := by
  simp only [mapM_eq_error_iff, planPart_eq_ok_iff, planPart_eq_error_iff, TrackFlaw]

/-- The parts of a track are planned when each of them is. -/
theorem planParts_eq_ok_iff {track : Track} {parts : List PlannedPart} :
    (track.parts.mapM fun text => book.planPart text track.bpm) = .ok parts ↔
      List.Forall₂ (book.Plans track.bpm) track.parts parts := by
  simp only [mapM_eq_ok_iff, planPart_eq_ok_iff]

/-- A part is not said to be an unknown track. -/
theorem not_trackFlaw_unknownTrack (track : Track) :
    ¬ book.TrackFlaw track (.unknownTrack name) := by
  rintro ⟨before, text, after, -, -, hflaw⟩
  cases hflaw

/-- **What becomes of a track.**  It fails as unknown exactly if the songbook does not have it.
Otherwise it fails exactly if one of its parts does, with the error of the first one: its
header, or else its instrument, or else its tempo.  And it succeeds with its parts in order,
each with its instrument and with a tone for each note, which is the tone of the note on its
own. -/
theorem planTrack_outcome (book : Songbook) (name : String) :
    (book.planTrack name = .error (.unknownTrack name) ↔ book.tracks.get? name = none) ∧
    ∀ track, book.tracks.get? name = some track →
      (∀ error, book.planTrack name = .error error ↔ book.TrackFlaw track error) ∧
      ∀ found parts, book.planTrack name = .ok (found, parts) ↔
        found = track ∧ List.Forall₂ (book.Plans track.bpm) track.parts parts := by
  cases hname : book.tracks.get? name with
  | none =>
    refine ⟨iff_of_true ?_ rfl, nofun⟩
    rw [planTrack, track_eq_error_iff.2 ⟨hname, rfl⟩]
    rfl
  | some track =>
    have htrack : book.planTrack name =
        (track.parts.mapM fun text => book.planPart text track.bpm) >>= fun parts =>
          .ok (track, parts) := by
      rw [planTrack, track_eq_ok_iff.2 hname]
      rfl
    have herror : ∀ error, book.planTrack name = .error error ↔ book.TrackFlaw track error := by
      intro error
      rw [htrack, ← planParts_eq_error_iff]
      constructor
      · intro h
        rcases bind_error h with hparts | ⟨parts, -, h⟩
        · exact hparts
        · cases h
      · intro h
        rw [h]
        rfl
    refine ⟨⟨fun h => absurd ((herror _).1 h) (not_trackFlaw_unknownTrack track), nofun⟩, ?_⟩
    intro other heq
    cases heq
    refine ⟨herror, fun found parts => ?_⟩
    rw [htrack, ← planParts_eq_ok_iff]
    constructor
    · intro h
      obtain ⟨planned, hparts, h⟩ := bind_ok h
      cases h
      exact ⟨rfl, hparts⟩
    · rintro ⟨rfl, h⟩
      rw [h]
      rfl

/-- A songbook with one instrument, and a track of three parts: with this instrument, with one
that is missing, and without a header. -/
def unfinishedBook : Songbook :=
  ⟨Table.empty.insert "ABC" (.plain .sine),
    Table.empty.insert "draft" ⟨120, false, ["ABCA44", "XYZB44", "abc"]⟩⟩

/-- The second part is the first one that cannot be planned. -/
theorem planTrack_outcome_unfinishedBook :
    unfinishedBook.tracks.get? "draft" = some ⟨120, false, ["ABCA44", "XYZB44", "abc"]⟩ ∧
      unfinishedBook.planTrack "draft" = .error (.unknownInstrument "XYZ") := by
  have htrack : unfinishedBook.tracks.get? "draft" =
      some ⟨120, false, ["ABCA44", "XYZB44", "abc"]⟩ := by
    decide +kernel
  have hfirst : unfinishedBook.planPart "ABCA44" 120 =
      .ok ⟨"ABC", .plain .sine, [⟨440, .ofFloat 0.5⟩]⟩ := by
    decide +kernel
  have hsecond : unfinishedBook.planPart "XYZB44" 120 = .error (.unknownInstrument "XYZ") := by
    decide +kernel
  refine ⟨htrack, (((planTrack_outcome unfinishedBook "draft").2 _ htrack).1 _).2 ?_⟩
  exact ⟨["ABCA44"], "XYZB44", ["abc"], rfl,
    List.forall_mem_singleton.2 ⟨_, planPart_eq_ok_iff.1 hfirst⟩, planPart_eq_error_iff.1 hsecond⟩

/-- A bad tempo is found even where there is no note to be played at it. -/
example : unfinishedBook.planPart "ABC" 0 = .error (.invalidTempo 0) := by decide +kernel

end Songbook

end Chiptune
