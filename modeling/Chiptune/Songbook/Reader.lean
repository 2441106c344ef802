/-
  Songbooks in JSON text: reading.

  Each record has a draft in which the fields already read are noted; a field
  that may be left out then takes its default.  Some fields answer to an older
  name as well.
-/
import Chiptune.Songbook.Basic
import Chiptune.Music.Tone
import Chiptune.Json.Value

set_option autoImplicit false

namespace Chiptune

open Json

/-- A field that has to be there. -/
def required {α : Type} (name : String) : Option α → Except Cause α
  | some value => .ok value
  | none => .error (.missingField name)

/-! ## Waveforms and pitches -/

/-- Reads the name of a waveform. -/
def Waveform.readJson : Reader Waveform := fun c => do
  let (name, c) ← readPlainString c
  match Waveform.ofName? name with
  | some waveform => .ok (waveform, c)
  | none => c.failLater (.refused (Waveform.unknownMessage name))

/-- The name of a pitch: its letter. -/
def Pitch.name (pitch : Pitch) : String := String.singleton pitch.letter

/-- Reads the letter of a pitch. -/
def Pitch.readJson : Reader Pitch :=
  readChoice (Pitch.all.map fun pitch => (pitch.name, pitch))

/-! ## Instruments -/

/-- An instrument of which some fields have been read. -/
structure InstrumentDraft where
  waveform : Option Waveform := none
  gain : Option (Option Float32) := none
  pan : Option (Option Float32) := none

/-- The fields of an instrument. -/
def Instrument.shape : Shape InstrumentDraft Instrument where
  title := "struct Instrument"
  blank := {}
  fields := [
    { name := "wave", aliases := ["waveform"], optional := false,
      isSet := fun draft => draft.waveform.isSome,
      read := fun draft c => do
        let (waveform, c) ← Waveform.readJson c
        .ok ({ draft with waveform := some waveform }, c) },
    { name := "gain", aliases := ["gainLevel"], optional := true,
      isSet := fun draft => draft.gain.isSome,
      read := fun draft c => do
        let (gain, c) ← readOption readFloat32 c
        .ok ({ draft with gain := some gain }, c) },
    { name := "pan", aliases := ["panPosition"], optional := true,
      isSet := fun draft => draft.pan.isSome,
      read := fun draft c => do
        let (pan, c) ← readOption readFloat32 c
        .ok ({ draft with pan := some pan }, c) }]
  finish draft := do
    .ok ⟨← required "wave" draft.waveform, draft.gain.join, draft.pan.join⟩

/-! ## Tracks -/

/-- A track of which some fields have been read. -/
structure TrackDraft where
  bpm : Option Float := none
  looping : Option Bool := none
  parts : Option (List String) := none

/-- The fields of a track. -/
def Track.shape : Shape TrackDraft Track where
  title := "struct Track"
  blank := {}
  fields := [
    { name := "bpm", aliases := [], optional := false,
      isSet := fun draft => draft.bpm.isSome,
      read := fun draft c => do
        let (bpm, c) ← readFloat c
        .ok ({ draft with bpm := some bpm }, c) },
    { name := "isLooping", aliases := ["loop"], optional := true,
      isSet := fun draft => draft.looping.isSome,
      read := fun draft c => do
        let (looping, c) ← readBool c
        .ok ({ draft with looping := some looping }, c) },
    { name := "parts", aliases := [], optional := false,
      isSet := fun draft => draft.parts.isSome,
      read := fun draft c => do
        let (parts, c) ← readList readPlainString c
        .ok ({ draft with parts := some parts }, c) }]
  finish draft := do
    let bpm ← required "bpm" draft.bpm
    .ok ⟨bpm, draft.looping.getD false, ← required "parts" draft.parts⟩

/-! ## Songbooks -/

/-- A songbook of which some fields have been read. -/
structure SongbookDraft where
  instruments : Option (Table Instrument) := none
  tracks : Option (Table Track) := none

/-- Reads a table; of several entries under one name the last one counts. -/
def Table.readJson {α : Type} (read : Reader α) : Reader (Table α) := fun c => do
  let (entries, c) ← readObject read c
  .ok (Table.ofList entries, c)

/-- The fields of a songbook. -/
def Songbook.shape : Shape SongbookDraft Songbook where
  title := "struct Songbook"
  blank := {}
  fields := [
    { name := "instruments", aliases := [], optional := true,
      isSet := fun draft => draft.instruments.isSome,
      read := fun draft c => do
        let (instruments, c) ← Table.readJson Instrument.shape.read c
        .ok ({ draft with instruments := some instruments }, c) },
    { name := "tracks", aliases := [], optional := true,
      isSet := fun draft => draft.tracks.isSome,
      read := fun draft c => do
        let (tracks, c) ← Table.readJson Track.shape.read c
        .ok ({ draft with tracks := some tracks }, c) }]
  finish draft := .ok ⟨draft.instruments.getD .empty, draft.tracks.getD .empty⟩

/-- Reads a songbook and checks its instruments. -/
def Songbook.ofJson (text : String) : Except MusicError Songbook := do
  match readAll Songbook.shape.read text with
  | .error fault => .error (.invalidSongbook text fault)
  | .ok book =>
    book.validate
    .ok book

/-! ## Notes and tones -/

/-- A note of which some fields have been read. -/
structure NoteDraft where
  pitch : Option Pitch := none
  sharp : Option Bool := none
  octave : Option Nat := none
  code : Option Nat := none

/-- The fields of a note. -/
def Note.shape : Shape NoteDraft Note where
  title := "struct NoteEvent"
  blank := {}
  fields := [
    { name := "pitch_class", aliases := [], optional := false,
      isSet := fun draft => draft.pitch.isSome,
      read := fun draft c => do
        let (pitch, c) ← Pitch.readJson c
        .ok ({ draft with pitch := some pitch }, c) },
    { name := "sharp", aliases := [], optional := false,
      isSet := fun draft => draft.sharp.isSome,
      read := fun draft c => do
        let (sharp, c) ← readBool c
        .ok ({ draft with sharp := some sharp }, c) },
    { name := "octave", aliases := [], optional := false,
      isSet := fun draft => draft.octave.isSome,
      read := fun draft c => do
        let (octave, c) ← readByte c
        .ok ({ draft with octave := some octave }, c) },
    { name := "duration_code", aliases := [], optional := false,
      isSet := fun draft => draft.code.isSome,
      read := fun draft c => do
        let (code, c) ← readByte c
        .ok ({ draft with code := some code }, c) }]
  finish draft := do
    let pitch ← required "pitch_class" draft.pitch
    let sharp ← required "sharp" draft.sharp
    let octave ← required "octave" draft.octave
    .ok ⟨pitch, sharp, octave, ← required "duration_code" draft.code⟩

/-- A tone of which some fields have been read. -/
structure ToneDraft where
  hz : Option Float := none
  seconds : Option Float := none

/-- The fields of a tone. -/
def Tone.shape : Shape ToneDraft Tone where
  title := "struct ConvertedEvent"
  blank := {}
  fields := [
    { name := "hz", aliases := [], optional := false,
      isSet := fun draft => draft.hz.isSome,
      read := fun draft c => do
        let (hz, c) ← readFloat c
        .ok ({ draft with hz := some hz }, c) },
    { name := "seconds", aliases := [], optional := false,
      isSet := fun draft => draft.seconds.isSome,
      read := fun draft c => do
        let (seconds, c) ← readFloat c
        .ok ({ draft with seconds := some seconds }, c) }]
  finish draft := do
    let hz ← required "hz" draft.hz
    .ok ⟨hz, .ofFloat (← required "seconds" draft.seconds)⟩

end Chiptune
