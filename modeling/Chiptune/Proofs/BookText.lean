/-
  Songbooks read back from their text.

  The tables of a songbook may be written in any order of their names.  Whatever the order,
  and whatever the names and the parts hold, the text is read as the songbook that was
  written, provided its numbers are.
-/
import Chiptune.Songbook.Reader
import Chiptune.Songbook.Writer
import Chiptune.Proofs.NumberText
import Mathlib.Data.List.Nodup

set_option autoImplicit false

namespace Chiptune

open Json

/-! ## Tables -/

namespace Table

variable {α : Type}

/-- Names of a table are different. -/
theorem names_nodup (table : Table α) : (table.entries.map (·.1)).Nodup :=
  List.pairwise_map.2 (table.sorted.imp fun hlt => fun heq : _ = _ =>
    String.lt_irrefl _ (heq ▸ hlt))

/-- A new name is put between the others. -/
theorem place_perm {name : String} (value : α) {entries : List (String × α)}
    (h : name ∉ entries.map (·.1)) :
    (place name value entries).Perm ((name, value) :: entries) := by
  induction entries with
  | nil => exact .refl _
  | cons entry entries ih =>
    obtain ⟨other, kept⟩ := entry
    rw [List.map_cons, List.mem_cons, not_or] at h
    simp only [place, if_neg h.1]
    split
    · exact .refl _
    · exact ((ih h.2).cons _).trans (.swap _ _ _)

/-- Entries under different names are all kept. -/
theorem foldl_insert_perm {entries : List (String × α)} {table : Table α}
    (h : ((entries ++ table.entries).map (·.1)).Nodup) :
    (entries.foldl (fun table (name, value) => table.insert name value) table).entries.Perm
      (entries ++ table.entries) := by
  induction entries generalizing table with
  | nil => exact .refl _
  | cons entry entries ih =>
    obtain ⟨name, value⟩ := entry
    rw [List.cons_append, List.map_cons, List.nodup_cons] at h
    have hnew : name ∉ table.entries.map (·.1) := fun hmem =>
      h.1 (by rw [List.map_append]; exact List.mem_append_right _ hmem)
    have hplaced : (entries ++ (table.insert name value).entries).Perm
        ((name, value) :: (entries ++ table.entries)) :=
      ((place_perm value hnew).append_left entries).trans List.perm_middle
    exact (ih ((hplaced.map _).nodup_iff.2 (List.nodup_cons.2 h))).trans hplaced

/-- The entries of a table, in whatever order they are entered, make the table. -/
theorem ofList_eq_of_perm {table : Table α} {entries : List (String × α)}
    (h : entries.Perm table.entries) : ofList entries = table := by
  have hnodup : ((entries ++ (empty : Table α).entries).map (·.1)).Nodup := by
    rw [empty, List.append_nil]
    exact (h.map _).nodup_iff.2 table.names_nodup
  have hperm : (ofList entries).entries.Perm table.entries := by
    refine (foldl_insert_perm hnodup).trans ?_
    rw [empty, List.append_nil]
    exact h
  have hentries : (ofList entries).entries = table.entries :=
    hperm.eq_of_pairwise
      (fun a b _ _ hab hba => absurd (String.lt_trans hab hba) (String.lt_irrefl _))
      (ofList entries).sorted table.sorted
  cases hmade : ofList entries
  cases table
  simp_all

end Table

/-! ## Instruments -/

/-- A waveform is known by its full name. -/
theorem Waveform.ofName?_name (waveform : Waveform) : ofName? waveform.name = some waveform := by
  cases waveform <;> decide +kernel

theorem Waveform.spells_writeJson (waveform : Waveform) :
    Spells Waveform.readJson waveform.writeJson waveform where
  opens := (spells_writeString waveform.name).opens
  yields rest hrest offset := by
    obtain ⟨after, hread⟩ := (spells_writeString waveform.name).yields rest hrest offset
    refine ⟨after, ?_⟩
    simp only [Waveform.readJson, Waveform.writeJson, hread, bind, Except.bind, ofName?_name]

/-- An instrument whose waveform has been read, and perhaps its gain and its pan. -/
def Waveform.drafted (waveform : Waveform) (gain pan : Option (Option Float32)) :
    InstrumentDraft :=
  ⟨some waveform, gain, pan⟩

theorem Instrument.spells_writeJson {instrument : Instrument}
    (hgain : ∀ gain ∈ instrument.gain, ReadsBack writeFloat32 readFloat32 gain)
    (hpan : ∀ pan ∈ instrument.pan, ReadsBack writeFloat32 readFloat32 pan) :
    Spells Instrument.shape.read instrument.writeJson instrument := by
  obtain ⟨waveform, gain, pan⟩ := instrument
  have hwave : Fills Instrument.shape {} [("wave", waveform.writeJson)]
      (waveform.drafted none none) :=
    .single Instrument.shape.fields[0]
      (fun waveform => waveform.drafted none none) rfl rfl rfl
      (Waveform.spells_writeJson waveform)
  have hlevel : Fills Instrument.shape (waveform.drafted none none)
      (gain.map fun x => ("gain", writeFloat32 x)).toList (waveform.drafted (gain.map some) none) :=
    .optional (fun gain => waveform.drafted (gain.map some) none) rfl fun x hx =>
      .single Instrument.shape.fields[1] (fun gain => waveform.drafted (some gain) none) rfl rfl rfl
        (spells_some_writeFloat32 (hgain x hx))
  have hplace : Fills Instrument.shape (waveform.drafted (gain.map some) none)
      (pan.map fun x => ("pan", writeFloat32 x)).toList
      (waveform.drafted (gain.map some) (pan.map some)) :=
    .optional (fun pan => waveform.drafted (gain.map some) (pan.map some)) rfl fun x hx =>
      .single Instrument.shape.fields[2] (fun pan => waveform.drafted (gain.map some) (some pan))
        rfl rfl rfl (spells_some_writeFloat32 (hpan x hx))
  refine ((hwave.append hlevel).append hplace).spells ?_
  cases gain <;> cases pan <;> rfl

/-! ## Tracks -/

theorem Track.spells_writeJson {track : Track} (h : ReadsBack writeFloat readFloat track.bpm) :
    Spells Track.shape.read track.writeJson track := by
  obtain ⟨bpm, looping, parts⟩ := track
  have hbpm : Fills Track.shape {} [("bpm", writeFloat bpm)] { bpm := some bpm } :=
    .single Track.shape.fields[0] (fun bpm => { bpm := some bpm }) rfl rfl rfl
      (spells_writeFloat h)
  have hlooping : Fills Track.shape { bpm := some bpm } [("isLooping", writeBool looping)]
      { bpm := some bpm, looping := some looping } :=
    .single Track.shape.fields[1] (fun looping => { bpm := some bpm, looping := some looping })
      rfl rfl rfl (spells_writeBool looping)
  have hparts : Fills Track.shape { bpm := some bpm, looping := some looping }
      [("parts", writeList (parts.map writeString))]
      { bpm := some bpm, looping := some looping, parts := some parts } :=
    .single Track.shape.fields[2]
      (fun parts => { bpm := some bpm, looping := some looping, parts := some parts })
      rfl rfl rfl (spells_writeList fun part _ => spells_writeString part)
  exact ((hbpm.append hlooping).append hparts).spells rfl

/-! ## Songbooks -/

/-- The text of a table whose entries are written in the given order. -/
def Table.writeEntries {α : Type} (write : α → List Char) (entries : List (String × α)) :
    List Char :=
  writeObject (entries.map fun entry => (entry.1, write entry.2))

/-- Whatever the order of the entries, the table is read. -/
theorem Table.spells_writeEntries {α : Type} {read : Reader α} {write : α → List Char}
    {table : Table α} {entries : List (String × α)} (hperm : entries.Perm table.entries)
    (h : ∀ entry ∈ table.entries, Spells read (write entry.2) entry.2) :
    Spells (Table.readJson read) (Table.writeEntries write entries) table := by
  have hentries : Spells (readObject read) (writeEntries write entries) entries :=
    spells_writeObject fun entry hmem => h entry (hperm.mem_iff.1 hmem)
  rw [← Table.ofList_eq_of_perm hperm]
  exact hentries.map Table.ofList

namespace Songbook

/-- The text of a songbook whose instruments and tracks are written in the given orders. -/
def writeInOrder (instruments : List (String × Instrument)) (tracks : List (String × Track)) :
    List Char :=
  writeObject [
    ("instruments", Table.writeEntries Instrument.writeJson instruments),
    ("tracks", Table.writeEntries Track.writeJson tracks)]

/-- A songbook is written in the order of its names, which is one of the orders. -/
theorem writeJson_eq (book : Songbook) :
    book.writeJson = writeInOrder book.instruments.entries book.tracks.entries := rfl

/-- The numbers of a songbook are read back from the texts that are written for them. -/
structure NumbersReadBack (book : Songbook) : Prop where
  gains : ∀ entry ∈ book.instruments.entries, ∀ gain ∈ entry.2.gain,
    ReadsBack writeFloat32 readFloat32 gain
  pans : ∀ entry ∈ book.instruments.entries, ∀ pan ∈ entry.2.pan,
    ReadsBack writeFloat32 readFloat32 pan
  tempos : ∀ entry ∈ book.tracks.entries, ReadsBack writeFloat readFloat entry.2.bpm

theorem spells_writeInOrder {book : Songbook} (h : book.NumbersReadBack)
    {instruments : List (String × Instrument)} {tracks : List (String × Track)}
    (hinstruments : instruments.Perm book.instruments.entries)
    (htracks : tracks.Perm book.tracks.entries) :
    Spells Songbook.shape.read (writeInOrder instruments tracks) book := by
  have hfirst : Fills Songbook.shape {}
      [("instruments", Table.writeEntries Instrument.writeJson instruments)]
      { instruments := some book.instruments } :=
    .single Songbook.shape.fields[0] (fun instruments => { instruments := some instruments })
      rfl rfl rfl (Table.spells_writeEntries hinstruments fun entry hmem =>
        Instrument.spells_writeJson (h.gains entry hmem) (h.pans entry hmem))
  have hsecond : Fills Songbook.shape { instruments := some book.instruments }
      [("tracks", Table.writeEntries Track.writeJson tracks)]
      { instruments := some book.instruments, tracks := some book.tracks } :=
    .single Songbook.shape.fields[1]
      (fun tracks => { instruments := some book.instruments, tracks := some tracks })
      rfl rfl rfl (Table.spells_writeEntries htracks fun entry hmem =>
        Track.spells_writeJson (h.tempos entry hmem))
  exact (hfirst.append hsecond).spells rfl

/-- A text that is read as a songbook is loaded exactly when the songbook is fit for use. -/
theorem ofJson_eq_of_readAll {book : Songbook} {text : String}
    (h : readAll Songbook.shape.read text = .ok book) :
    Songbook.ofJson text = book.validate.map fun _ => book := by
  simp only [Songbook.ofJson, h]
  cases book.validate <;> rfl

/-- **A songbook reads back from its text.**  Whatever its names and parts hold, and in
whatever orders its tables are written, the text is read as the songbook it was written
for, provided its numbers are; and it is loaded, as this songbook, exactly when the songbook
is fit for use. -/
theorem reads_writeInOrder {book : Songbook} (h : book.NumbersReadBack)
    {instruments : List (String × Instrument)} {tracks : List (String × Track)}
    (hinstruments : instruments.Perm book.instruments.entries)
    (htracks : tracks.Perm book.tracks.entries) :
    readAll Songbook.shape.read (String.ofList (writeInOrder instruments tracks)) = .ok book ∧
      ((∃ loaded, Songbook.ofJson (String.ofList (writeInOrder instruments tracks)) = .ok loaded) ↔
        book.validate = .ok ()) ∧
      ∀ loaded, Songbook.ofJson (String.ofList (writeInOrder instruments tracks)) = .ok loaded →
        loaded = book := by
  have hread := (spells_writeInOrder h hinstruments htracks).readAll
  rw [ofJson_eq_of_readAll hread]
  refine ⟨hread, ?_⟩
  cases book.validate with
  | error error => exact ⟨⟨fun ⟨_, h⟩ => (nomatch h), nofun⟩, nofun⟩
  | ok => exact ⟨⟨fun _ => rfl, fun _ => ⟨book, rfl⟩⟩, fun _ h => (Except.ok.inj h).symm⟩

/-- A songbook with names and parts that have to be escaped, and settings that are left out. -/
def escaped : Songbook where
  instruments := .ofList [
    ("LED", ⟨.square, some 0.5, some (-0.25)⟩),
    ("BAS", ⟨.triangle, none, none⟩)]
  tracks := .ofList [
    ("\u0001 \"intro\"\n", ⟨132.5, true, ["LED c4 \"", "\\\t", ""]⟩),
    ("ending", ⟨90, false, []⟩)]

theorem numbersReadBack_escaped : escaped.NumbersReadBack where
  gains := by unfold ReadsBack; decide +kernel
  pans := by unfold ReadsBack; decide +kernel
  tempos := by unfold ReadsBack; decide +kernel

/-- Written from its last names to its first ones, this songbook is loaded again. -/
theorem ofJson_escaped :
    Songbook.ofJson (String.ofList
      (writeInOrder escaped.instruments.entries.reverse escaped.tracks.entries.reverse)) =
        .ok escaped := by
  obtain ⟨-, hloaded, honly⟩ := reads_writeInOrder numbersReadBack_escaped
    (List.reverse_perm escaped.instruments.entries) (List.reverse_perm escaped.tracks.entries)
  obtain ⟨loaded, h⟩ := hloaded.2 (by decide +kernel)
  rw [h, honly loaded h]

end Songbook

end Chiptune
