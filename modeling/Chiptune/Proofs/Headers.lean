/-
  The two rules for the ids of instruments.

  A songbook takes an id when it is three capital letters; a part is read when its first three
  characters are.  Both may be told by bytes: a byte that is a capital letter is a whole
  character, and so three of them at the front of a text end between two characters.  Hence
  the ids that a songbook takes are those that parts can name.
-/
import Chiptune.Proofs.Planning
import Chiptune.Proofs.ScanBytes

set_option autoImplicit false

namespace Chiptune

namespace Notation

/-! ## Capital letters -/

/-- A byte that is a capital letter of ASCII. -/
def IsCapitalByte (byte : UInt8) : Prop := 65 ≤ byte.toNat ∧ byte.toNat ≤ 90

theorem isUpper_iff {c : Char} : c.isUpper = true ↔ 65 ≤ c.toNat ∧ c.toNat ≤ 90 := by
  change decide (65 ≤ c.val ∧ c.val ≤ 90) = true ↔ _
  rw [decide_eq_true_iff, UInt32.le_iff_toNat_le, UInt32.le_iff_toNat_le]
  exact Iff.rfl

/-- A capital letter is one byte. -/
theorem utf8EncodeChar_of_isUpper {c : Char} (h : c.isUpper = true) :
    ∃ byte, String.utf8EncodeChar c = [byte] ∧ IsCapitalByte byte := by
  rw [isUpper_iff] at h
  refine ⟨_, utf8EncodeChar_of_lt (by omega), ?_⟩
  rw [IsCapitalByte, UInt8.toNat_ofNat']
  omega

/-- A character whose first byte is a capital letter is this letter. -/
theorem isUpper_of_isCapitalByte {c : Char} {byte : UInt8} {bytes : List UInt8}
    (hbytes : String.utf8EncodeChar c = byte :: bytes) (h : IsCapitalByte byte) :
    c.isUpper = true ∧ bytes = [] := by
  have hlt : c.toNat < 128 := by
    by_contra hge
    have hbyte := le_of_mem_utf8EncodeChar (Nat.le_of_not_lt hge) byte
      (hbytes ▸ List.mem_cons_self)
    have hcapital := h.2
    omega
  rw [utf8EncodeChar_of_lt hlt] at hbytes
  obtain ⟨rfl, rfl⟩ := List.cons.inj hbytes
  rw [IsCapitalByte, UInt8.toNat_ofNat', Nat.mod_eq_of_lt (by omega)] at h
  exact ⟨isUpper_iff.2 h, rfl⟩

/-- Capital letters are as many bytes, each of them a capital letter. -/
theorem bytes_of_isUpper {letters : List Char} (h : ∀ c ∈ letters, c.isUpper = true) :
    (letters.flatMap String.utf8EncodeChar).length = letters.length ∧
      ∀ byte ∈ letters.flatMap String.utf8EncodeChar, IsCapitalByte byte := by
  induction letters with
  | nil => exact ⟨rfl, List.forall_mem_nil _⟩
  | cons c letters ih =>
    obtain ⟨hc, hletters⟩ := List.forall_mem_cons.1 h
    obtain ⟨byte, hbyte, hcapital⟩ := utf8EncodeChar_of_isUpper hc
    obtain ⟨hlength, hcapitals⟩ := ih hletters
    rw [List.flatMap_cons, hbyte, List.singleton_append]
    exact ⟨congrArg (· + 1) hlength, List.forall_mem_cons.2 ⟨hcapital, hcapitals⟩⟩

/-- Where the first bytes of a text are capital letters, its first characters are. -/
theorem isUpper_of_bytes {count : Nat} {cs : List Char}
    (hlength : count ≤ (cs.flatMap String.utf8EncodeChar).length)
    (h : ∀ byte ∈ (cs.flatMap String.utf8EncodeChar).take count, IsCapitalByte byte) :
    (cs.take count).length = count ∧ ∀ c ∈ cs.take count, c.isUpper = true := by
  induction count generalizing cs with
  | zero => exact ⟨rfl, List.forall_mem_nil _⟩
  | succ count ih =>
    cases cs with
    | nil => cases hlength
    | cons c cs =>
      obtain ⟨byte, bytes, hbytes⟩ := List.exists_cons_of_ne_nil (@String.utf8EncodeChar_ne_nil c)
      rw [List.flatMap_cons, hbytes, List.cons_append] at hlength h
      rw [List.take_succ_cons] at h
      obtain ⟨hbyte, hothers⟩ := List.forall_mem_cons.1 h
      obtain ⟨hc, rfl⟩ := isUpper_of_isCapitalByte hbytes hbyte
      obtain ⟨htake, hletters⟩ := ih (Nat.le_of_succ_le_succ hlength) hothers
      exact ⟨congrArg (· + 1) htake, List.forall_mem_cons.2 ⟨hc, hletters⟩⟩

/-! ## Headers -/

/-- Bytes begin with a header when there are three of them and these are capital letters. -/
def HasHeader (bytes : List UInt8) : Prop :=
  headerLength ≤ bytes.length ∧ ∀ byte ∈ bytes.take headerLength, IsCapitalByte byte

theorem isHeader_iff {cs : List Char} :
    isHeader cs = true ↔ cs.length = headerLength ∧ ∀ c ∈ cs, c.isUpper = true := by
  simp [isHeader]

theorem bytesOf_append (first second : String) :
    bytesOf (first ++ second) = bytesOf first ++ bytesOf second := by
  rw [bytesOf_eq, bytesOf_eq, bytesOf_eq, String.toList_append, List.flatMap_append]

/-- An id is three bytes, each of them a capital letter. -/
theorem bytes_of_isHeaderText {id : String} (h : isHeaderText id = true) :
    (bytesOf id).length = headerLength ∧ ∀ byte ∈ bytesOf id, IsCapitalByte byte := by
  obtain ⟨hlength, hletters⟩ := isHeader_iff.1 h
  obtain ⟨hbytes, hcapitals⟩ := bytes_of_isUpper hletters
  rw [bytesOf_eq]
  exact ⟨hbytes.trans hlength, hcapitals⟩

/-- A header of bytes is an id with a body behind it. -/
theorem splits_of_hasHeader {text : String} (h : HasHeader (bytesOf text)) :
    Splits text (String.ofList (text.toList.take headerLength))
      (String.ofList (text.toList.drop headerLength)) := by
  rw [HasHeader, bytesOf_eq] at h
  refine ⟨?_, ?_⟩
  · rw [isHeaderText, String.toList_ofList]
    exact isHeader_iff.2 (isUpper_of_bytes h.1 h.2)
  · rw [← String.ofList_append, List.take_append_drop, String.ofList_toList]

namespace Splits

variable {text id body : String}

/-- The bytes of an id and those of its body are cut where three bytes end. -/
theorem bytes (h : Splits text id body) :
    bytesOf id = (bytesOf text).take headerLength ∧
      bytesOf body = (bytesOf text).drop headerLength := by
  obtain ⟨hlength, -⟩ := bytes_of_isHeaderText h.header
  rw [h.text, bytesOf_append, ← hlength, List.take_left, List.drop_left]
  exact ⟨rfl, rfl⟩

theorem hasHeader (h : Splits text id body) : HasHeader (bytesOf text) := by
  obtain ⟨hlength, hcapitals⟩ := bytes_of_isHeaderText h.header
  obtain ⟨htake, -⟩ := h.bytes
  refine ⟨?_, by rwa [← htake]⟩
  rw [h.text, bytesOf_append, List.length_append, hlength]
  exact Nat.le_add_right _ _

/-- The cut is one between two characters. -/
theorem isValid (h : Splits text id body) : (⟨headerLength⟩ : String.Pos.Raw).IsValid text := by
  refine String.Pos.Raw.isValid_iff_exists_append.2 ⟨id, body, h.text, ?_⟩
  have hlength := (bytes_of_isHeaderText h.header).1
  exact congrArg String.Pos.Raw.mk hlength.symm

end Splits

/-- An id is told by its bytes. -/
theorem isHeaderText_iff_bytes {id : String} :
    isHeaderText id = true ↔
      (bytesOf id).length = headerLength ∧ ∀ byte ∈ bytesOf id, IsCapitalByte byte := by
  refine ⟨bytes_of_isHeaderText, fun ⟨hlength, hcapitals⟩ => ?_⟩
  have hheads : HasHeader (bytesOf id) :=
    ⟨Nat.le_of_eq hlength.symm, fun byte hmem => hcapitals byte (List.mem_of_mem_take hmem)⟩
  have hsplits := splits_of_hasHeader hheads
  -- nothing is left of the bytes for a body
  have hbody := hsplits.bytes.2
  rw [List.drop_eq_nil_of_le (Nat.le_of_eq hlength), bytesOf_eq, List.flatMap_eq_nil_iff,
    String.toList_ofList] at hbody
  have hnil : id.toList.drop headerLength = [] := by
    refine List.eq_nil_iff_forall_not_mem.2 fun c hmem => ?_
    exact String.utf8EncodeChar_ne_nil (hbody c hmem)
  have htext := hsplits.text
  rw [hnil] at htext
  have hheader := hsplits.header
  rwa [show id = String.ofList (id.toList.take headerLength) by simpa using htext]

/-- What is read of a text. -/
structure ReadsHeader (text : String) : Prop where
  /-- A text is read when an id stands in front, and the notes are those behind it. -/
  accepted : ∀ part, Part.parse text = .ok part ↔
    ∃ body, Splits text part.instrumentId body ∧ part.notes = scan body.toList
  /-- Any other text is given back as it is. -/
  refused : ∀ error, Part.parse text = .error error ↔
    error = .malformedPart text ∧ ¬ ∃ id body, Splits text id body
  /-- Whether it is an id may be told by its bytes, -/
  id : isHeaderText text = true ↔
    (bytesOf text).length = headerLength ∧ ∀ byte ∈ bytesOf text, IsCapitalByte byte
  /-- and whether it is read, by the first three of them. -/
  bytes : (∃ part, Part.parse text = .ok part) ↔ HasHeader (bytesOf text)
  /-- Behind these three no character is cut. -/
  cut : ∀ part, Part.parse text = .ok part →
    (⟨headerLength⟩ : String.Pos.Raw).IsValid text ∧
      bytesOf part.instrumentId = (bytesOf text).take headerLength ∧
      part.notes = scanBytes ((bytesOf text).drop headerLength)

theorem readsHeader (text : String) : ReadsHeader text where
  accepted _ := parse_eq_ok_iff
  refused _ := parse_eq_error_iff
  id := isHeaderText_iff_bytes
  bytes := by
    constructor
    · rintro ⟨part, h⟩
      obtain ⟨body, hsplits, -⟩ := parse_eq_ok_iff.1 h
      exact hsplits.hasHeader
    · intro h
      exact ⟨_, (splits_of_hasHeader h).parse⟩
  cut part h := by
    obtain ⟨body, hsplits, hnotes⟩ := parse_eq_ok_iff.1 h
    obtain ⟨hid, hbody⟩ := hsplits.bytes
    refine ⟨hsplits.isValid, hid, ?_⟩
    rw [hnotes, ← scanBytes_toUTF8, ← hbody]
    rfl

end Notation

/-! ## Instruments -/

namespace Songbook

open Notation

variable {book : Songbook}

/-- A part names the instrument under its id. -/
theorem planPart_append {id : String} {instrument : Instrument} {bpm : Float}
    (hfound : book.instruments.get? id = some instrument) (hheader : isHeaderText id = true)
    (htempo : IsTempo bpm) (body : String) :
    ∃ tones, book.planPart (id ++ body) bpm = .ok ⟨id, instrument, tones⟩ ∧
      List.Forall₂ (Sounds bpm) (scan body.toList) tones := by
  cases htones : tonesOf (scan body.toList) bpm with
  | error error => exact absurd htempo (tonesOf_eq_error_iff.1 htones).1
  | ok tones =>
    obtain ⟨-, hsounds⟩ := tonesOf_eq_ok_iff.1 htones
    exact ⟨tones, planPart_eq_ok_iff.2 ⟨hfound, htempo, body, ⟨hheader, rfl⟩, hsounds⟩, hsounds⟩

/-- The settings of an instrument are never taken for its id. -/
theorem flaw?_ne_badId (instrument : Instrument) : instrument.flaw? ≠ some .badId := by
  rw [Instrument.flaw?]
  split <;> simp

/-- An id is complained of when it is not one. -/
theorem instrumentError?_badId_iff {id : String} {instrument : Instrument} :
    instrumentError? id instrument = some (.invalidInstrument id .badId) ↔
      isHeaderText id = false := by
  rw [instrumentError?]
  cases hheader : isHeaderText id with
  | false => simp
  | true => simpa using flaw?_ne_badId instrument

/-- Which instruments of a songbook parts can name. -/
structure NamesInstruments (book : Songbook) : Prop where
  /-- A songbook complains of an id when it is not three capital letters. -/
  complaint : ∀ id instrument,
    instrumentError? id instrument = some (.invalidInstrument id .badId) ↔ isHeaderText id = false
  /-- Where it complains of nothing, there are proper ids only. -/
  proper : book.validate = .ok () → ∀ id instrument,
    book.instruments.get? id = some instrument → isHeaderText id = true
  /-- An instrument with a proper id is that of every part that begins with it. -/
  named : ∀ id instrument, book.instruments.get? id = some instrument → isHeaderText id = true →
    ∀ body bpm, IsTempo bpm →
      ∃ tones, book.planPart (id ++ body) bpm = .ok ⟨id, instrument, tones⟩ ∧
        List.Forall₂ (Sounds bpm) (scan body.toList) tones
  /-- No part is planned with any other id. -/
  unnamed : ∀ id, isHeaderText id = false → ∀ text bpm part,
    book.planPart text bpm = .ok part → part.instrumentId ≠ id

/-- **The ids that songbooks take are those that parts begin with.**  A text is read exactly if it
is such an id with a body behind it, and any other text is refused as it is; told by bytes, both
rules are the same, and no character is ever cut.  So parts can name the instruments that have
a proper id, with any body and at any tempo, and no other ones. -/
theorem headers_agree (text : String) (book : Songbook) :
    ReadsHeader text ∧ book.NamesInstruments := by
  refine ⟨readsHeader text, ?_⟩
  refine
    { complaint := fun _ _ => instrumentError?_badId_iff
      proper := fun hvalid _ _ hfound => (fit_of_validate hvalid hfound).1
      named := fun _ _ hfound hheader body _ htempo => planPart_append hfound hheader htempo body
      unnamed := ?_ }
  rintro id hheader text bpm part h rfl
  obtain ⟨-, -, body, hsplits, -⟩ := planPart_eq_ok_iff.1 h
  rw [hsplits.header] at hheader
  cases hheader

/-- Two letters and a character beyond ASCII are no header, although they are four bytes; and a
letter of the header is not read as that of a note. -/
example : Part.parse "ABÄC" = .error (.malformedPart "ABÄC") ∧
    Part.parse "GTA44B44" = .ok ⟨"GTA", [⟨.b, false, 4, 4⟩]⟩ := by
  decide +kernel

end Songbook

end Chiptune
