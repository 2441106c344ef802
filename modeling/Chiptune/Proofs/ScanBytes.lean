/-
  Notes in a text of bytes.

  A text may be read byte by byte, each byte taken for the character of its number.
  Characters beyond ASCII then fall into several that are no more part of a note than they
  are, and so the notes are the same.
-/
import Chiptune.Notation.Scan
import Mathlib.Data.List.Basic

set_option autoImplicit false

namespace Chiptune.Notation

/-! ## Steps of the scanner -/

@[simp] theorem scan_nil : scan [] = [] := by
  rw [scan]

theorem scan_of_readNote? {body after : List Char} {note : Note}
    (h : readNote? body = some (note, after)) : scan body = note :: scan after := by
  cases body with
  | nil => cases h
  | cons c rest =>
    rw [scan]
    split
    · rename_i heq
      rw [h] at heq
      cases heq
      rfl
    · rename_i heq
      rw [h] at heq
      cases heq

theorem scan_cons_of_none {c : Char} {rest : List Char} (h : readNote? (c :: rest) = none) :
    scan (c :: rest) = scan rest := by
  rw [scan]
  split
  · rename_i heq
    rw [h] at heq
    cases heq
  · rfl

/-- No note begins with a character that is not the letter of one. -/
theorem readNote?_of_letter {c : Char} (h : Pitch.ofLetter? c = none) (rest : List Char) :
    readNote? (c :: rest) = none := by
  rw [readNote?, h]
  rfl

/-- Such characters are passed. -/
theorem scan_append_of_letterless {block : List Char} (h : ∀ c ∈ block, Pitch.ofLetter? c = none)
    (rest : List Char) : scan (block ++ rest) = scan rest := by
  induction block with
  | nil => rfl
  | cons c block ih =>
    obtain ⟨hc, hblock⟩ := List.forall_mem_cons.1 h
    rw [List.cons_append, scan_cons_of_none (readNote?_of_letter hc _), ih hblock]

/-! ## Characters that are no part of a note -/

/-- Characters that stand in no note. -/
structure Inert (c : Char) : Prop where
  letter : Pitch.ofLetter? c = none
  sharp : c ≠ '#'
  digit : ∀ high ≤ 9, digit? high c = none

/-- Characters beyond ASCII stand in no note. -/
theorem inert_of_le {c : Char} (h : 128 ≤ c.toNat) : Inert c := by
  have hne : ∀ ascii : Char, ascii.toNat < 128 → c ≠ ascii := by
    rintro ascii hlt rfl
    omega
  refine ⟨?_, hne '#' (by decide), ?_⟩
  · unfold Pitch.ofLetter?
    simp [hne 'A' (by decide), hne 'B' (by decide), hne 'C' (by decide), hne 'D' (by decide),
      hne 'E' (by decide), hne 'F' (by decide), hne 'G' (by decide), hne 'X' (by decide)]
  · intro high hle
    have hzero : '0'.toNat = 48 := rfl
    simp only [digit?, hzero]
    exact if_neg (by omega)

/-! ## Bytes as characters -/

/-- The bytes of a character, each taken for the character of its number. -/
def widened (c : Char) : List Char := (String.utf8EncodeChar c).map Char.ofUInt8

/-- The notes in a text of bytes, each of them taken for a character. -/
def scanBytes (bytes : List UInt8) : List Note := scan (bytes.map Char.ofUInt8)

theorem toNat_ofUInt8 (byte : UInt8) : (Char.ofUInt8 byte).toNat = byte.toNat := rfl

/-- A character of ASCII is one byte, its number. -/
theorem utf8EncodeChar_of_lt {c : Char} (h : c.toNat < 128) :
    String.utf8EncodeChar c = [UInt8.ofNat c.toNat] := by
  have hval : c.val.toNat ≤ 127 := Nat.le_of_lt_succ h
  rw [String.utf8EncodeChar]
  exact if_pos hval

/-- So it is the same as a byte. -/
theorem widened_of_lt {c : Char} (h : c.toNat < 128) : widened c = [c] := by
  have hbyte : Char.ofUInt8 (UInt8.ofNat c.toNat) = c := by
    refine Char.toNat_inj.1 ?_
    rw [toNat_ofUInt8, UInt8.toNat_ofNat', Nat.mod_eq_of_lt (by omega)]
  rw [widened, utf8EncodeChar_of_lt h, List.map_singleton, hbyte]

/-- The bytes of all other characters are beyond ASCII. -/
theorem le_of_mem_utf8EncodeChar {c : Char} (h : 128 ≤ c.toNat) :
    ∀ byte ∈ String.utf8EncodeChar c, 128 ≤ byte.toNat := by
  have hval : ¬ c.val.toNat ≤ 127 := Nat.not_le_of_lt h
  simp only [String.utf8EncodeChar, if_neg hval]
  generalize c.val.toNat = number
  split
  · simp only [List.forall_mem_cons, UInt8.toNat_ofNat']
    refine ⟨?_, ?_, List.forall_mem_nil _⟩ <;> omega
  · split
    · simp only [List.forall_mem_cons, UInt8.toNat_ofNat']
      refine ⟨?_, ?_, ?_, List.forall_mem_nil _⟩ <;> omega
    · simp only [List.forall_mem_cons, UInt8.toNat_ofNat']
      refine ⟨?_, ?_, ?_, ?_, List.forall_mem_nil _⟩ <;> omega

/-- A character is as it was in ASCII, or some characters that stand in no note. -/
theorem widened_cases (c : Char) :
    widened c = [c] ∨
      (Inert c ∧ ∃ d block, widened c = d :: block ∧ ∀ e ∈ d :: block, Inert e) := by
  rcases Nat.lt_or_ge c.toNat 128 with hlt | hle
  · exact Or.inl (widened_of_lt hlt)
  · refine Or.inr ⟨inert_of_le hle, ?_⟩
    have hne : widened c ≠ [] := List.map_eq_nil_iff.not.2 String.utf8EncodeChar_ne_nil
    obtain ⟨d, block, heq⟩ := List.exists_cons_of_ne_nil hne
    refine ⟨d, block, heq, fun e hmem => inert_of_le ?_⟩
    obtain ⟨byte, hbyte, rfl⟩ := List.mem_map.1 (heq ▸ hmem : e ∈ widened c)
    exact le_of_mem_utf8EncodeChar hle byte hbyte

/-! ## The same notes are read -/

theorem readCode_widened (first : Nat) (cs : List Char) :
    readCode first (cs.flatMap widened) =
      ((readCode first cs).1, (readCode first cs).2.flatMap widened) := by
  cases cs with
  | nil => rfl
  | cons c rest =>
    rcases widened_cases c with heq | ⟨hinert, d, block, heq, hblock⟩
    · rw [List.flatMap_cons, heq, List.singleton_append, readCode, readCode]
      cases digit? 9 c with
      | none => simp [heq]
      | some second => rfl
    · have hd := (hblock d List.mem_cons_self).digit 9 (Nat.le_refl 9)
      rw [List.flatMap_cons, heq, List.cons_append, readCode, readCode,
        hinert.digit 9 (Nat.le_refl 9), hd]
      simp [heq]

theorem readSharp_of_ne {c : Char} (h : c ≠ '#') (rest : List Char) :
    readSharp (c :: rest) = (false, c :: rest) := by
  unfold readSharp
  split
  · rename_i heq
    exact absurd (List.cons.inj heq).1 h
  · rfl

theorem readSharp_widened (cs : List Char) :
    readSharp (cs.flatMap widened) =
      ((readSharp cs).1, (readSharp cs).2.flatMap widened) := by
  cases cs with
  | nil => rfl
  | cons c rest =>
    rcases widened_cases c with heq | ⟨hinert, d, block, heq, hblock⟩
    · by_cases hsharp : c = '#'
      · subst hsharp
        rw [List.flatMap_cons, heq]
        rfl
      · rw [List.flatMap_cons, heq, List.singleton_append, readSharp_of_ne hsharp,
          readSharp_of_ne hsharp, List.flatMap_cons, heq]
        rfl
    · have hd := (hblock d List.mem_cons_self).sharp
      rw [List.flatMap_cons, heq, List.cons_append, readSharp_of_ne hd,
        readSharp_of_ne hinert.sharp, List.flatMap_cons, heq]
      rfl

/-- Without an octave there are no figures. -/
theorem readFigures?_of_octave {c : Char} (h : digit? 8 c = none) (rest : List Char) :
    readFigures? (c :: rest) = none := by
  cases rest with
  | nil => rfl
  | cons d rest =>
    rw [readFigures?, h]
    rfl

/-- Without a length code there are none either. -/
theorem readFigures?_of_code (c : Char) {d : Char} (h : digit? 9 d = none) (rest : List Char) :
    readFigures? (c :: d :: rest) = none := by
  rw [readFigures?, h]
  cases digit? 8 c <;> rfl

theorem readFigures?_widened (cs : List Char) :
    readFigures? (cs.flatMap widened) =
      (readFigures? cs).map fun (octave, code, after) =>
        (octave, code, after.flatMap widened) := by
  cases cs with
  | nil => rfl
  | cons c rest =>
    rcases widened_cases c with heq | ⟨hinert, e, block, heq, hblock⟩
    · cases rest with
      | nil => rw [List.flatMap_cons, heq]; rfl
      | cons d rest =>
        rcases widened_cases d with heq' | ⟨hinert, e, block, heq', hblock⟩
        · rw [List.flatMap_cons, heq, List.flatMap_cons, heq', List.singleton_append,
            List.singleton_append, readFigures?, readFigures?]
          cases digit? 8 c with
          | none => rfl
          | some octave =>
            cases digit? 9 d with
            | none => rfl
            | some first =>
              simp only [Option.bind_eq_bind, Option.bind_some, readCode_widened, Option.map_some]
        · have he := (hblock e List.mem_cons_self).digit 9 (Nat.le_refl 9)
          rw [readFigures?_of_code c (hinert.digit 9 (Nat.le_refl 9)), List.flatMap_cons, heq,
            List.flatMap_cons, heq', List.singleton_append, List.cons_append,
            readFigures?_of_code c he]
          rfl
    · have he := (hblock e List.mem_cons_self).digit 8 (by omega)
      rw [readFigures?_of_octave (hinert.digit 8 (by omega)), List.flatMap_cons, heq,
        List.cons_append, readFigures?_of_octave he]
      rfl

theorem readNote?_widened (cs : List Char) :
    readNote? (cs.flatMap widened) =
      (readNote? cs).map fun (note, after) => (note, after.flatMap widened) := by
  cases cs with
  | nil => rfl
  | cons c rest =>
    rcases widened_cases c with heq | ⟨hinert, e, block, heq, hblock⟩
    · rw [List.flatMap_cons, heq, List.singleton_append, readNote?, readNote?]
      cases Pitch.ofLetter? c with
      | none => rfl
      | some pitch =>
        simp only [Option.bind_eq_bind, Option.bind_some, readSharp_widened, readFigures?_widened]
        cases readFigures? (readSharp rest).2 <;> rfl
    · have he := hblock e List.mem_cons_self
      rw [readNote?_of_letter hinert.letter, List.flatMap_cons, heq, List.cons_append,
      readNote?_of_letter he.letter]
      rfl

/-- Characters that are widened do not change the notes. -/
theorem scan_widened (cs : List Char) : scan (cs.flatMap widened) = scan cs := by
  fun_induction scan cs with
  | case1 => exact scan_nil
  | case2 c rest note after hread ih =>
    have hwide := readNote?_widened (c :: rest)
    rw [hread] at hwide
    rw [scan_of_readNote? hwide, ih]
  | case3 c rest hread ih =>
    have hwide := readNote?_widened (c :: rest)
    rw [hread] at hwide
    rw [List.flatMap_cons] at hwide ⊢
    rcases widened_cases c with heq | ⟨-, e, block, heq, hblock⟩
    · rw [heq, List.singleton_append] at hwide ⊢
      rw [scan_cons_of_none hwide, ih]
    · rw [heq, scan_append_of_letterless fun e hmem => (hblock e hmem).letter, ih]

/-- The bytes of a text. -/
def bytesOf (text : String) : List UInt8 := text.toUTF8.data.toList

/-- They are those of its characters. -/
theorem bytesOf_eq (text : String) : bytesOf text = text.toList.flatMap String.utf8EncodeChar := by
  rw [bytesOf, String.toUTF8, ← String.utf8Encode_toList, List.utf8Encode, List.data_toByteArray]

/-- **A text may be scanned byte by byte.**  Its bytes have the notes of its characters. -/
theorem scanBytes_toUTF8 (body : String) :
    scanBytes body.toUTF8.data.toList = scan body.toList := by
  have hbytes : body.toUTF8.data.toList = body.toList.flatMap String.utf8EncodeChar :=
    bytesOf_eq body
  rw [scanBytes, hbytes, List.map_flatMap]
  exact scan_widened body.toList

end Chiptune.Notation
