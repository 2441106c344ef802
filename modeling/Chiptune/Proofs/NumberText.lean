/-
  Numbers among other JSON text.

  A number ends where a comma, a bracket or the end of the text follows, so what is read
  of it does not depend on what stands behind.  Hence a number that reads back from its
  own text alone spells itself wherever it is written.
-/
import Chiptune.Proofs.Spelling
import Mathlib.Data.List.TakeWhile

set_option autoImplicit false

namespace Chiptune.Json

open Decimal (digitsOf)

/-! ## Written numbers -/

/-- A text without blanks. -/
def Bare (text : List Char) : Prop := ∀ c ∈ text, isSpace c = false

theorem isSpace_of_isDigit {c : Char} (h : c.isDigit = true) : isSpace c = false := by
  rw [Bool.eq_false_iff]
  intro hspace
  simp only [isSpace, Bool.or_eq_true, beq_iff_eq] at hspace
  rcases hspace with ((rfl | rfl) | rfl) | rfl <;> simp at h

theorem bare_append {first second : List Char} (h : Bare first) (h' : Bare second) :
    Bare (first ++ second) := fun _ hmem => (List.mem_append.1 hmem).elim (h _) (h' _)

theorem bare_cons {c : Char} {text : List Char} (h : isSpace c = false) (h' : Bare text) :
    Bare (c :: text) := List.forall_mem_cons.2 ⟨h, h'⟩

theorem bare_digitsOf (n : Nat) : Bare (digitsOf n) := fun _ hmem =>
  isSpace_of_isDigit (Nat.isDigit_of_mem_toDigits (by decide) (by decide) hmem)

theorem bare_zeros (count : Nat) : Bare (List.replicate count '0') := fun _ hmem =>
  List.eq_of_mem_replicate hmem ▸ rfl

theorem bare_signOf (negative : Bool) : Bare (Decimal.signOf negative) := by
  cases negative <;> simp [Bare, Decimal.signOf, isSpace]

theorem bare_writePlain (point : Bool) (d : Decimal.Digits) :
    Bare (Decimal.writePlain point d) := by
  have hdigits := bare_digitsOf d.coefficient
  unfold Decimal.writePlain
  dsimp only
  split
  · refine bare_append (bare_append hdigits (bare_zeros _)) ?_
    cases point <;> simp [Bare, isSpace]
  · split
    · exact bare_append (fun c hmem => hdigits c (List.mem_of_mem_take hmem))
        (bare_cons rfl fun c hmem => hdigits c (List.mem_of_mem_drop hmem))
    · exact bare_cons rfl (bare_cons rfl (bare_append (bare_zeros _) hdigits))

theorem bare_writeExponent (d : Decimal.Digits) : Bare (Decimal.writeExponent d) := by
  have hdigits := bare_digitsOf d.coefficient
  unfold Decimal.writeExponent
  dsimp only
  refine bare_append ?_ (bare_cons rfl (bare_cons ?_ (bare_digitsOf _)))
  · split
    · exact fun c hmem => absurd hmem List.not_mem_nil
    · rename_i heq
      exact heq ▸ hdigits
    · rename_i c rest _ heq
      rw [heq] at hdigits
      exact bare_cons (hdigits c List.mem_cons_self)
        (bare_cons rfl fun c hmem => hdigits c (List.mem_cons_of_mem _ hmem))
  · split <;> rfl

/-- No number is written with blanks, as long as none are in the words for other values. -/
theorem bare_write {l : Decimal.Layout} (hnan : Bare l.nan)
    (hinfinite : ∀ negative, Bare (l.infinite negative)) (reading : Decimal.Reading) :
    Bare (l.write reading) := by
  cases reading with
  | nan => exact hnan
  | infinite negative => exact hinfinite negative
  | finite negative size =>
    refine bare_append (bare_signOf negative) ?_
    split
    · exact bare_writePlain _ _
    · unfold Decimal.Layout.writeDigits
      split
      · exact bare_writePlain _ _
      · dsimp only
        split
        · exact bare_writePlain _ _
        · exact bare_writeExponent _

theorem bare_nullWord : Bare nullWord := by simp [Bare, nullWord, isSpace]

theorem bare_writeFloat (x : Float) : Bare (writeFloat x) :=
  bare_write bare_nullWord (fun _ => bare_nullWord) _

theorem bare_writeFloat32 (x : Float32) : Bare (writeFloat32 x) :=
  bare_write bare_nullWord (fun _ => bare_nullWord) _

/-! ## Reading with more text behind -/

/-- Reading `text` gives a value and leaves `left`, wherever `text` stands. -/
def Leaves {α : Type} (read : Reader α) (text left : List Char) (value : α) : Prop :=
  ∀ offset, ∃ after, read ⟨text, offset⟩ = .ok (value, ⟨left, after⟩)

/-- What is read of a text is read as well when a comma or a bracket comes behind it. -/
def SteadyOn {α : Type} (read : Reader α) (text : List Char) : Prop :=
  ∀ (left : List Char) (value : α) (offset after : Nat),
    read ⟨text, offset⟩ = .ok (value, ⟨left, after⟩) →
      left <:+ text ∧ ∀ rest, IsDelimited rest → Leaves read (text ++ rest) (left ++ rest) value

/-- What is read of any text does not depend on what comes behind it. -/
def Steady {α : Type} (read : Reader α) : Prop := ∀ text, SteadyOn read text

variable {α : Type} {read : Reader α} {text : List Char}

theorem SteadyOn.of_error (h : ∀ offset, ∃ fault, read ⟨text, offset⟩ = .error fault) :
    SteadyOn read text := by
  intro left value offset after hread
  obtain ⟨fault, hfault⟩ := h offset
  rw [hfault] at hread
  cases hread

theorem advance_append {count : Nat} (h : count ≤ text.length) (rest : List Char)
    (offset : Nat) :
    (⟨text ++ rest, offset⟩ : Cursor).advance count =
      ⟨text.drop count ++ rest, offset + count⟩ := by
  rw [Cursor.advance, List.drop_append_of_le_length h]

/-- A reader that hands over to a steady one behind the beginning of a text, whatever comes
behind the text, is steady on it. -/
theorem SteadyOn.of_eq {next : Reader α} (h : Steady next) {count : Nat}
    (hcount : count ≤ text.length)
    (heq : ∀ rest, IsDelimited rest → ∀ offset,
      read ⟨text ++ rest, offset⟩ = next (Cursor.advance ⟨text ++ rest, offset⟩ count)) :
    SteadyOn read text := by
  intro left value offset after hread
  have halone := heq [] isDelimited_nil offset
  rw [List.append_nil] at halone
  rw [halone] at hread
  obtain ⟨hsuffix, hmore⟩ := h _ _ _ _ _ hread
  refine ⟨hsuffix.trans (List.drop_suffix _ _), fun rest hrest offset => ?_⟩
  obtain ⟨after, hagain⟩ := hmore rest hrest (offset + count)
  exact ⟨after, by rw [heq rest hrest offset, advance_append hcount]; exact hagain⟩

/-- What is given without reading on is steady. -/
theorem steady_pure (value : α) : Steady fun c => .ok (value, c) := by
  intro text left given offset after h
  injection h with h
  injection h with hvalue hleft
  injection hleft with hleft
  subst hvalue hleft
  exact ⟨List.suffix_refl _, fun rest _ offset => ⟨offset, rfl⟩⟩

/-- A reader that does what a steady one does, whatever comes behind the text, is steady on it. -/
theorem SteadyOn.self {next : Reader α} (h : Steady next)
    (heq : ∀ rest, IsDelimited rest → ∀ offset,
      read ⟨text ++ rest, offset⟩ = next ⟨text ++ rest, offset⟩) :
    SteadyOn read text :=
  .of_eq h (Nat.zero_le _) heq

/-! ## Digits and what they are part of -/

/-- The digits that come next do not go on behind the text. -/
theorem digits_append {rest : List Char} (h : IsDelimited rest) (text : List Char)
    (offset : Nat) :
    (⟨text ++ rest, offset⟩ : Cursor).digits = text.takeWhile Char.isDigit := by
  have hrest : rest.takeWhile Char.isDigit = [] := by
    cases rest with
    | nil => rfl
    | cons c rest =>
      have hc : c.isDigit = false := by
        rcases h c rfl with rfl | rfl | rfl <;> rfl
      simp [hc]
  simp only [Cursor.digits, List.takeWhile_append, hrest, List.append_nil]
  split
  · rename_i hall
    exact ((List.takeWhile_prefix _).eq_of_length hall).symm
  · rfl

theorem length_digits_le (text : List Char) :
    (text.takeWhile Char.isDigit).length ≤ text.length :=
  (List.takeWhile_prefix _).length_le

theorem steady_realNumber (negative : Bool) (significand : Nat) (exponent : Int) :
    Steady (realNumber negative significand exponent) := by
  unfold realNumber
  split
  · exact steady_pure _
  · exact fun _ => .of_error fun _ => ⟨_, rfl⟩

/-- Reads the digits of an exponent behind its sign. -/
def readPower (negative : Bool) (significand : Nat) (exponent : Int) (below : Bool) :
    Reader Number := fun c =>
  match c.rest with
  | [] => c.fail .endInValue
  | first :: _ =>
    if first.isDigit then
      let ds := c.digits
      let (power, left) := gather maxExponent 0 ds
      if left.isEmpty then
        let shift : Int := if below then -(power : Int) else power
        realNumber negative significand (exponent + shift) (c.advance ds.length)
      else if significand ≠ 0 ∧ ¬ below then
        (c.advance (ds.length - left.length + 1)).fail .numberOutOfRange
      else .ok (.real (if negative then -0.0 else 0.0), c.advance ds.length)
    else .error (.located .invalidNumber (c.offset + 1))

theorem readExponent_eq (negative : Bool) (significand : Nat) (exponent : Int) (c : Cursor) :
    readExponent negative significand exponent c =
      readPower negative significand exponent (c.rest.head? == some '-')
        (if c.rest.head? == some '-' || c.rest.head? == some '+' then c.advance 1 else c) := rfl

theorem steady_readPower (negative : Bool) (significand : Nat) (exponent : Int) (below : Bool) :
    Steady (readPower negative significand exponent below) := by
  intro text
  cases text with
  | nil => exact .of_error fun _ => ⟨_, rfl⟩
  | cons first text =>
    by_cases hdigit : first.isDigit = true
    · have hcount := length_digits_le (first :: text)
      let power := gather maxExponent 0 ((first :: text).takeWhile Char.isDigit)
      by_cases hall : power.2.isEmpty = true
      · let shift : Int := if below then -(power.1 : Int) else power.1
        refine .of_eq (steady_realNumber negative significand (exponent + shift)) hcount
          fun rest hrest offset => ?_
        simp only [readPower, digits_append hrest]
        simp only [List.cons_append, if_pos hdigit]
        exact if_pos hall
      · by_cases hlarge : significand ≠ 0 ∧ ¬ below
        · let ds := (first :: text).takeWhile Char.isDigit
          refine .of_error fun offset => ⟨.located .numberOutOfRange
            (offset + (ds.length - power.2.length + 1)), ?_⟩
          simp only [readPower, if_pos hdigit]
          exact (if_neg hall).trans (if_pos hlarge)
        · refine .of_eq (steady_pure (.real (if negative then -0.0 else 0.0))) hcount
            fun rest hrest offset => ?_
          simp only [readPower, digits_append hrest]
          simp only [List.cons_append, if_pos hdigit]
          exact (if_neg hall).trans (if_neg hlarge)
    · exact .of_error fun offset => ⟨.located .invalidNumber (offset + 1), if_neg hdigit⟩

theorem steady_readExponent (negative : Bool) (significand : Nat) (exponent : Int) :
    Steady (readExponent negative significand exponent) := by
  intro text
  cases text with
  | nil => exact .of_error fun _ => ⟨_, rfl⟩
  | cons first text =>
    have hpower := steady_readPower negative significand exponent (some first == some '-')
    by_cases hsign : (some first == some '-' || some first == some '+') = true
    · refine .of_eq hpower (by simp : 1 ≤ _) fun rest _ offset => ?_
      rw [List.cons_append, readExponent_eq, List.head?_cons, if_pos hsign]
    · refine .self hpower fun rest _ offset => ?_
      rw [List.cons_append, readExponent_eq, List.head?_cons, if_neg hsign]

/-- What an exponent may follow goes on with one letter or with none. -/
theorem steady_readScale (negative : Bool) (significand : Nat) (exponent : Int) :
    Steady (readScale negative significand exponent) := by
  intro text
  cases text with
  | nil =>
    refine .self (steady_realNumber negative significand exponent) fun rest hrest offset => ?_
    cases rest with
    | nil => rfl
    | cons c rest => rcases hrest c rfl with rfl | rfl | rfl <;> rfl
  | cons first text =>
    by_cases hletter : first = 'e' ∨ first = 'E'
    · refine .of_eq (steady_readExponent negative significand exponent) (by simp : 1 ≤ _)
        fun rest _ offset => ?_
      rcases hletter with rfl | rfl <;> rfl
    · refine .self (steady_realNumber negative significand exponent) fun rest _ offset => ?_
      unfold readScale
      split
      · simp_all
      · simp_all
      · rfl

theorem steady_readPlaces (negative : Bool) (significand : Nat) (exponent : Int) :
    Steady (readPlaces negative significand exponent) := by
  intro text
  let ds := text.takeWhile Char.isDigit
  by_cases hnone : ds.isEmpty = true
  · exact .of_error fun offset => ⟨_, if_pos hnone⟩
  · let places := gather maxSignificand significand ds
    refine .of_eq (steady_readScale negative places.1
      (exponent - (ds.length - places.2.length : Nat))) (length_digits_le text)
      fun rest hrest offset => ?_
    simp only [readPlaces, digits_append hrest]
    exact if_neg hnone

/-- Reads what comes behind the digits of a whole number. -/
def readFraction (negative : Bool) (digits : List Char) : Reader Number := fun c =>
  let (significand, left) := gather maxSignificand 0 digits
  match c.rest with
  | '.' :: _ => readPlaces negative significand left.length (c.advance 1)
  | 'e' :: _ => readExponent negative significand left.length (c.advance 1)
  | 'E' :: _ => readExponent negative significand left.length (c.advance 1)
  | _ =>
    if left.isEmpty then .ok (wholeNumber negative significand, c)
    else realNumber negative significand left.length c

/-- What a number without places and exponent gives is given whatever comes behind it. -/
theorem steady_whole (negative : Bool) (digits : List Char) :
    Steady fun c =>
      if (gather maxSignificand 0 digits).2.isEmpty then
        .ok (wholeNumber negative (gather maxSignificand 0 digits).1, c)
      else
        realNumber negative (gather maxSignificand 0 digits).1
          (gather maxSignificand 0 digits).2.length c := by
  split
  · exact steady_pure _
  · exact steady_realNumber _ _ _

theorem steady_readFraction (negative : Bool) (digits : List Char) :
    Steady (readFraction negative digits) := by
  intro text
  let number := gather maxSignificand 0 digits
  have hwhole := steady_whole negative digits
  cases text with
  | nil =>
    refine .self hwhole fun rest hrest offset => ?_
    cases rest with
    | nil => rfl
    | cons c rest => rcases hrest c rfl with rfl | rfl | rfl <;> rfl
  | cons first text =>
    by_cases hpoint : first = '.'
    · subst hpoint
      exact .of_eq (steady_readPlaces negative number.1 number.2.length) (by simp : 1 ≤ _)
        fun rest _ offset => rfl
    · by_cases hletter : first = 'e' ∨ first = 'E'
      · refine .of_eq (steady_readExponent negative number.1 number.2.length) (by simp : 1 ≤ _)
          fun rest _ offset => ?_
        rcases hletter with rfl | rfl <;> rfl
      · refine .self hwhole fun rest _ offset => ?_
        unfold readFraction
        dsimp only
        split <;> simp_all

/-- What follows a number does not become its second digit. -/
theorem any_isDigit_head?_append {rest : List Char} (h : IsDelimited rest) (text : List Char) :
    (text ++ rest).head?.any Char.isDigit = text.head?.any Char.isDigit := by
  cases text with
  | cons c text => rfl
  | nil =>
    cases rest with
    | nil => rfl
    | cons c rest => rcases h c rfl with rfl | rfl | rfl <;> rfl

theorem steady_readNumber (negative : Bool) : Steady (readNumber negative) := by
  intro text
  cases text with
  | nil => exact .of_error fun _ => ⟨_, rfl⟩
  | cons first text =>
    by_cases hzero : first = '0' ∧ text.head?.any Char.isDigit
    · exact .of_error fun offset => ⟨_, if_pos hzero⟩
    · by_cases hdigit : first.isDigit = true
      · let ds := (first :: text).takeWhile Char.isDigit
        refine .of_eq (steady_readFraction negative ds) (length_digits_le _)
          fun rest hrest offset => ?_
        have hdigits := digits_append hrest (first :: text) offset
        rw [List.cons_append] at hdigits ⊢
        simp only [readNumber, any_isDigit_head?_append hrest, if_neg hzero, if_pos hdigit,
          hdigits]
        rfl
      · exact .of_error fun offset => ⟨_, (if_neg hzero).trans (if_neg hdigit)⟩

/-! ## Numbers that read back -/

/-- What fails in the end fails. -/
theorem error_of_bind {α β : Type} (result : Except Fault α) {next : α → Except Fault β}
    (h : ∀ value, ∃ fault, next value = .error fault) :
    ∃ fault, result >>= next = .error fault := by
  cases result with
  | error fault => exact ⟨fault, rfl⟩
  | ok value => exact h value

/-- What is no value of the wanted type gives a complaint, whatever it is. -/
theorem refuseType_error {α : Type} (wanted : String) (c : Cursor) :
    ∃ fault, (refuseType wanted c : Except Fault α) = .error fault := by
  have hfail : ∀ (cause : Cause) (c : Cursor), 
      ∃ fault, (c.fail cause : Except Fault α) = .error fault := fun _ _ => ⟨_, rfl⟩
  unfold refuseType
  split
  · exact ⟨_, rfl⟩
  · split_ifs
    all_goals first
      | exact ⟨_, rfl⟩
      | exact error_of_bind _ fun _ => hfail _ _

/-- A number begins with its sign or with a digit. -/
theorem readNumeric_cons {d : Char} (hspace : isSpace d = false) (wanted : String) :
    (d = '-' ∧ ∀ text offset, readNumeric wanted ⟨d :: text, offset⟩ =
        readNumber true (Cursor.advance ⟨d :: text, offset⟩ 1)) ∨
      (d.isDigit = true ∧ ∀ text offset, readNumeric wanted ⟨d :: text, offset⟩ =
        readNumber false ⟨d :: text, offset⟩) ∨
      ∀ text offset, ∃ fault, readNumeric wanted ⟨d :: text, offset⟩ = .error fault := by
  by_cases hminus : d = '-'
  · refine .inl ⟨hminus, fun text offset => ?_⟩
    rw [readNumeric, skipSpaces_cons hspace]
    exact if_pos hminus
  · by_cases hdigit : d.isDigit = true
    · refine .inr (.inl ⟨hdigit, fun text offset => ?_⟩)
      rw [readNumeric, skipSpaces_cons hspace]
      exact (if_neg hminus).trans (if_pos hdigit)
    · refine .inr (.inr fun text offset => ?_)
      obtain ⟨fault, hfault⟩ :=
        refuseType_error (α := Number × Cursor) wanted ⟨d :: text, offset⟩
      refine ⟨fault, ?_⟩
      rw [readNumeric, skipSpaces_cons hspace]
      exact ((if_neg hminus).trans (if_neg hdigit)).trans hfault

/-- Behind its sign a number is steady. -/
theorem steadyOn_readNumeric {d : Char} (hspace : isSpace d = false) (wanted : String)
    (text : List Char) : SteadyOn (readNumeric wanted) (d :: text) := by
  rcases readNumeric_cons hspace wanted with ⟨-, hsigned⟩ | ⟨-, hplain⟩ | hrefused
  · exact .of_eq (steady_readNumber true) (by simp : 1 ≤ _) fun rest _ offset =>
      hsigned (text ++ rest) offset
  · exact .self (steady_readNumber false) fun rest _ offset => hplain (text ++ rest) offset
  · exact .of_error (hrefused text)

/-- A number that is read from a whole text without blanks is read from it wherever the text
stands, and the text is not the word for no value. -/
theorem readNumeric_spells {wanted : String} {text : List Char} (hbare : Bare text)
    {number : Number} {c : Cursor} (h : readNumeric wanted ⟨text, 0⟩ = .ok (number, c))
    (hend : c.skipSpaces.rest = []) :
    Spells (readNumeric wanted) text number ∧ text.head? ≠ some 'n' := by
  cases text with
  | nil => cases h
  | cons d text =>
    have hspace : isSpace d = false := hbare d List.mem_cons_self
    have hfirst : d = '-' ∨ d.isDigit = true := by
      rcases readNumeric_cons hspace wanted with ⟨hminus, -⟩ | ⟨hdigit, -⟩ | hrefused
      · exact .inl hminus
      · exact .inr hdigit
      · obtain ⟨fault, hfault⟩ := hrefused text 0
        rw [hfault] at h
        cases h
    obtain ⟨hsuffix, hmore⟩ := steadyOn_readNumeric hspace wanted text c.rest number 0 c.offset h
    -- blanks that are left over would be blanks of the text
    have hall : c.rest = [] := by
      refine List.eq_nil_iff_forall_not_mem.2 fun b hmem => ?_
      have hb : isSpace b = true := List.dropWhile_eq_nil_iff.1 hend b hmem
      rw [hbare b (hsuffix.subset hmem)] at hb
      cases hb
    have hne : ∀ b : Char, b.isDigit = false → b ≠ '-' → d ≠ b := by
      rintro b hb hminus rfl
      rcases hfirst with rfl | hdigit
      · exact hminus rfl
      · rw [hb] at hdigit
        cases hdigit
    refine ⟨⟨⟨d, text, rfl, hspace, hne _ rfl (by decide)⟩, fun rest hrest offset => ?_⟩, ?_⟩
    · obtain ⟨after, hread⟩ := hmore rest hrest offset
      rw [hall] at hread
      exact ⟨after, hread⟩
    · exact fun hn => hne 'n' rfl (by decide) (Option.some.inj hn)

/-- A value is read back from the text that is written for it. -/
def ReadsBack {α : Type} (write : α → List Char) (read : Reader α) (value : α) : Prop :=
  readAll read (String.ofList (write value)) = .ok value

/-- A number that reads back from its own text is read back wherever the text stands. -/
theorem spells_of_readsBack {α : Type} {wanted : String} {f : Number → α}
    {write : α → List Char} {value : α} (hbare : Bare (write value))
    (h : ReadsBack write (fun c => do
      let (number, c) ← readNumeric wanted c
      .ok (f number, c)) value) :
    Spells (fun c => do
      let (number, c) ← readNumeric wanted c
      .ok (f number, c)) (write value) value ∧ (write value).head? ≠ some 'n' := by
  unfold ReadsBack readAll at h
  simp only [Cursor.start, String.toList_ofList] at h
  cases hread : readNumeric wanted ⟨write value, 0⟩ with
  | error fault =>
    rw [hread] at h
    cases h
  | ok pair =>
    obtain ⟨number, c⟩ := pair
    simp only [hread, bind, Except.bind] at h
    split at h
    · rename_i hend
      obtain ⟨hspells, hhead⟩ :=
        readNumeric_spells hbare hread (List.isEmpty_iff.1 hend)
      obtain rfl : f number = value := Except.ok.inj h
      exact ⟨hspells.map f, hhead⟩
    · cases h

theorem spells_writeFloat {x : Float} (h : ReadsBack writeFloat readFloat x) :
    Spells readFloat (writeFloat x) x :=
  (spells_of_readsBack (bare_writeFloat x) h).1

/-- A number stands for itself where null may stand as well. -/
theorem spells_some_writeFloat32 {x : Float32} (h : ReadsBack writeFloat32 readFloat32 x) :
    Spells (readOption readFloat32) (writeFloat32 x) (some x) := by
  obtain ⟨hspells, hhead⟩ := spells_of_readsBack (bare_writeFloat32 x) h
  refine ⟨hspells.opens, fun rest hrest offset => ?_⟩
  obtain ⟨after, hread⟩ := hspells.yields rest hrest offset
  obtain ⟨d, text, htext, hspace, -⟩ := hspells.opens
  rw [htext] at hread hhead ⊢
  refine ⟨after, ?_⟩
  rw [List.cons_append] at hread ⊢
  rw [readOption, skipSpaces_cons hspace]
  dsimp only
  split
  · rename_i heq
    exact absurd (List.cons.inj heq).1 fun hd => hhead (by rw [hd]; rfl)
  · simp only [bind, Except.bind]
    rw [show readFloat32 ⟨d :: (text ++ rest), offset⟩ = _ from hread]

end Chiptune.Json
