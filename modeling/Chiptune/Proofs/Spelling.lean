/-
  Texts that spell a value.

  A text spells a value for a reader when the reader gives this value wherever the text
  stands, and stops right behind it.  What spells the parts of a list, of an object or of
  a record spells the whole, so that whatever is written can be read piece by piece.
-/
import Chiptune.Json.Value
import Chiptune.Json.Writer
import Mathlib.Data.List.Basic

set_option autoImplicit false

namespace Chiptune.Json

/-- What may follow a value: the end of the text, a comma, or the end of the structure
around it. -/
def IsDelimited (rest : List Char) : Prop :=
  ∀ c ∈ rest.head?, c = ',' ∨ c = ']' ∨ c = '\x7d'

/-- What a value may begin with: no blank, and not the end of a list. -/
def Opens (text : List Char) : Prop :=
  ∃ c rest, text = c :: rest ∧ isSpace c = false ∧ c ≠ ']'

/-- Reading `text` with `rest` behind it gives a value and leaves `rest`. -/
def Yields {α : Type} (read : Reader α) (text rest : List Char) (value : α) : Prop :=
  ∀ offset, ∃ after, read ⟨text ++ rest, offset⟩ = .ok (value, ⟨rest, after⟩)

/-- Wherever a text stands, a value is read from it, to its end. -/
structure Spells {α : Type} (read : Reader α) (text : List Char) (value : α) : Prop where
  opens : Opens text
  yields : ∀ rest, IsDelimited rest → Yields read text rest value

theorem isDelimited_nil : IsDelimited [] := by simp [IsDelimited]

theorem isDelimited_cons {c : Char} (h : c = ',' ∨ c = ']' ∨ c = '\x7d') (rest : List Char) :
    IsDelimited (c :: rest) := by simpa [IsDelimited] using h

theorem skipSpaces_cons {c : Char} (h : isSpace c = false) (rest : List Char) (offset : Nat) :
    (⟨c :: rest, offset⟩ : Cursor).skipSpaces = ⟨c :: rest, offset⟩ := by
  simp [Cursor.skipSpaces, h]

/-- A text that holds one value and nothing else is read. -/
theorem Spells.readAll {α : Type} {read : Reader α} {text : List Char} {value : α}
    (h : Spells read text value) : readAll read (String.ofList text) = .ok value := by
  obtain ⟨after, hread⟩ := h.yields [] isDelimited_nil 0
  rw [List.append_nil] at hread
  simp only [Json.readAll, Cursor.start, String.toList_ofList, hread]
  rfl

/-- What is worked out from a value that is read can be read itself. -/
theorem Spells.map {α β : Type} {read : Reader α} {text : List Char} {value : α}
    (h : Spells read text value) (f : α → β) :
    Spells (fun c => do
      let (value, c) ← read c
      .ok (f value, c)) text (f value) where
  opens := h.opens
  yields rest hrest offset := by
    obtain ⟨after, hread⟩ := h.yields rest hrest offset
    exact ⟨after, by simp only [hread]; rfl⟩

/-! ## Strings -/

/-- The two hexadecimal digits that end the escape of a control character are read back. -/
theorem hexValue?_hexDigits {n : Nat} (h : n < 0x20) :
    (if n < 0x10 then '0' :: Text.hexDigits n else Text.hexDigits n).map hexValue? =
      [some (n / 16), some (n % 16)] := by
  revert n
  decide

/-- An escape of four digits stands for the control character of this number. -/
theorem readEscape_control {c d e : Char} (h : c.toNat < 0x20)
    (hdigits : [d, e].map hexValue? = [some (c.toNat / 16), some (c.toNat % 16)])
    (rest : List Char) (offset : Nat) :
    readEscape ⟨'u' :: '0' :: '0' :: d :: e :: rest, offset⟩ = .ok (c, 5) := by
  have hvalues : hexValue? d = some (c.toNat / 16) ∧ hexValue? e = some (c.toNat % 16) := by
    simpa using hdigits
  have hunit : readUnit ⟨'0' :: '0' :: d :: e :: rest, offset + 1⟩ = .ok c.toNat := by
    have hzero : hexValue? '0' = some 0 := by decide
    simp only [readUnit, hzero, hvalues.1, hvalues.2]
    exact congrArg Except.ok (by omega)
  have hleading : isLeading c.toNat = false := by simp [isLeading]; omega
  have htrailing : isTrailing c.toNat = false := by simp [isTrailing]; omega
  simp only [readEscape, if_true, Cursor.advance, List.drop_succ_cons, List.drop_zero, hunit]
  simp [bind, Except.bind, hleading, htrailing, Char.ofNat_toNat]

/-- A character stands for itself, or what is behind a backslash is read as the character. -/
theorem escapeChar_cases (c : Char) :
    (escapeChar c = [c] ∧ c ≠ '"' ∧ c ≠ '\\' ∧ ¬ c.toNat < 0x20) ∨
      ∃ body, escapeChar c = '\\' :: body ∧
        ∀ rest offset, readEscape ⟨body ++ rest, offset⟩ = .ok (c, body.length) := by
  by_cases hcontrol : c.toNat < 0x20
  · right
    have hdigits := hexValue?_hexDigits hcontrol
    obtain ⟨d, e, htwo⟩ := List.length_eq_two.1 (by simpa using congrArg List.length hdigits)
    rw [htwo] at hdigits
    have hread := readEscape_control hcontrol hdigits
    unfold escapeChar
    split_ifs at htwo ⊢ <;> subst_vars
    all_goals first
      | exact ⟨_, rfl, fun rest offset => rfl⟩
      | exact ⟨'u' :: '0' :: '0' :: [d, e], by simpa using htwo, hread⟩
  · unfold escapeChar
    split_ifs with hquote hslash <;> subst_vars
    all_goals first
      | exact .inr ⟨_, rfl, fun rest offset => rfl⟩
      | omega
      | exact .inl ⟨rfl, hquote, hslash, hcontrol⟩

/-- A string that is written is read back, up to its closing quote. -/
theorem readText_escaped (text rest : List Char) (offset : Nat) :
    ∃ after, readText (text.flatMap escapeChar ++ '"' :: rest) offset =
      .ok (text, ⟨rest, after⟩) := by
  induction text generalizing offset with
  | nil => exact ⟨offset + 1, by rw [List.flatMap_nil, List.nil_append, readText, if_pos rfl]⟩
  | cons c text ih =>
    rw [List.flatMap_cons, List.append_assoc]
    rcases escapeChar_cases c with ⟨hplain, hquote, hslash, hcontrol⟩ | ⟨body, hescaped, hread⟩
    · obtain ⟨after, hrest⟩ := ih (offset + c.utf8Size)
      refine ⟨after, ?_⟩
      rw [hplain, List.singleton_append, readText, if_neg hquote, if_neg hslash,
        if_neg hcontrol, hrest]
      rfl
    · obtain ⟨after, hrest⟩ := ih (offset + 1 + body.length)
      refine ⟨after, ?_⟩
      rw [hescaped, List.cons_append, readText, if_neg (by decide), if_pos rfl, hread]
      simp only [bind, Except.bind, List.drop_left, hrest]

/-- The text of a string, with what follows it. -/
theorem writeString_append (text : String) (rest : List Char) :
    writeString text ++ rest = '"' :: (text.toList.flatMap escapeChar ++ '"' :: rest) := by
  simp [writeString]

/-- A string is read behind its opening quote. -/
theorem readString_written (text : String) (rest : List Char) (offset : Nat) :
    ∃ after, readString ⟨text.toList.flatMap escapeChar ++ '"' :: rest, offset⟩ =
      .ok (text, ⟨rest, after⟩) := by
  obtain ⟨after, hread⟩ := readText_escaped text.toList rest offset
  refine ⟨after, ?_⟩
  simp only [readString, hread, bind, Except.bind, String.ofList_toList]

theorem spells_writeString (text : String) : Spells readPlainString (writeString text) text where
  opens := ⟨'"', _, rfl, rfl, by decide⟩
  yields rest _ offset := by
    rw [writeString_append]
    obtain ⟨after, hread⟩ := readString_written text rest (offset + 1)
    exact ⟨after, hread⟩

/-! ## Truth values -/

theorem spells_writeBool (value : Bool) : Spells readBool (writeBool value) value where
  opens := by
    cases value
    · exact ⟨'f', _, rfl, rfl, by decide⟩
    · exact ⟨'t', _, rfl, rfl, by decide⟩
  yields rest _ offset := by
    cases value
    · exact ⟨offset + 5, rfl⟩
    · exact ⟨offset + 4, rfl⟩

/-! ## Lists -/

/-- Items with a comma before each of them, but for the one that comes first of all. -/
def separated : Bool → List (List Char) → List Char
  | _, [] => []
  | true, item :: items => item ++ separated false items
  | false, item :: items => ',' :: item ++ separated false items

theorem intercalate_eq_separated (items : List (List Char)) :
    [','].intercalate items = separated true items := by
  have hothers : ∀ item items,
      [','].intercalate (item :: items) = item ++ separated false items := by
    intro item items
    induction items generalizing item with
    | nil => simp [separated]
    | cons next items ih => rw [List.intercalate_cons_cons, ih]; simp [separated]
  cases items with
  | nil => rfl
  | cons item items => exact hothers item items

/-- Items without the first one are at least as many characters. -/
theorem length_le_length_separated (items : List (List Char)) :
    items.length ≤ (separated false items).length := by
  induction items with
  | nil => exact Nat.le_refl _
  | cons item items ih =>
    simp only [separated, List.cons_append, List.length_cons, List.length_append]
    omega

/-- The text of the items leaves room for one step each, and for the one that finds the end. -/
theorem length_lt_fuel (first : Bool) (items : List (List Char)) (c : Char) (rest : List Char) :
    items.length < (separated first items ++ c :: rest).length + 1 := by
  have hothers := length_le_length_separated
  cases items with
  | nil => simp
  | cons item items =>
    have := hothers items
    cases first <;>
      simp only [separated, List.cons_append, List.length_cons, List.length_append] <;> omega

/-- What follows an item is a comma, or what follows the items. -/
theorem isDelimited_separated {c : Char} (h : c = ',' ∨ c = ']' ∨ c = '\x7d')
    (items : List (List Char)) (rest : List Char) :
    IsDelimited (separated false items ++ c :: rest) := by
  cases items with
  | nil => exact isDelimited_cons h rest
  | cons item items => exact isDelimited_cons (.inl rfl) _

/-- Behind its comma, if there is one, an item is found. -/
theorem nextItem_separated (first : Bool) {item : List Char} (h : Opens item)
    (items : List (List Char)) (rest : List Char) (offset : Nat) :
    ∃ after, nextItem first ⟨separated first (item :: items) ++ rest, offset⟩ =
      .ok (true, ⟨item ++ (separated false items ++ rest), after⟩) := by
  obtain ⟨c, tail, rfl, hspace, hclose⟩ := h
  cases first with
  | true =>
    refine ⟨offset, ?_⟩
    simp only [separated, List.cons_append, List.append_assoc, nextItem, skipSpaces_cons hspace,
      if_neg hclose, if_true]
  | false =>
    refine ⟨offset + 1, ?_⟩
    have hcomma : isSpace ',' = false := rfl
    simp only [separated, List.cons_append, List.append_assoc, nextItem, skipSpaces_cons hcomma,
      Cursor.advance, List.drop_succ_cons, List.drop_zero, skipSpaces_cons hspace,
      if_neg hclose, if_true, Bool.false_eq_true, if_false]
    rfl

variable {α : Type}

/-- Items that are spelled one by one are read as a list. -/
theorem readItems_separated {read : Reader α} {write : α → List Char} {items : List α}
    (h : ∀ item ∈ items, Spells read (write item) item) {fuel : Nat}
    (hfuel : items.length < fuel) (first : Bool) (rest : List Char) (offset : Nat) :
    ∃ after, readItems read fuel first
        ⟨separated first (items.map write) ++ ']' :: rest, offset⟩ =
      .ok (items, ⟨']' :: rest, after⟩) := by
  induction items generalizing fuel first offset with
  | nil =>
    obtain ⟨fuel, rfl⟩ := Nat.exists_eq_succ_of_ne_zero (by omega : fuel ≠ 0)
    exact ⟨offset, by cases first <;> rfl⟩
  | cons item items ih =>
    obtain ⟨fuel, rfl⟩ := Nat.exists_eq_succ_of_ne_zero (by omega : fuel ≠ 0)
    have hitem := h item List.mem_cons_self
    obtain ⟨start, hnext⟩ :=
      nextItem_separated first hitem.opens (items.map write) (']' :: rest) offset
    obtain ⟨between, hread⟩ := hitem.yields _
      (isDelimited_separated (.inr (.inl rfl)) (items.map write) rest) start
    obtain ⟨after, hothers⟩ := ih (fun item hmem => h item (List.mem_cons_of_mem _ hmem))
      (Nat.lt_of_succ_lt_succ hfuel) false between
    refine ⟨after, ?_⟩
    simp only [List.map_cons, readItems, hnext, hread, hothers, bind, Except.bind, if_true]

theorem withinList_ok {body : Reader α} {text rest : List Char} {value : α} {offset after : Nat}
    (h : body ⟨text, offset + 1⟩ = .ok (value, ⟨']' :: rest, after⟩)) :
    withinList body ⟨'[' :: text, offset⟩ = .ok (value, ⟨rest, after + 1⟩) := by
  simp only [withinList, Cursor.advance, List.drop_succ_cons, List.drop_zero, h]
  rfl

/-- Items that are spelled make a list that is spelled. -/
theorem spells_writeList {read : Reader α} {write : α → List Char} {items : List α}
    (h : ∀ item ∈ items, Spells read (write item) item) :
    Spells (readList read) (writeList (items.map write)) items where
  opens := ⟨'[', _, rfl, rfl, by decide⟩
  yields rest _ offset := by
    have htext : writeList (items.map write) ++ rest =
        '[' :: (separated true (items.map write) ++ ']' :: rest) := by
      simp [writeList, intercalate_eq_separated]
    have hroom := length_lt_fuel true (items.map write) ']' rest
    rw [List.length_map] at hroom
    obtain ⟨after, hread⟩ := readItems_separated h hroom true rest (offset + 1)
    refine ⟨after + 1, ?_⟩
    rw [htext, readList, skipSpaces_cons rfl]
    exact withinList_ok hread

/-! ## Objects -/

/-- The text of one entry of an object. -/
def entryText (entry : String × List Char) : List Char := writeString entry.1 ++ ':' :: entry.2

theorem writeObject_append (entries : List (String × List Char)) (rest : List Char) :
    writeObject entries ++ rest =
      '\x7b' :: (separated true (entries.map entryText) ++ '\x7d' :: rest) := by
  simp only [writeObject, intercalate_eq_separated, List.cons_append, List.append_assoc]
  rfl

/-- Behind its comma, if there is one, a key is read up to its colon. -/
theorem nextKey_separated (first : Bool) (name : String) (text : List Char)
    (entries : List (List Char)) (rest : List Char) (offset : Nat) :
    ∃ after, nextKey first
        ⟨separated first (entryText (name, text) :: entries) ++ rest, offset⟩ =
      .ok (some name, ⟨':' :: (text ++ (separated false entries ++ rest)), after⟩) := by
  have hentry : entryText (name, text) ++ (separated false entries ++ rest) =
      '"' :: (name.toList.flatMap escapeChar ++
        '"' :: ':' :: (text ++ (separated false entries ++ rest))) := by
    rw [entryText, List.append_assoc, writeString_append]
    rfl
  cases first with
  | true =>
    obtain ⟨after, hread⟩ := readString_written name
      (':' :: (text ++ (separated false entries ++ rest))) (offset + 1)
    refine ⟨after, ?_⟩
    rw [separated, List.append_assoc, hentry, nextKey, skipSpaces_cons rfl]
    simp only [Cursor.advance, List.drop_succ_cons, List.drop_zero, hread]
    rfl
  | false =>
    obtain ⟨after, hread⟩ := readString_written name
      (':' :: (text ++ (separated false entries ++ rest))) (offset + 1 + 1)
    refine ⟨after, ?_⟩
    have htext : separated false (entryText (name, text) :: entries) ++ rest =
        ',' :: (entryText (name, text) ++ (separated false entries ++ rest)) := by
      simp [separated]
    have hquote : isSpace '"' = false := rfl
    rw [htext, hentry, nextKey, skipSpaces_cons rfl]
    simp only [Cursor.advance, List.drop_succ_cons, List.drop_zero, skipSpaces_cons hquote,
      hread]
    rfl

theorem passColon_cons (rest : List Char) (offset : Nat) :
    passColon ⟨':' :: rest, offset⟩ = .ok ⟨rest, offset + 1⟩ := rfl

theorem withinObject_ok {body : Reader α} {text rest : List Char} {value : α}
    {offset after : Nat}
    (h : body ⟨text, offset + 1⟩ = .ok (value, ⟨'\x7d' :: rest, after⟩)) :
    withinObject body ⟨'\x7b' :: text, offset⟩ = .ok (value, ⟨rest, after + 1⟩) := by
  simp only [withinObject, Cursor.advance, List.drop_succ_cons, List.drop_zero, h]
  rfl

/-- Entries whose values are spelled are read with their keys. -/
theorem readEntries_separated {read : Reader α} {write : α → List Char}
    {entries : List (String × α)} (h : ∀ entry ∈ entries, Spells read (write entry.2) entry.2)
    {fuel : Nat} (hfuel : entries.length < fuel) (first : Bool) (rest : List Char)
    (offset : Nat) :
    ∃ after, readEntries read fuel first
        ⟨separated first (entries.map fun entry => entryText (entry.1, write entry.2)) ++
          '\x7d' :: rest, offset⟩ =
      .ok (entries, ⟨'\x7d' :: rest, after⟩) := by
  induction entries generalizing fuel first offset with
  | nil =>
    obtain ⟨fuel, rfl⟩ := Nat.exists_eq_succ_of_ne_zero (by omega : fuel ≠ 0)
    exact ⟨offset, by cases first <;> rfl⟩
  | cons entry entries ih =>
    obtain ⟨fuel, rfl⟩ := Nat.exists_eq_succ_of_ne_zero (by omega : fuel ≠ 0)
    have hvalue := h entry List.mem_cons_self
    obtain ⟨start, hkey⟩ := nextKey_separated first entry.1 (write entry.2)
      (entries.map fun entry => entryText (entry.1, write entry.2)) ('\x7d' :: rest) offset
    obtain ⟨between, hread⟩ := hvalue.yields _
      (isDelimited_separated (.inr (.inr rfl))
        (entries.map fun entry => entryText (entry.1, write entry.2)) rest) (start + 1)
    obtain ⟨after, hothers⟩ := ih (fun entry hmem => h entry (List.mem_cons_of_mem _ hmem))
      (Nat.lt_of_succ_lt_succ hfuel) false between
    refine ⟨after, ?_⟩
    simp only [List.map_cons, readEntries, hkey, passColon_cons, hread, hothers, bind,
      Except.bind]

/-- Entries whose values are spelled make an object that is spelled. -/
theorem spells_writeObject {read : Reader α} {write : α → List Char}
    {entries : List (String × α)}
    (h : ∀ entry ∈ entries, Spells read (write entry.2) entry.2) :
    Spells (readObject read) (writeObject (entries.map fun entry => (entry.1, write entry.2)))
      entries where
  opens := ⟨'\x7b', _, rfl, rfl, by decide⟩
  yields rest _ offset := by
    have hroom := length_lt_fuel true
      (entries.map fun entry => entryText (entry.1, write entry.2)) '\x7d' rest
    rw [List.length_map] at hroom
    obtain ⟨after, hread⟩ := readEntries_separated h hroom true rest (offset + 1)
    refine ⟨after + 1, ?_⟩
    rw [writeObject_append, List.map_map, readObject, skipSpaces_cons rfl]
    exact withinObject_ok hread

/-! ## Records -/

section Records

variable {δ : Type} {shape : Shape δ α}

/-- Reading the written fields of a record one after another takes one draft to another. -/
inductive Fills (shape : Shape δ α) : δ → List (String × List Char) → δ → Prop where
  | nil (draft : δ) : Fills shape draft [] draft
  | cons {draft between final : δ} {name : String} {text : List Char}
      {others : List (String × List Char)} (field : Field δ)
      (known : shape.fields.find? (·.answersTo name) = some field)
      (unset : field.isSet draft = false)
      (spelled : Spells (field.read draft) text between)
      (filled : Fills shape between others final) :
      Fills shape draft ((name, text) :: others) final

/-- One field is filled in with a value that is spelled. -/
theorem Fills.single {β : Type} {draft : δ} {name : String} {text : List Char} {value : β}
    {read : Reader β} (field : Field δ) (note : β → δ)
    (known : shape.fields.find? (·.answersTo name) = some field)
    (unset : field.isSet draft = false)
    (notes : field.read draft = fun c => do
      let (value, c) ← read c
      .ok (note value, c))
    (h : Spells read text value) : Fills shape draft [(name, text)] (note value) :=
  .cons field known unset (notes ▸ h.map note) (.nil _)

/-- A field that is left out when there is no value for it leaves the draft as it is. -/
theorem Fills.optional {β : Type} {draft : δ} {name : String} {write : β → List Char}
    (note : Option β → δ) (hnone : note none = draft) {value : Option β}
    (h : ∀ x ∈ value, Fills shape draft [(name, write x)] (note (some x))) :
    Fills shape draft (value.map fun x => (name, write x)).toList (note value) := by
  cases value with
  | none => exact hnone ▸ .nil _
  | some x => exact h x rfl

/-- Fields are filled in behind others. -/
theorem Fills.append {draft between final : δ} {first second : List (String × List Char)}
    (h : Fills shape draft first between) (h' : Fills shape between second final) :
    Fills shape draft (first ++ second) final := by
  induction h with
  | nil draft => exact h'
  | cons field known unset spelled filled ih => exact .cons field known unset spelled (ih h')

/-- A draft that can be finished once the written fields are in it is finished. -/
theorem readNamed_separated {draft final : δ} {fields : List (String × List Char)} {value : α}
    (h : Fills shape draft fields final) (hfinish : shape.finish final = .ok value) {fuel : Nat}
    (hfuel : fields.length < fuel) (first : Bool) (rest : List Char) (offset : Nat) :
    ∃ after, shape.readNamed fuel first draft
        ⟨separated first (fields.map entryText) ++ '\x7d' :: rest, offset⟩ =
      .ok (value, ⟨'\x7d' :: rest, after⟩) := by
  induction h generalizing fuel first offset with
  | nil draft =>
    obtain ⟨fuel, rfl⟩ := Nat.exists_eq_succ_of_ne_zero (by omega : fuel ≠ 0)
    have hconclude : ∀ c, shape.conclude draft c = .ok (value, c) := fun c => by
      rw [Shape.conclude, hfinish]
    exact ⟨offset, by cases first <;> exact hconclude _⟩
  | @cons draft between final name text others field known unset spelled filled ih =>
    obtain ⟨fuel, rfl⟩ := Nat.exists_eq_succ_of_ne_zero (by omega : fuel ≠ 0)
    obtain ⟨start, hkey⟩ := nextKey_separated first name text (others.map entryText)
      ('\x7d' :: rest) offset
    obtain ⟨next, hread⟩ := spelled.yields _
      (isDelimited_separated (.inr (.inr rfl)) (others.map entryText) rest) (start + 1)
    obtain ⟨after, hothers⟩ := ih hfinish (Nat.lt_of_succ_lt_succ hfuel) false next
    refine ⟨after, ?_⟩
    simp only [List.map_cons, Shape.readNamed, hkey, known, unset, passColon_cons, hread,
      hothers, bind, Except.bind, Bool.false_eq_true, if_false]

/-- Written fields that fill a record spell it. -/
theorem Fills.spells {draft : δ} {fields : List (String × List Char)} {value : α}
    (h : Fills shape shape.blank fields draft) (hfinish : shape.finish draft = .ok value) :
    Spells shape.read (writeObject fields) value where
  opens := ⟨'\x7b', _, rfl, rfl, by decide⟩
  yields rest _ offset := by
    have hroom := length_lt_fuel true (fields.map entryText) '\x7d' rest
    rw [List.length_map] at hroom
    obtain ⟨after, hread⟩ := readNamed_separated h hfinish hroom true rest (offset + 1)
    refine ⟨after + 1, ?_⟩
    rw [writeObject_append, Shape.read, skipSpaces_cons rfl]
    exact withinObject_ok hread

end Records

end Chiptune.Json
