/-
  Tables: values under names, in the order of the names.

  Names are ordered by their characters, which is the order of their bytes.  A
  name stands in a table at most once; entering it again replaces its value.
-/
set_option autoImplicit false

namespace Chiptune

/-- Names with values, in the order of the names. -/
structure Table (α : Type) where
  entries : List (String × α)
  sorted : entries.Pairwise fun x y => x.1 < y.1
  deriving DecidableEq

namespace Table

variable {α : Type}

/-- Puts an entry in its place, or in the place of an entry with its name. -/
def place (name : String) (value : α) : List (String × α) → List (String × α)
  | [] => [(name, value)]
  | (other, kept) :: rest =>
    if name < other then (name, value) :: (other, kept) :: rest
    else if name = other then (name, value) :: rest
    else (other, kept) :: place name value rest

/-- Nothing but the new entry is added. -/
theorem mem_place {name : String} {value : α} {entry : String × α}
    {entries : List (String × α)} (h : entry ∈ place name value entries) :
    entry = (name, value) ∨ entry ∈ entries := by
  induction entries with
  | nil => simpa [place] using h
  | cons first rest ih =>
    obtain ⟨other, kept⟩ := first
    simp only [place] at h
    split at h
    · simpa using h
    · split at h
      · rcases List.mem_cons.1 h with h | h
        · exact .inl h
        · exact .inr (List.mem_cons_of_mem _ h)
      · rcases List.mem_cons.1 h with h | h
        · exact .inr (by simp [h])
        · exact (ih h).imp_right (List.mem_cons_of_mem _)

/-- Of two different names one comes first. -/
theorem lt_of_not_lt_of_ne {a b : String} (h : ¬ a < b) (hne : a ≠ b) : b < a := by
  rcases Decidable.em (b < a) with hlt | hlt
  · exact hlt
  · exact absurd (String.le_antisymm (String.not_lt.1 hlt) (String.not_lt.1 h)) hne

/-- Placing keeps the order. -/
theorem pairwise_place (name : String) (value : α) {entries : List (String × α)}
    (h : entries.Pairwise fun x y => x.1 < y.1) :
    (place name value entries).Pairwise fun x y => x.1 < y.1 := by
  induction entries with
  | nil => simp [place]
  | cons first rest ih =>
    obtain ⟨other, kept⟩ := first
    obtain ⟨hfirst, hrest⟩ := List.pairwise_cons.1 h
    simp only [place]
    split
    · rename_i hlt
      refine List.pairwise_cons.2 ⟨fun entry hm => ?_, h⟩
      rcases List.mem_cons.1 hm with rfl | hm
      · exact hlt
      · exact String.lt_trans hlt (hfirst entry hm)
    · split
      · rename_i heq
        subst heq
        exact List.pairwise_cons.2 ⟨hfirst, hrest⟩
      · rename_i hlt hne
        refine List.pairwise_cons.2 ⟨fun entry hm => ?_, ih hrest⟩
        rcases mem_place hm with rfl | hm
        · exact lt_of_not_lt_of_ne hlt hne
        · exact hfirst entry hm

/-- The table without entries. -/
def empty : Table α := ⟨[], .nil⟩

instance : Inhabited (Table α) := ⟨empty⟩

/-- Enters a value under a name. -/
def insert (table : Table α) (name : String) (value : α) : Table α :=
  ⟨place name value table.entries, pairwise_place name value table.sorted⟩

/-- Enters values one after another, so that of equal names the last one counts. -/
def ofList (entries : List (String × α)) : Table α :=
  entries.foldl (fun table (name, value) => table.insert name value) empty

/-- The value under a name. -/
def get? (table : Table α) (name : String) : Option α := table.entries.lookup name

/-- The names in order. -/
def names (table : Table α) : List String := table.entries.map (·.1)

end Table

end Chiptune
