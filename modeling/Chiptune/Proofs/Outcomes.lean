/-
  Steps that may fail, one after another and for the items of a list, and lists that match.
-/
import Mathlib.Data.List.Forall2

set_option autoImplicit false

namespace Chiptune

variable {α β ε : Type} {f : α → Except ε β} {items : List α} {error : ε}

/-- Steps one after another fail with the error of the one that fails. -/
theorem bind_error {first : Except ε α} {next : α → Except ε β}
    (h : first >>= next = .error error) :
    first = .error error ∨ ∃ value, first = .ok value ∧ next value = .error error := by
  cases first with
  | error other =>
    cases h
    exact Or.inl rfl
  | ok value => exact Or.inr ⟨value, rfl, h⟩

/-- Steps one after another succeed when each of them does. -/
theorem bind_ok {first : Except ε α} {next : α → Except ε β} {result : β}
    (h : first >>= next = .ok result) :
    ∃ value, first = .ok value ∧ next value = .ok result := by
  cases first with
  | error error => cases h
  | ok value => exact ⟨value, rfl, h⟩

/-- What succeeds with other words for its errors succeeds with its own. -/
theorem ok_of_mapError {δ : Type} {words : ε → δ} {outcome : Except ε α} {value : α}
    (h : outcome.mapError words = .ok value) : outcome = .ok value := by
  cases outcome with
  | error error => cases h
  | ok other =>
    cases h
    rfl

/-- Each element of a list has its match. -/
theorem exists_of_mem_forall₂ {R : α → β → Prop} {xs : List α} {ys : List β}
    (h : List.Forall₂ R xs ys) {x : α} (hmem : x ∈ xs) : ∃ y ∈ ys, R x y := by
  induction h with
  | nil => cases hmem
  | cons hfirst _ ih =>
    rcases List.mem_cons.1 hmem with rfl | hmem
    · exact ⟨_, List.mem_cons_self, hfirst⟩
    · obtain ⟨y, hin, hmatch⟩ := ih hmem
      exact ⟨y, List.mem_cons_of_mem _ hin, hmatch⟩

/-- A list succeeds when each of its items does. -/
theorem mapM_eq_ok_iff {values : List β} :
    items.mapM f = .ok values ↔
      List.Forall₂ (fun item value => f item = .ok value) items values := by
  induction items generalizing values with
  | nil =>
    rw [List.mapM_nil, List.forall₂_nil_left_iff]
    constructor
    · rintro h
      cases h
      rfl
    · rintro rfl
      rfl
  | cons item items ih =>
    rw [List.mapM_cons]
    constructor
    · intro h
      obtain ⟨value, hitem, h⟩ := bind_ok h
      obtain ⟨others, hothers, h⟩ := bind_ok h
      cases h
      exact .cons hitem (ih.1 hothers)
    · rintro (_ | ⟨hitem, hothers⟩)
      rw [hitem, ih.2 hothers]
      rfl

/-- A list fails with the error of its first item that does. -/
theorem mapM_eq_error_iff :
    items.mapM f = .error error ↔
      ∃ before item after, items = before ++ item :: after ∧
        (∀ earlier ∈ before, ∃ value, f earlier = .ok value) ∧ f item = .error error := by
  induction items with
  | nil => simp [pure, Except.pure]
  | cons item items ih =>
    rw [List.mapM_cons]
    constructor
    · intro h
      rcases bind_error h with hitem | ⟨value, hitem, h⟩
      · exact ⟨[], item, items, rfl, List.forall_mem_nil _, hitem⟩
      · rcases bind_error h with hitems | ⟨values, -, h⟩
        · obtain ⟨before, other, after, rfl, hbefore, hother⟩ := ih.1 hitems
          exact ⟨item :: before, other, after, rfl,
            List.forall_mem_cons.2 ⟨⟨value, hitem⟩, hbefore⟩, hother⟩
        · cases h
    · rintro ⟨before, other, after, heq, hbefore, hother⟩
      cases before with
      | nil =>
        obtain ⟨rfl, rfl⟩ := List.cons.inj heq
        rw [hother]
        rfl
      | cons first before =>
        obtain ⟨rfl, rfl⟩ := List.cons.inj heq
        obtain ⟨⟨value, hfirst⟩, hbefore⟩ := List.forall_mem_cons.1 hbefore
        rw [hfirst, ih.2 ⟨before, other, after, rfl, hbefore, hother⟩]
        rfl

/-- What fails for a list fails for one of its items, with its error. -/
theorem mapM_error (h : items.mapM f = .error error) : ∃ item ∈ items, f item = .error error := by
  obtain ⟨before, item, after, rfl, -, hitem⟩ := mapM_eq_error_iff.1 h
  exact ⟨item, List.mem_append_right _ List.mem_cons_self, hitem⟩

/-- What succeeds for a list gives results of its items. -/
theorem mapM_of_mem {values : List β} (h : items.mapM f = .ok values) {value : β}
    (hmem : value ∈ values) : ∃ item ∈ items, f item = .ok value :=
  exists_of_mem_forall₂ (mapM_eq_ok_iff.1 h).flip hmem

/-- What succeeds for a list gives as many results as it has items. -/
theorem length_of_mapM_ok {values : List β} (h : items.mapM f = .ok values) :
    values.length = items.length :=
  (mapM_eq_ok_iff.1 h).length_eq.symm

end Chiptune
