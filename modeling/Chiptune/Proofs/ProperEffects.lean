/-
  The effects that hosts are asked for.

  A songbook that has been loaded has proper ids, and its settings lie within their ranges.
  So an engine that is given songbooks of this kind only asks its host for no other effects
  than those within the ranges, whatever it plays and whatever the host refuses.
-/
import Chiptune.Graph.Recorder
import Chiptune.Proofs.BookText
import Chiptune.Proofs.Finishing
import Chiptune.Proofs.Planning
import Chiptune.Proofs.Watching

set_option autoImplicit false

namespace Chiptune

/-! ## Settings -/

/-- Only numbers are compared. -/
theorem isNaN_of_le {x y : Float32} (h : x ≤ y) : y.isNaN = false := by
  change decide (x.toModel.unpack.le y.toModel.unpack = true) = true at h
  change y.toModel.unpack.isNaN = false
  rw [decide_eq_true_iff] at h
  cases hy : y.toModel.unpack with
  | notANumber =>
    rw [hy] at h
    cases hx : x.toModel.unpack <;> rw [hx] at h <;> cases h
  | _ => rfl

/-- What may be asked for: a level above 0 and up to 1, or a place from left to right which is
not the middle.  In either case it is a number. -/
structure Effect.IsProper (effect : Effect) : Prop where
  number : effect.value.isNaN = false
  nonzero : (effect.value == 0) = false
  within : match effect.setting with
    | .gain => 0 ≤ effect.value ∧ effect.value ≤ 1
    | .pan => -1 ≤ effect.value ∧ effect.value ≤ 1

/-- An instrument without a flaw has settings within their ranges. -/
theorem Instrument.within_of_flaw? {instrument : Instrument} (h : instrument.flaw? = none) :
    (∀ gain ∈ instrument.gain, 0 ≤ gain ∧ gain ≤ 1) ∧
      ∀ pan ∈ instrument.pan, -1 ≤ pan ∧ pan ≤ 1 := by
  unfold flaw? at h
  simp only at h
  split at h
  · cases h
  · cases h
  · rename_i hgain hpan
    constructor
    · intro gain hmem
      have := Option.filter_eq_none_iff.1 hgain gain hmem
      simpa using this
    · intro pan hmem
      have := Option.filter_eq_none_iff.1 hpan pan hmem
      simpa using this

/-- An instrument without a flaw asks for proper effects. -/
theorem Instrument.isProper_of_flaw? {instrument : Instrument} (h : instrument.flaw? = none) :
    ∀ effect ∈ instrument.effects, effect.IsProper := by
  obtain ⟨hgain, hpan⟩ := within_of_flaw? h
  intro effect hmem
  obtain ⟨hsetting, hvalue⟩ := List.mem_filter.1 hmem
  have hnonzero : (effect.value == 0) = false := by simpa [bne] using hvalue
  rcases List.mem_append.1 hsetting with hmem | hmem
  · obtain ⟨gain, hfound, rfl⟩ := Option.map_eq_some_iff.1 (Option.mem_toList.1 hmem)
    have hwithin := hgain gain hfound
    exact ⟨isNaN_of_le hwithin.1, hnonzero, hwithin⟩
  · obtain ⟨pan, hfound, rfl⟩ := Option.map_eq_some_iff.1 (Option.mem_toList.1 hmem)
    have hwithin := hpan pan hfound
    exact ⟨isNaN_of_le hwithin.1, hnonzero, hwithin⟩

/-! ## Songbooks -/

/-- Whether a text is three capital letters of ASCII. -/
def IsCapitals (text : String) : Prop :=
  ∃ first second third : Char, text = String.ofList [first, second, third] ∧
    ∀ letter ∈ [first, second, third], 'A' ≤ letter ∧ letter ≤ 'Z'

theorem isCapitals_of_isHeaderText {id : String} (h : Notation.isHeaderText id = true) :
    IsCapitals id := by
  obtain ⟨hlength, hletters⟩ := Bool.and_eq_true_iff.1 h
  obtain ⟨first, second, third, hlist⟩ := List.length_eq_three.1 (beq_iff_eq.1 hlength)
  refine ⟨first, second, third, by rw [← hlist, String.ofList_toList], fun letter hmem => ?_⟩
  have hupper : letter.isUpper = true := List.all_eq_true.1 hletters letter (hlist ▸ hmem)
  exact of_decide_eq_true hupper

namespace Songbook

variable {book : Songbook}

/-- Whether a songbook has been read from a text and found fit for use. -/
def IsLoaded (book : Songbook) : Prop := ∃ text, Songbook.ofJson text = .ok book

theorem IsLoaded.validate (h : book.IsLoaded) : book.validate = .ok () := by
  obtain ⟨text, h⟩ := h
  unfold ofJson at h
  split at h
  · cases h
  · obtain ⟨_, hvalid, h⟩ := bind_ok h
    cases h
    exact hvalid

/-- A songbook that is fit for use can be loaded, if its numbers are read back. -/
theorem isLoaded_of_validate (hnumbers : book.NumbersReadBack) (hvalid : book.validate = .ok ()) :
    book.IsLoaded :=
  ⟨_, (ofJson_eq_of_readAll
    (spells_writeInOrder hnumbers (List.Perm.refl _) (List.Perm.refl _)).readAll).trans
      (congrArg _ hvalid)⟩

/-- The instruments of a loaded songbook have proper ids and no flaws. -/
theorem IsLoaded.of_instrument (h : book.IsLoaded) {id : String} {instrument : Instrument}
    (hfound : book.instrument id = .ok instrument) :
    IsCapitals id ∧ instrument.flaw? = none := by
  obtain ⟨hid, hflaw⟩ := fit_of_validate h.validate (instrument_eq_ok_iff.1 hfound)
  exact ⟨isCapitals_of_isHeaderText hid, hflaw⟩

/-- Every part of a planned track has an instrument of the songbook. -/
theorem instrument_of_planTrack {name : String} {track : Track} {parts : List PlannedPart}
    (h : book.planTrack name = .ok (track, parts)) {part : PlannedPart} (hmem : part ∈ parts) :
    book.instrument part.instrumentId = .ok part.instrument := by
  obtain ⟨found, -, h⟩ := bind_ok h
  obtain ⟨planned, hparts, h⟩ := bind_ok h
  cases h
  obtain ⟨text, -, hpart⟩ := mapM_of_mem hparts hmem
  exact instrument_eq_ok_iff.2 (planPart_eq_ok_iff.1 hpart).instrument

end Songbook

/-! ## Runs -/

namespace Engine

open AudioGraph

variable {G : Type} [AudioGraph G]

/-- The songbook that an engine has been given last. -/
theorem book_serve (request : Request) (engine : Engine G) :
    (engine.serve request).2.book =
      match request with
      | .replaceBook book => book
      | _ => engine.book := by
  cases request with
  | play name =>
    rcases play_cases engine name with
      ⟨_, -, h⟩ | ⟨_, _, _, _, -, -, h⟩ | ⟨_, _, _, _, _, -, -, h⟩ <;>
      simp only [serve, h]
  | stop =>
    simp only [serve]
    rw [stop_eq]
  | tick =>
    simp only [serve, tick]
    split
    · rfl
    · split
      · rfl
      · split <;> rfl
  | replaceBook book => rfl
  | listen label => rfl

/-- What a host keeps while it is asked for proper effects, it keeps while the songbooks are
loaded ones. -/
theorem keptFor_isProper {P : G → Prop} (h : AudioGraph.KeptFor Effect.IsProper P)
    (request : Request) {engine : Engine G} (hbook : engine.book.IsLoaded)
    (hengine : P engine.graph) : P (engine.serve request).2.graph := by
  refine keptFor_serve h.stage request (fun _ _ _ hplan _ hmem => ?_) hengine
  have hfound := Songbook.instrument_of_planTrack (planTrack_of_plan hplan) hmem
  exact Instrument.isProper_of_flaw? (hbook.of_instrument hfound).2

/-- The songbook that is given in a turn. -/
def Turn.given? : Turn G → Option Songbook
  | .ask (.replaceBook book) => some book
  | _ => none

omit [AudioGraph G] in
theorem given?_watched (turn : Turn G) : turn.watched.given? = turn.given? := by
  rcases turn with ⟨_ | _ | _ | _ | _⟩ | _ <;> rfl

/-- A turn leaves the engine a loaded songbook. -/
theorem isLoaded_take {turn : Turn G} (h : ∀ book ∈ turn.given?, book.IsLoaded)
    {engine : Engine G} (hbook : engine.book.IsLoaded) : (engine.take turn).2.book.IsLoaded := by
  cases turn with
  | ask request =>
    rw [take, book_serve]
    cases request with
    | replaceBook book => exact h book rfl
    | _ => exact hbook
  | host change => exact hbook

theorem isLoaded_afterTurns {turns : List (Turn G)}
    (h : ∀ turn ∈ turns, ∀ book ∈ turn.given?, book.IsLoaded) {engine : Engine G}
    (hbook : engine.book.IsLoaded) : (engine.afterTurns turns).book.IsLoaded := by
  induction turns generalizing engine with
  | nil => exact hbook
  | cons turn turns ih =>
    obtain ⟨hturn, hothers⟩ := List.forall_mem_cons.1 h
    exact ih hothers (isLoaded_take hturn hbook)

end Engine

/-- The notes on a watched host are of what it is asked for. -/
theorem Watched.keptFor_asked {G : Type} [AudioGraph G] (allowed : Effect → Prop) :
    AudioGraph.KeptFor allowed fun watched : Watched G =>
      ∀ effect ∈ watched.asked, allowed effect where
  newOscillator _ _ h := h
  newEffect hallowed _ h := fun effect hmem => by
    rcases List.mem_append.1 hmem with hmem | hmem
    · exact h effect hmem
    · exact List.mem_singleton.1 hmem ▸ hallowed
  wire _ _ _ h := h
  signal _ _ h := h

namespace Engine

variable {G : Type} [AudioGraph G]

/-- Over a watched host nothing but proper effects is noted. -/
theorem asked_afterTurns {turns : List (Turn G)}
    (h : ∀ turn ∈ turns, ∀ book ∈ turn.given?, book.IsLoaded) {engine : Engine (Watched G)}
    (hbook : engine.book.IsLoaded) (hasked : ∀ effect ∈ engine.graph.asked, effect.IsProper) :
    ∀ effect ∈ (engine.afterTurns (turns.map Turn.watched)).graph.asked, effect.IsProper := by
  induction turns generalizing engine with
  | nil => exact hasked
  | cons turn turns ih =>
    obtain ⟨hturn, hothers⟩ := List.forall_mem_cons.1 h
    rw [← given?_watched] at hturn
    refine ih hothers (isLoaded_take hturn hbook) ?_
    cases turn with
    | ask request =>
      exact keptFor_isProper (Watched.keptFor_asked Effect.IsProper) request hbook hasked
    | host change => exact hasked

/-- **Hosts are asked for proper effects only.**  When an engine has been given loaded songbooks
and no others, every effect that its host has been asked for, refused or not, is within its range,
not zero and a number; and in the songbook it has, there are instruments under three
capital letters only.  What the host is asked for is noted by watching it, which makes no
difference to the run. -/
theorem isProper_afterTurns {book : Songbook} (hbook : book.IsLoaded) {turns : List (Turn G)}
    (hturns : ∀ turn ∈ turns, ∀ given ∈ turn.given?, given.IsLoaded) (host : G) :
    let run := (ofBook book host).afterTurns turns
    let watchedRun := (ofBook book host).watched.afterTurns (turns.map Turn.watched)
    watchedRun.onto Watched.host = run ∧
      (∀ effect ∈ watchedRun.graph.asked, effect.IsProper) ∧
      ∀ id instrument, run.book.instrument id = .ok instrument → IsCapitals id := by
  intro run watchedRun
  refine ⟨afterTurns_watched turns _, asked_afterTurns hturns hbook nofun, ?_⟩
  intro id instrument hfound
  exact ((isLoaded_afterTurns hturns hbook).of_instrument hfound).1

/-- A songbook with one instrument, which has a level of zero and a place off the middle. -/
def offMiddleBook : Songbook :=
  ⟨.ofList [("LED", ⟨.square, some (-0.0), some (-0.25)⟩)],
    .ofList [("lead", ⟨120, false, ["LEDC44"]⟩)]⟩

/-- A host that says it has every effect and refuses places. -/
def boastingHost : Recorder := { Recorder.withoutEffects [.pan] with overpromises := true }

/-- A level of zero is not asked for; a place is asked for, although it is refused. -/
theorem isProper_offMiddleBook :
    offMiddleBook.IsLoaded ∧
      ((ofBook offMiddleBook boastingHost).watched.afterTurns
        [.ask (.play "lead"), .ask (.replaceBook offMiddleBook)]).graph.asked = [⟨.pan, -0.25⟩] ∧
      Effect.IsProper ⟨.pan, -0.25⟩ ∧ IsCapitals "LED" := by
  have hnumbers : offMiddleBook.NumbersReadBack :=
    ⟨by unfold Json.ReadsBack; decide +kernel, by unfold Json.ReadsBack; decide +kernel,
      by unfold Json.ReadsBack; decide +kernel⟩
  have hloaded := Songbook.isLoaded_of_validate hnumbers (by decide +kernel)
  have hasked : ((ofBook offMiddleBook boastingHost).watched.afterTurns
      [.ask (.play "lead"), .ask (.replaceBook offMiddleBook)]).graph.asked =
        [⟨.pan, -0.25⟩] := by decide +kernel
  have hgiven : ∀ turn ∈ ([.ask (.play "lead"), .ask (.replaceBook offMiddleBook)] :
      List (Turn Recorder)), ∀ given ∈ turn.given?, given.IsLoaded := by
    simpa [Turn.given?] using hloaded
  obtain ⟨-, hproper, hids⟩ := isProper_afterTurns hloaded hgiven boastingHost
  exact ⟨hloaded, hasked, hproper _ (hasked ▸ List.mem_singleton_self _),
    hids "LED" ⟨.square, some (-0.0), some (-0.25)⟩ (by decide +kernel)⟩

end Engine

end Chiptune
