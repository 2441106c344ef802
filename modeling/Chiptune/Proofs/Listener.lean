/-
  What the listener is told.

  A session has ended when it had voices and all of them have been reported.  The listener
  is told of the sessions that have ended, of each of them once, and in the order in
  which they began.
-/
import Chiptune.Proofs.SessionRuns
import Mathlib.Data.List.Induction

set_option autoImplicit false

namespace Chiptune

open AudioGraph

/-! ## Sessions that have ended -/

/-- Voices have all ended, the last of them by a report.  Where there is no voice, there is
no last one. -/
def Ended (reports voices : List VoiceId) : Prop :=
  voices ≠ [] ∧ ∀ voice ∈ voices, voice ∈ reports

instance (reports voices : List VoiceId) : Decidable (Ended reports voices) :=
  inferInstanceAs (Decidable (_ ∧ _))

/-- The tracks of the sessions that have ended, in order. -/
def endings (reports : List VoiceId) (sessions : List Session) : List String :=
  (sessions.filter fun session => decide (Ended reports session.handles)).map (·.track)

section

variable {first second voices : List VoiceId} {sessions : List Session}

@[simp] theorem endings_nil (reports : List VoiceId) : endings reports [] = [] := rfl

@[simp] theorem endings_append (reports : List VoiceId) (sessions others : List Session) :
    endings reports (sessions ++ others) = endings reports sessions ++ endings reports others := by
  simp [endings]

theorem endings_singleton (reports : List VoiceId) (session : Session) :
    endings reports [session] = if Ended reports session.handles then [session.track] else [] := by
  unfold endings
  split <;> simp_all

/-- Reports count only by the voices that they end. -/
theorem endings_congr {reports others : List VoiceId}
    (h : ∀ session ∈ sessions, (Ended reports session.handles ↔ Ended others session.handles)) :
    endings reports sessions = endings others sessions := by
  unfold endings
  congr 1
  refine List.filter_congr ?_
  intro session hmem
  simp [h session hmem]

/-- Reports of other voices do not count. -/
theorem ended_append_of_not_mem (h : ∀ voice ∈ voices, voice ∉ first) :
    Ended (first ++ second) voices ↔ Ended second voices := by
  refine and_congr_right fun _ => forall₂_congr fun voice hmem => ?_
  simp [h voice hmem]

/-- Voices of which none has been reported have not ended. -/
theorem not_ended_of_not_mem (h : ∀ voice ∈ voices, voice ∉ first) : ¬ Ended first voices := by
  rintro ⟨hsome, hall⟩
  obtain ⟨voice, hmem⟩ := List.exists_mem_of_ne_nil _ hsome
  exact h voice hmem (hall voice hmem)

/-- Voices have ended when none of them is left. -/
theorem ended_iff :
    Ended first voices ↔
      voices ≠ [] ∧ (voices.filter fun voice => !first.contains voice) = [] := by
  simp [Ended, List.filter_eq_nil_iff]

/-- Voices that have not ended are left, unless there are none. -/
theorem left_of_not_ended (h : ¬ Ended first voices) :
    voices = [] ∨ (voices.filter fun voice => !first.contains voice) ≠ [] := by
  rcases em (voices = []) with hnil | hsome
  · exact Or.inl hnil
  · exact Or.inr fun hgone => h (ended_iff.2 ⟨hsome, hgone⟩)

/-- As long as voices are left, those that have been reported are done with. -/
theorem ended_append_iff
    (h : voices = [] ∨ (voices.filter fun voice => !first.contains voice) ≠ []) :
    Ended (first ++ second) voices ↔
      Ended second (voices.filter fun voice => !first.contains voice) := by
  constructor
  · rintro ⟨hsome, hall⟩
    refine ⟨h.resolve_left hsome, ?_⟩
    intro voice hmem
    obtain ⟨hvoice, hnot⟩ := List.mem_filter.1 hmem
    have hnot : voice ∉ first := by simpa using hnot
    exact (List.mem_append.1 (hall voice hvoice)).resolve_left hnot
  · rintro ⟨hsome, hall⟩
    refine ⟨fun hnil => hsome (by rw [hnil]; rfl), ?_⟩
    intro voice hmem
    by_cases hfirst : voice ∈ first
    · exact List.mem_append_left _ hfirst
    · exact List.mem_append_right _ (hall voice (List.mem_filter.2 ⟨hmem, by simpa using hfirst⟩))

end

namespace Engine

variable {G : Type} [AudioGraph G] {engine : Engine G} {turn : Turn G} {turns : List (Turn G)}
  {label : String}

/-! ## Sessions that are cut short -/

/-- A session that is cut short does not end any more. -/
theorem not_ended_of_cuts (turns : List (Turn G)) (h : engine.Accounted)
    (hcuts : engine.cuts turn = true) {voices : List VoiceId}
    (hold : ∀ voice ∈ voices, voice < engine.scheduler.nextHandle) :
    ¬ Ended ((engine.take turn).2.gather reported turns) voices := by
  refine not_ended_of_not_mem ?_
  intro voice hmem hreported
  exact Nat.not_lt_of_le (reports_of_cuts turns h hcuts voice hreported) (hold voice hmem)

/-- The listener stays the same unless another one is set. -/
theorem listener_take (hlisten : ∀ other, turn ≠ .ask (.listen other)) (engine : Engine G) :
    (engine.take turn).2.listener = engine.listener := by
  cases turn with
  | host change => rfl
  | ask request =>
    cases request with
    | play name =>
      rcases play_cases engine name with ⟨error, -, hplay⟩ | ⟨_, _, _, _, -, -, hplay⟩ |
        ⟨_, _, _, _, _, -, -, hplay⟩
      all_goals rw [take, serve, hplay]
    | stop => rw [take, serve, stop_eq]
    | tick =>
      rcases tick_cases engine with ⟨-, htick⟩ | ⟨-, -, htick⟩ | ⟨_, -, -, -, htick⟩ |
        ⟨_, -, -, -, htick⟩
      all_goals rw [take, serve, htick]
    | replaceBook book => rw [take, serve, replaceBook, stop_eq]
    | listen other => exact absurd rfl (hlisten other)

/-! ## The calls of a run -/

/-- What a turn tells of, when it is known what the turns behind it report: the session that
was going on, if it has ended, and no session that goes on from now. -/
theorem heard_take (turn : Turn G) (turns : List (Turn G)) (h : engine.Accounted)
    (hlistener : engine.listener = some label) :
    let reports := (engine.take turn).2.gather reported turns
    engine.heard turn ++ (endings reports (engine.take turn).2.session.toList).map (label ++ ·) =
      (endings (engine.reported turn ++ reports)
        (engine.session.toList ++ (engine.opened turn).map Opening.session)).map (label ++ ·) := by
  intro reports
  have hgone : engine.cuts turn = true → endings reports engine.session.toList = [] := by
    intro hcuts
    cases hsession : engine.session with
    | none => rfl
    | some current =>
      have hnot := not_ended_of_cuts turns h hcuts (h.handles_below hsession)
      rw [Option.toList_some, endings_singleton, if_neg hnot]
  cases passage h turn with
  | stays _ _ session opened reported heard => simp [session, opened, reported, heard]
  | ticks tick session lasts heard =>
    subst tick
    cases hsession : engine.session with
    | none => simp [session, heard, hsession, opened]
    | some current =>
      have hiff : Ended (engine.ending ++ reports) current.handles ↔
          Ended reports (current.without engine.ending).handles :=
        ended_append_iff (lasts current hsession)
      have hopened : engine.opened (.ask .tick) = [] := rfl
      rw [heard, session, hsession, hopened, reported]
      simp [endings_singleton, hiff, Session.without]
  | finishes tick last playing some_left all_end session heard =>
    subst tick
    have hended : Ended (engine.ending ++ reports) last.handles :=
      ⟨some_left, fun voice hmem => List.mem_append_left _ (all_end voice hmem)⟩
    have hopened : engine.opened (.ask .tick) = [] := rfl
    rw [heard, session, playing, hopened, reported, hlistener]
    simp [endings_singleton, hended]
  | stops cuts session opened reported heard =>
    simp [session, opened, reported, heard, hgone cuts]
  | begins cuts opening session new opened reported heard =>
    simp [session, opened, reported, heard, hgone cuts]

/-- The sessions of a run: the one that is going on when it begins, and those that begin in
it. -/
def sessionsOf (turns : List (Turn G)) (engine : Engine G) : List Session :=
  engine.session.toList ++ (engine.gather opened turns).map Opening.session

/-- The listener is told of the sessions that have ended, in order. -/
theorem gather_heard (turns : List (Turn G)) (h : engine.Accounted)
    (hlistener : engine.listener = some label)
    (hlisten : ∀ other, Turn.ask (.listen other) ∉ turns) :
    engine.gather heard turns =
      (endings (engine.gather reported turns) (engine.sessionsOf turns)).map (label ++ ·) := by
  induction turns generalizing engine with
  | nil =>
    cases hsession : engine.session with
    | none => simp [sessionsOf, hsession]
    | some session =>
      have hnot : ¬ Ended [] session.handles :=
        not_ended_of_not_mem fun _ _ => List.not_mem_nil
      simp [sessionsOf, hsession, endings_singleton, hnot]
  | cons turn turns ih =>
    have hnext := accounted_take turn h
    have hturn : ∀ other, turn ≠ .ask (.listen other) := by
      rintro other rfl
      exact hlisten other List.mem_cons_self
    have hrest := ih hnext ((listener_take hturn engine).trans hlistener)
      fun other hmem => hlisten other (List.mem_cons_of_mem _ hmem)
    -- what this turn reports does not count for sessions that begin later
    have hlater : endings (engine.reported turn ++ (engine.take turn).2.gather reported turns)
          (((engine.take turn).2.gather opened turns).map Opening.session) =
        endings ((engine.take turn).2.gather reported turns)
          (((engine.take turn).2.gather opened turns).map Opening.session) := by
      refine endings_congr ?_
      intro session hmem
      obtain ⟨opening, hopening, rfl⟩ := List.mem_map.1 hmem
      refine ended_append_of_not_mem ?_
      intro voice hvoice hreported
      have hle := openings_new turns hnext opening hopening voice hvoice
      have hlt := reported_below h turn voice hreported
      exact Nat.not_lt_of_le (Nat.le_trans (nextHandle_le_take turn engine) hle) hlt
    have hstep := heard_take turn turns h hlistener
    rw [sessionsOf, endings_append, List.map_append] at hrest
    rw [gather_cons, hrest, ← List.append_assoc, hstep, sessionsOf, gather_cons, gather_cons]
    simp only [endings_append, List.map_append, List.append_assoc, hlater]

/-- The session that is going on is the last one that began, without the voices that have
been reported, and it has not ended. -/
theorem session_afterTurns (turns : List (Turn G)) (h : engine.Accounted)
    (hidle : engine.session = none) {session : Session}
    (hsession : (engine.afterTurns turns).session = some session) :
    ∃ opening, (engine.gather opened turns).getLast? = some opening ∧
      session = opening.session.without (engine.gather reported turns) ∧
      ¬ Ended (engine.gather reported turns) opening.voices := by
  induction turns using List.reverseRecOn generalizing session with
  | nil =>
    rw [afterTurns_nil, hidle] at hsession
    cases hsession
  | append_singleton turns turn ih =>
    have hhere := accounted_afterTurns turns h
    simp only [gather_append, gather_cons, gather_nil, afterTurns_append, afterTurns_cons,
      afterTurns_nil, List.append_nil] at hsession ⊢
    cases passage hhere turn with
    | stays _ _ same opened reported _ =>
      rw [same] at hsession
      rw [opened, reported, List.append_nil, List.append_nil]
      exact ih hsession
    | ticks tick taken lasts _ =>
      subst tick
      rw [taken] at hsession
      obtain ⟨current, hcurrent, rfl⟩ := Option.map_eq_some_iff.1 hsession
      obtain ⟨opening, hopening, rfl, hnot⟩ := ih hcurrent
      have hopened : (engine.afterTurns turns).opened (.ask .tick) = [] := rfl
      rw [hopened, List.append_nil]
      refine ⟨opening, hopening, Session.without_without _ _ opening.session, ?_⟩
      rw [reported, ended_append_iff (left_of_not_ended hnot), ended_iff]
      rintro ⟨hsome, hgone⟩
      exact (lasts _ hcurrent).elim hsome fun hleft => hleft hgone
    | finishes _ _ _ _ _ gone _ =>
      rw [gone] at hsession
      cases hsession
    | stops _ gone _ _ _ =>
      rw [gone] at hsession
      cases hsession
    | begins _ opening begun new opened reported _ =>
      rw [begun] at hsession
      cases hsession
      have hnew : ∀ voice ∈ opening.voices, voice ∉ engine.gather Engine.reported turns := by
        intro voice hmem hold
        exact Nat.not_lt_of_le (new voice hmem) (reports_below turns h voice hold)
      rw [opened, reported, List.append_nil]
      exact ⟨opening, by simp, (Session.without_of_not_mem hnew).symm, not_ended_of_not_mem hnew⟩

/-! ## The call for a session -/

/-- A turn is the tick that reports the last voices of a session. -/
structure Completes (turn : Turn G) (session : Session) (engine : Engine G) : Prop where
  tick : turn = .ask .tick
  playing : engine.session = some session
  some_left : session.handles ≠ []
  all_end : ∀ voice ∈ session.handles, voice ∈ engine.reported turn

/-- The turn that completes a session tells the listener of its track, and the session is
gone then. -/
theorem Completes.heard {session : Session} (h : engine.Accounted)
    (hlistener : engine.listener = some label) (hcompletes : engine.Completes turn session) :
    engine.heard turn = [label ++ session.track] ∧ (engine.take turn).2.session = none := by
  obtain ⟨rfl, playing, some_left, all_end⟩ := hcompletes
  cases passage h (.ask .tick) with
  | stays _ _ _ _ reported _ =>
    obtain ⟨voice, hmem⟩ := List.exists_mem_of_ne_nil _ some_left
    have hended := all_end voice hmem
    rw [reported] at hended
    cases hended
  | ticks _ _ lasts _ =>
    have hgone : (session.without engine.ending).handles = [] := by
      refine List.filter_eq_nil_iff.2 ?_
      intro voice hmem
      have hended : voice ∈ engine.ending := all_end voice hmem
      simpa using hended
    exact (lasts session playing).elim (fun hnil => absurd hnil some_left)
      fun hleft => absurd hgone hleft
  | finishes _ last current _ _ gone heard =>
    rw [playing] at current
    cases current
    exact ⟨by rw [heard, hlistener]; rfl, gone⟩
  | stops cuts _ _ _ _ => cases cuts
  | begins cuts _ _ _ _ _ _ => cases cuts

/-- No other turn tells the listener anything. -/
theorem heard_of_not_completes (h : engine.Accounted)
    (hnot : ∀ session, ¬ engine.Completes turn session) : engine.heard turn = [] := by
  cases passage h turn with
  | stays _ _ _ _ _ heard => exact heard
  | ticks _ _ _ heard => exact heard
  | finishes tick last playing some_left all_end _ _ =>
    subst tick
    exact absurd ⟨rfl, playing, some_left, all_end⟩ (hnot last)
  | stops _ _ _ _ heard => exact heard
  | begins _ _ _ _ _ _ heard => exact heard

/-- A tick leaves a session without voices as it is. -/
theorem tick_of_voiceless (h : engine.Accounted) {session : Session}
    (hsession : engine.session = some session) (hvoices : session.handles = []) :
    (engine.take (.ask .tick)).2.session = some session ∧ engine.heard (.ask .tick) = [] := by
  cases passage h (.ask .tick) with
  | stays _ _ same _ _ heard => exact ⟨same.trans hsession, heard⟩
  | ticks _ taken _ heard =>
    have hsame : session.without engine.ending = session := by
      refine Session.without_of_not_mem ?_
      simp [hvoices]
    rw [taken, hsession, Option.map_some, hsame]
    exact ⟨rfl, heard⟩
  | finishes _ last playing some_left _ _ _ =>
    rw [hsession] at playing
    cases playing
    exact absurd hvoices some_left
  | stops cuts _ _ _ _ => cases cuts
  | begins cuts _ _ _ _ _ _ => cases cuts

theorem listener_afterTurns (turns : List (Turn G))
    (hlisten : ∀ other, Turn.ask (.listen other) ∉ turns) (engine : Engine G) :
    (engine.afterTurns turns).listener = engine.listener := by
  induction turns generalizing engine with
  | nil => rfl
  | cons turn turns ih =>
    have hturn : ∀ other, turn ≠ .ask (.listen other) := by
      rintro other rfl
      exact hlisten other List.mem_cons_self
    rw [afterTurns_cons, ih fun other hmem => hlisten other (List.mem_cons_of_mem _ hmem)]
    exact listener_take hturn engine

/-! ## What a listener is told in a run -/

/-- What a listener is told in a run that it listens to from the beginning. -/
structure Told (label : String) (turns : List (Turn G)) (engine : Engine G) : Prop where
  /-- At any time it has been told of the sessions that have ended by then, of each once, in
  the order in which they began. -/
  calls : ∀ before later, turns = before ++ later →
    engine.gather heard before =
      (endings (engine.gather reported before)
        ((engine.gather opened before).map Opening.session)).map (label ++ ·)
  /-- No voice is taken for that of another session. -/
  apart : (engine.gather opened turns).Pairwise fun opening other =>
    ∀ voice ∈ opening.voices, voice ∉ other.voices
  /-- The session that is going on is the one that began last, as far as its voices have
  not been reported. -/
  going_on : ∀ before later, turns = before ++ later → ∀ session,
    (engine.afterTurns before).session = some session →
    ∃ opening, (engine.gather opened before).getLast? = some opening ∧
      session = opening.session.without (engine.gather reported before) ∧
      ¬ Ended (engine.gather reported before) opening.voices
  /-- The tick that reports the last voices of a session is the one that tells of it, and
  the session is gone then. -/
  at_last : ∀ before turn later, turns = before ++ turn :: later → ∀ session,
    (engine.afterTurns before).Completes turn session →
    (engine.afterTurns before).heard turn = [label ++ session.track] ∧
      (engine.afterTurns (before ++ [turn])).session = none
  /-- No other turn tells of anything. -/
  only_then : ∀ before turn later, turns = before ++ turn :: later →
    (∀ session, ¬ (engine.afterTurns before).Completes turn session) →
    (engine.afterTurns before).heard turn = []
  /-- A session without voices has no last one: a tick neither ends it nor tells of it. -/
  voiceless : ∀ before later, turns = before ++ .ask .tick :: later → ∀ session,
    (engine.afterTurns before).session = some session → session.handles = [] →
    (engine.afterTurns (before ++ [.ask .tick])).session = some session ∧
      (engine.afterTurns before).heard (.ask .tick) = []
  /-- A session that is cut short before it has ended is never told of. -/
  cut_short : ∀ before turn later, turns = before ++ turn :: later →
    (engine.afterTurns before).cuts turn = true →
    ∀ opening ∈ engine.gather opened before,
      ¬ Ended (engine.gather reported before) opening.voices →
      ¬ Ended (engine.gather reported turns) opening.voices
  /-- Nor is that of a track that loops. -/
  looping : ∀ opening ∈ engine.gather opened turns, opening.looping = true →
    ¬ Ended (engine.gather reported turns) opening.voices

/-- Behind a turn that cuts it short, a session has ended only if it had ended before. -/
theorem ended_of_cuts {before later : List (Turn G)} (h : engine.Accounted)
    (hcuts : (engine.afterTurns before).cuts turn = true) {opening : Opening}
    (hopening : opening ∈ engine.gather opened before)
    (hended : Ended (engine.gather reported (before ++ turn :: later)) opening.voices) :
    Ended (engine.gather reported before) opening.voices := by
  obtain ⟨hsome, hall⟩ := hended
  refine ⟨hsome, ?_⟩
  intro voice hmem
  have hreported := hall voice hmem
  rw [gather_append, gather_cons, reported_of_cuts hcuts] at hreported
  rcases List.mem_append.1 hreported with hbefore | hlater
  · exact hbefore
  · have hhere := accounted_afterTurns before h
    have hle := reports_of_cuts later hhere hcuts voice hlater
    exact absurd (openings_below before h opening hopening voice hmem) (Nat.not_lt_of_le hle)

/-- **The listener is told of the sessions that have ended, and of nothing else.**  Take any
run of an engine over any graph that someone listens to from the beginning.  The
calls of the listener are those for the sessions whose voices have all been reported, in
order; each of them comes in the tick that reports the last voice; and none is for a
session that was cut short or whose track loops. -/
theorem told_afterTurns (book : Songbook) (graph : G) (label : String) (turns : List (Turn G))
    (hlisten : ∀ other, Turn.ask (.listen other) ∉ turns) :
    ((ofBook book graph).listen label).Told label turns := by
  have haccounted : ((ofBook book graph).listen label).Accounted :=
    accounted_serve (accounted_ofBook book graph) (.listen label)
  have hlistened : ∀ before later, turns = before ++ later →
      ∀ other, Turn.ask (.listen other) ∉ before := by
    rintro before later rfl other hmem
    exact hlisten other (List.mem_append_left _ hmem)
  refine
    { calls := ?_, apart := openings_apart turns haccounted, going_on := ?_, at_last := ?_
      only_then := ?_, voiceless := ?_, cut_short := ?_, looping := ?_ }
  · intro before later hturns
    exact gather_heard before haccounted rfl (hlistened before later hturns)
  · intro before later _ session hsession
    exact session_afterTurns before haccounted rfl hsession
  · intro before turn later hturns session hcompletes
    rw [afterTurns_append]
    refine hcompletes.heard (accounted_afterTurns before haccounted) ?_
    exact listener_afterTurns before (hlistened before _ hturns) _
  · intro before turn later _ hnot
    exact heard_of_not_completes (accounted_afterTurns before haccounted) hnot
  · intro before later _ session hsession hvoices
    rw [afterTurns_append]
    exact tick_of_voiceless (accounted_afterTurns before haccounted) hsession hvoices
  · rintro before turn later rfl hcuts opening hopening hnot hended
    exact hnot (ended_of_cuts haccounted hcuts hopening hended)
  · intro opening hopening hlooping
    exact not_ended_of_not_mem
      (not_reported_of_looping turns haccounted opening hopening hlooping)

/-- A track is listened to until it ends, and then begun again and stopped. -/
def twiceBlip : List (Turn Recorder) :=
  [.ask (.play "blip"), .ask .tick, .host (·.atTime (.ofFloat 2)), .ask .tick,
    .ask (.play "blip"), .ask .stop, .ask .tick]

/-- It is told of once. -/
theorem told_twiceBlip :
    ((fresh briefBook []).listen "over: ").gather heard twiceBlip = ["over: blip"] ∧
      (((fresh briefBook []).listen "over: ").gather opened twiceBlip).length = 2 ∧
      ((fresh briefBook []).listen "over: ").Told "over: " twiceBlip := by
  refine ⟨by decide +kernel, by decide +kernel, told_afterTurns briefBook _ "over: " twiceBlip ?_⟩
  intro other hmem
  simp [twiceBlip] at hmem

end Engine

end Chiptune
