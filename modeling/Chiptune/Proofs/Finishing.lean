/-
  How a track comes to its end.

  A track that does not loop has ended when all its voices have been reported.  A tick
  looks for that only when it has a voice to report, so a track ends at the first tick
  after its last deadline exactly when it has a part.
-/
import Chiptune.Proofs.Outcomes
import Chiptune.Proofs.Sessions

set_option autoImplicit false

namespace Chiptune

open AudioGraph

/-! ## Voices that do not loop -/

namespace Scheduler

variable {scheduler : Scheduler} {now : Seconds} {looping : Bool}

/-- All voices loop, or none of them does. -/
def Loops (looping : Bool) (scheduler : Scheduler) : Prop :=
  ∀ task ∈ scheduler.tasks, task.looping = looping

theorem loops_start (now : Seconds) (voice : Voice) (tones : List Tone) (announced : Bool)
    (h : scheduler.Loops looping) :
    (scheduler.start now voice tones looping announced).2.Loops looping := by
  rcases start_cases now voice tones looping announced scheduler with
    ⟨-, -, hstart⟩ | ⟨-, -, hstart⟩ | ⟨-, -, hstart⟩
  · rw [hstart]
    exact h
  · rw [hstart]
    exact h
  · rw [hstart]
    intro task hmem
    rcases List.mem_append.1 hmem with hmem | hmem
    · exact h task hmem
    · rw [List.mem_singleton.1 hmem]

theorem loops_poll (now : Seconds) (h : scheduler.Loops looping) :
    (scheduler.poll now).2.Loops looping := by
  intro task hmem
  obtain ⟨before, hbefore, heq⟩ := mem_fireAll_tasks hmem
  rw [heq]
  exact h before hbefore

/-- The timers of all voices that play are due. -/
def AllDue (now : Seconds) (scheduler : Scheduler) : Prop :=
  ∀ timer ∈ scheduler.timers, scheduler.plays timer.handle = true → timer.due ≤ now

instance (now : Seconds) (scheduler : Scheduler) : Decidable (scheduler.AllDue now) :=
  inferInstanceAs (Decidable (∀ timer ∈ scheduler.timers, _ → _))

/-- When the timers of all voices are due and none of them loops, a poll ends them all. -/
theorem Coherent.tasks_poll_of_allDue (h : scheduler.Coherent)
    (hnumeric : Timer.Numeric scheduler.timers) (hdue : scheduler.AllDue now)
    (hloops : scheduler.Loops false) : (scheduler.poll now).2.tasks = [] := by
  refine List.eq_nil_iff_forall_not_mem.2 fun task hmem => ?_
  have hleft := task?_eq_some_of_mem (coherent_poll h now).tasks_nodup hmem
  obtain ⟨before, hbefore, heq⟩ := mem_fireAll_tasks hmem
  obtain ⟨timer, htimer, hhandle, -⟩ := h.tasks_timer before hbefore
  have hfound : task? scheduler.tasks timer.handle = some before :=
    hhandle ▸ task?_eq_some_of_mem h.tasks_nodup hbefore
  have hfires : timer ∈ scheduler.dueTimers now := by
    refine (h.mem_dueTimers_iff hnumeric now htimer).2 (hdue timer htimer ?_)
    rw [plays, hfound]
    rfl
  have hgone := h.task?_poll_of_due now hfires
  rw [h.liveTask?_eq htimer, hfound] at hgone
  simp only [hloops before hbefore, Bool.false_eq_true, if_false] at hgone
  have hsame : timer.handle = task.handle := by rw [hhandle, heq]
  rw [hsame, hleft] at hgone
  cases hgone

/-- When nothing is pending, a poll does nothing, whatever timers are left. -/
theorem poll_of_pending (now : Seconds) (h : scheduler.pending = []) :
    (scheduler.poll now).1 = ⟨[], [], []⟩ ∧ (scheduler.poll now).2.pending = [] := by
  obtain ⟨htasks, hearly⟩ := List.append_eq_nil_iff.1 h
  have hfiring : scheduler.firing now = ⟨[], [], [], [], []⟩ := by
    rw [firing, List.map_eq_nil_iff.1 htasks, fireAll_nil]
  rw [poll_eq, hfiring, hearly]
  exact ⟨rfl, rfl⟩

end Scheduler

/-! ## The parts of a track -/

/-- A track is planned part by part. -/
theorem Songbook.length_planTrack {book : Songbook} {name : String} {track : Track}
    {parts : List PlannedPart} (h : book.planTrack name = .ok (track, parts)) :
    book.track name = .ok track ∧ parts.length = track.parts.length := by
  unfold planTrack at h
  obtain ⟨found, htrack, h⟩ := bind_ok h
  obtain ⟨planned, hparts, h⟩ := bind_ok h
  cases h
  exact ⟨htrack, length_of_mapM_ok hparts⟩

/-! ## The session of a track -/

section

variable {G : Type} [AudioGraph G]

namespace Stage

variable {stage next : Stage G} {looping : Bool}

theorem loops_startPart (part : PlannedPart) (h : stage.scheduler.Loops looping) :
    (stage.startPart looping part).2.scheduler.Loops looping := by
  cases hbuilt : NodeChain.build part.instrument destination stage.graph with
  | mk outcome graph =>
  cases outcome with
  | error fault =>
    unfold startPart
    rw [hbuilt]
    exact h
  | ok chain =>
    rw [startPart_of_build hbuilt]
    exact Scheduler.loops_start (now graph) ⟨chain⟩ part.tones false h

/-- When all parts start, each of them has a handle and loops if it was told to. -/
theorem startParts_ok {parts : List PlannedPart} {handles started : List VoiceId}
    (hloops : stage.scheduler.Loops looping)
    (h : stage.startParts looping parts handles = ((.ok (), started), next)) :
    started.length = handles.length + parts.length ∧ next.scheduler.Loops looping := by
  induction parts generalizing handles stage with
  | nil =>
    cases h
    exact ⟨rfl, hloops⟩
  | cons part parts ih =>
    have hfirst := loops_startPart part hloops
    unfold startParts at h
    split at h
    · cases h
    · rename_i handle left hpart
      rw [hpart] at hfirst
      obtain ⟨hlength, hlast⟩ := ih hfirst h
      refine ⟨?_, hlast⟩
      rw [hlength, List.length_append, List.length_cons, List.length_cons, List.length_nil]
      omega

end Stage

namespace Engine

variable {engine : Engine G} {name : String} {track : Track}

/-- The session, if there is one, is that of a track: it is out of handles only when the
track has no parts, and its voices loop if the track does. -/
def Performs (name : String) (track : Track) (engine : Engine G) : Prop :=
  ∀ session, engine.session = some session →
    session.track = name ∧ (session.handles = [] ↔ track.parts = []) ∧
      engine.scheduler.Loops track.looping

omit [AudioGraph G] in
theorem performs_of_idle (h : engine.session = none) : engine.Performs name track := by
  intro session heq
  rw [h] at heq
  cases heq

theorem planTrack_of_plan {parts : List PlannedPart} (h : engine.plan name = .ok (track, parts)) :
    engine.book.planTrack name = .ok (track, parts) := by
  unfold plan at h
  obtain ⟨planned, hplanned, h⟩ := bind_ok h
  simp only at h
  split at h
  · cases h
  · cases h
    exact hplanned

/-- An engine that has stopped has no voices, so all of them loop, or none does. -/
theorem Accounted.loops_stop (h : engine.Accounted) (looping : Bool) :
    engine.stop.scheduler.Loops looping := by
  intro task hmem
  rw [h.tasks_stop] at hmem
  cases hmem

/-- A track that is played has the session of its own. -/
theorem performs_play (haccounted : engine.Accounted)
    (htrack : engine.book.track name = .ok track) (hplay : (engine.play name).1 = .ok ()) :
    (engine.play name).2.Performs name track := by
  rcases play_cases engine name with ⟨error, -, heq⟩ |
    ⟨found, parts, handles, stage, hplan, hparts, heq⟩ | ⟨found, parts, error, _, _, -, -, heq⟩
  · rw [heq] at hplay
    cases hplay
  · obtain ⟨hfound, hlength⟩ := Songbook.length_planTrack (planTrack_of_plan hplan)
    rw [htrack] at hfound
    cases hfound
    obtain ⟨hstarted, hloops⟩ :=
      Stage.startParts_ok (haccounted.loops_stop track.looping) hparts
    rw [heq]
    intro session hsession
    cases hsession
    refine ⟨rfl, ?_, hloops⟩
    rw [← List.length_eq_zero_iff, ← List.length_eq_zero_iff, hstarted, hlength, List.length_nil,
      Nat.zero_add]
  · rw [heq] at hplay
    cases hplay

/-- A tick leaves the session of a track to it, unless it ends the track. -/
theorem performs_tick (h : engine.Performs name track) : engine.tick.2.Performs name track := by
  have hpolled : engine.scheduler.Loops track.looping →
      engine.toStage.poll.2.scheduler.Loops track.looping :=
    Scheduler.loops_poll (now engine.graph)
  rcases tick_cases engine with ⟨-, htick⟩ | ⟨-, hsession, htick⟩ |
    ⟨session, -, -, -, htick⟩ | ⟨session, -, hsession, hremaining, htick⟩
  · rw [htick]
    intro session hsession
    obtain ⟨hname, hparts, hloops⟩ := h session hsession
    exact ⟨hname, hparts, hpolled hloops⟩
  · rw [htick]
    exact performs_of_idle hsession
  · rw [htick]
    exact performs_of_idle rfl
  · rw [htick]
    obtain ⟨hname, hparts, hloops⟩ := h session hsession
    have hsome : session.handles ≠ [] := by
      intro hnone
      rw [remaining, hnone] at hremaining
      exact hremaining rfl
    intro kept heq
    cases heq
    exact ⟨hname, iff_of_false hremaining (mt hparts.2 hsome), hpolled hloops⟩

/-- As long as no track begins, no request gives the session away. -/
theorem performs_serve (request : Request) (h : engine.Performs name track)
    (hbegins : (engine.serve request).1.begins = false) :
    (engine.serve request).2.Performs name track := by
  cases request with
  | play other =>
    rcases play_cases engine other with ⟨error, -, heq⟩ |
      ⟨found, parts, handles, stage, -, -, heq⟩ | ⟨found, parts, error, handles, stage, -, -, heq⟩
    · rw [serve, heq]
      exact h
    · rw [serve, heq] at hbegins
      cases hbegins
    · rw [serve, heq]
      exact performs_of_idle rfl
  | stop =>
    rw [serve, stop_eq]
    exact performs_of_idle rfl
  | tick => exact performs_tick h
  | replaceBook book =>
    exact performs_of_idle (session_replaceBook book engine)
  | listen label => exact h

/-! ## The last tick -/

/-- A tick ends the track of this name: nothing is playing any more, and the listener has
been told once. -/
structure Finishes (name : String) (engine : Engine G) : Prop where
  idle : engine.tick.2.isBusy = false
  noTrack : engine.tick.2.playing? = none
  noVoices : engine.tick.2.voicesLeft = 0
  heard : engine.tick.1.heard = (engine.listener.map (· ++ name)).toList

/-- A track with parts is ended by the tick at which all its voices are due. -/
theorem finishes_of_parts (haccounted : engine.Accounted) (h : engine.Performs name track)
    (hbusy : engine.isBusy = true) (hlooping : track.looping = false)
    (hnumeric : Timer.Numeric engine.scheduler.timers)
    (hdue : engine.scheduler.AllDue (now engine.graph)) (hparts : track.parts ≠ []) :
    engine.Finishes name := by
  obtain ⟨session, hsession⟩ := Option.isSome_iff_exists.1 hbusy
  obtain ⟨hname, hhandles, hloops⟩ := h session hsession
  have htasks : engine.toStage.poll.2.scheduler.tasks = [] :=
    haccounted.coherent.tasks_poll_of_allDue hnumeric hdue (hlooping ▸ hloops)
  have hpending : engine.toStage.poll.2.scheduler.pending = [] := by
    rw [Scheduler.pending, htasks]
    rfl
  have hremaining : engine.remaining session = [] :=
    (hpending ▸ haccounted.remaining_perm hsession).eq_nil
  -- without a report the handles would all remain, and there are some
  have hending : engine.ending ≠ [] := by
    intro hnone
    rw [remaining, hnone] at hremaining
    exact mt hhandles.1 hparts (by simpa using hremaining)
  rcases tick_cases engine with ⟨hnone, -⟩ | ⟨-, hidle, -⟩ | ⟨found, -, hfound, -, htick⟩ |
    ⟨found, -, hfound, hsome, -⟩
  · exact absurd hnone hending
  · rw [hidle] at hsession
    cases hsession
  · rw [hsession] at hfound
    cases hfound
    rw [← hname]
    exact ⟨by rw [htick]; rfl, by rw [htick]; rfl, by rw [htick]; rfl, by rw [htick]⟩
  · rw [hsession] at hfound
    cases hfound
    exact absurd hremaining hsome

/-- A track without parts is never ended by a tick, since there is nothing to report. -/
theorem tick_of_no_parts (haccounted : engine.Accounted) (h : engine.Performs name track)
    (hbusy : engine.isBusy = true) (hparts : track.parts = []) :
    engine.tick.1 = ⟨0, []⟩ ∧ engine.tick.2.session = engine.session := by
  obtain ⟨session, hsession⟩ := Option.isSome_iff_exists.1 hbusy
  obtain ⟨-, hhandles, -⟩ := h session hsession
  have hperm := haccounted.busy session hsession
  rw [hhandles.2 hparts] at hperm
  have hpoll := (Scheduler.poll_of_pending (now engine.graph) hperm.nil_eq.symm).1
  have hending : engine.ending = [] := congrArg Scheduler.Poll.ended hpoll
  rcases tick_cases engine with ⟨-, htick⟩ | ⟨hsome, -⟩ | ⟨_, hsome, -⟩ | ⟨_, hsome, -⟩
  · rw [htick]
    exact ⟨rfl, rfl⟩
  · exact absurd hending hsome
  · exact absurd hending hsome
  · exact absurd hending hsome

end Engine

end

namespace Engine

variable {name : String} {track : Track}

/-- Nor does anything else that happens. -/
theorem performs_after (events : List Event) {engine : Engine Recorder}
    (h : engine.Performs name track)
    (hbegins : ∀ answer ∈ engine.answers events, answer.begins = false) :
    (engine.after events).Performs name track := by
  induction events generalizing engine with
  | nil => exact h
  | cons event events ih =>
    refine ih ?_ fun answer hmem => hbegins answer (List.mem_cons_of_mem _ hmem)
    cases event with
    | ask request => exact performs_serve request h (hbegins _ List.mem_cons_self)
    | host change => exact h

/-- **A track that does not loop ends at the first tick after its last deadline, exactly
when it has a part.**  Whatever has happened before the track began, and whatever happens
later as long as it goes on, voices that ended meanwhile included: when no deadline is
undefined and all voices are due, the next tick leaves nothing playing and tells the
listener once, unless the track has no parts at all. -/
theorem finishes_iff (book : Songbook) (unsupported : List Setting) (before later : List Event)
    {host playing : Engine Recorder} (hhost : host = (fresh book unsupported).after before)
    (htrack : host.book.track name = .ok track) (hlooping : track.looping = false)
    (hplay : (host.play name).1 = .ok ())
    (hplaying : playing = (host.play name).2.after later)
    (hlater : ∀ answer ∈ (host.play name).2.answers later, answer.begins = false)
    (hbusy : playing.isBusy = true) (hnumeric : Timer.Numeric playing.scheduler.timers)
    (hdue : playing.scheduler.AllDue playing.graph.now) :
    playing.Finishes name ↔ track.parts ≠ [] := by
  have hhosted : host.Accounted := hhost ▸ accounted_after before (accounted_ofBook book _)
  have haccounted : playing.Accounted :=
    hplaying ▸ accounted_after later (accounted_play hhosted name)
  have hperforms : playing.Performs name track :=
    hplaying ▸ performs_after later (performs_play hhosted htrack hplay) hlater
  refine ⟨fun hfinishes hparts => ?_, ?_⟩
  · obtain ⟨-, hsession⟩ := tick_of_no_parts haccounted hperforms hbusy hparts
    have hidle := hfinishes.idle
    rw [isBusy, hsession] at hidle
    exact absurd hbusy (Bool.eq_false_iff.1 hidle)
  · exact finishes_of_parts haccounted hperforms hbusy hlooping hnumeric hdue

/-- A songbook with a track of two parts, one of them silent, and a track without parts. -/
def briefBook : Songbook :=
  ⟨Table.empty.insert "ABC" (.plain .sine),
    Table.ofList [("blip", ⟨60, false, ["ABC", "ABCX14"]⟩), ("none", ⟨60, false, []⟩)]⟩

/-- A track of the songbook is begun and listened to, ticked once, and left for two
seconds. -/
def briefRun (name : String) : Engine Recorder :=
  ((fresh briefBook []).play name).2.after
    [.ask (.listen ""), .ask .tick, .host (.setClock (.ofFloat 2))]

/-- The silent part has been reported, the other one is due, and the track ends. -/
theorem finishes_blip : (briefRun "blip").voicesLeft = 1 ∧ (briefRun "blip").Finishes "blip" := by
  refine ⟨by decide +kernel, ?_⟩
  have htrack : (fresh briefBook []).book.track "blip" =
      .ok ⟨60, false, ["ABC", "ABCX14"]⟩ := by
    decide +kernel
  refine (finishes_iff briefBook [] []
    [.ask (.listen ""), .ask .tick, .host (.setClock (.ofFloat 2))] rfl htrack rfl ?_ rfl ?_ ?_
    ?_ ?_).2 (List.cons_ne_nil _ _)
  all_goals decide +kernel

/-- A track without parts plays, and although no voice is left to wait for, the tick does
not end it. -/
theorem not_finishes_none :
    (fresh briefBook []).book.track "none" = .ok ⟨60, false, []⟩ ∧
      ((fresh briefBook []).play "none").1 = .ok () ∧
      (briefRun "none").scheduler.timers = [] ∧ ¬ (briefRun "none").Finishes "none" := by
  have hbusy : (briefRun "none").tick.2.isBusy = true := by decide +kernel
  refine ⟨by decide +kernel, by decide +kernel, by decide +kernel, fun hfinishes => ?_⟩
  rw [hfinishes.idle] at hbusy
  cases hbusy

end Engine

end Chiptune
