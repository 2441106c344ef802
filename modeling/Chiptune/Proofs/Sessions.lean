/-
  Sessions and the voices of the scheduler.

  An engine without a session plays no voice and has none to report.  The session of an
  engine that is busy holds the handles of exactly those voices that play or whose early
  end is still to be reported.
-/
import Chiptune.Proofs.Coherent
import Chiptune.Proofs.EngineRun

set_option autoImplicit false

namespace Chiptune

open AudioGraph

/-! ## Voices that are pending -/

namespace Scheduler

/-- The handles of the voices that play or are still to be reported. -/
def pending (scheduler : Scheduler) : List VoiceId :=
  scheduler.tasks.map (·.handle) ++ scheduler.endedEarly

variable {scheduler : Scheduler}

/-- A voice that plays has not ended early. -/
theorem Coherent.tasks_disjoint_early (h : scheduler.Coherent) :
    ∀ handle ∈ scheduler.tasks.map (·.handle), handle ∉ scheduler.endedEarly := by
  intro handle hmem hearly
  obtain ⟨task, htask, rfl⟩ := List.mem_map.1 hmem
  obtain ⟨timer, htimer, hhandle, -⟩ := h.tasks_timer task htask
  exact h.early_apart _ hearly (hhandle ▸ List.mem_map_of_mem htimer)

theorem Coherent.pending_nodup (h : scheduler.Coherent) : scheduler.pending.Nodup :=
  h.tasks_nodup.append h.early_nodup fun _ hmem hearly =>
    h.tasks_disjoint_early _ hmem hearly

/-- A voice that is started is pending, and nothing changes when it is refused. -/
theorem pending_start (now : Seconds) (voice : Voice) (tones : List Tone)
    (looping announced : Bool) (scheduler : Scheduler) :
    (∃ error, (scheduler.start now voice tones looping announced).1.result = .error error ∧
      (scheduler.start now voice tones looping announced).2 = scheduler) ∨
    (∃ handle, (scheduler.start now voice tones looping announced).1.result = .ok handle ∧
      (scheduler.start now voice tones looping announced).2.pending.Perm
        (scheduler.pending ++ [handle])) := by
  rcases start_cases now voice tones looping announced scheduler with
    ⟨-, -, hstart⟩ | ⟨-, -, hstart⟩ | ⟨-, -, hstart⟩
  · exact Or.inl ⟨.stuckLoop, by rw [hstart], by rw [hstart]⟩
  · refine Or.inr ⟨scheduler.nextHandle, by rw [hstart], ?_⟩
    rw [hstart, pending, pending, List.append_assoc]
  · refine Or.inr ⟨scheduler.nextHandle, by rw [hstart], ?_⟩
    rw [hstart, pending, pending, List.map_append, List.append_assoc, List.append_assoc]
    exact List.Perm.append_left _ List.perm_append_comm

/-- After a poll those voices are pending that were and that it did not report. -/
theorem pending_poll (h : scheduler.Coherent) (now : Seconds) :
    (scheduler.poll now).2.pending =
      scheduler.pending.filter fun handle => !(scheduler.poll now).1.ended.contains handle := by
  rw [pending, pending, poll_eq, firing, handles_fireAll, List.append_nil, List.filter_append]
  have hearly : (scheduler.endedEarly.filter fun handle =>
      !(scheduler.endedEarly ++ (scheduler.firing now).ended).contains handle) = [] :=
    List.filter_eq_nil_iff.2 fun handle hmem => by simp [hmem]
  rw [firing] at hearly
  rw [hearly, List.append_nil]
  refine List.filter_congr fun handle hmem => ?_
  have hnot := h.tasks_disjoint_early handle hmem
  simp [hnot]

/-- Without voices no timer does anything. -/
theorem fireAll_nil (now : Seconds) (epoch : Nat) (timers : List Timer) :
    fireAll now epoch timers [] = ⟨[], [], [], [], []⟩ := by
  induction timers with
  | nil => rfl
  | cons timer timers ih =>
    have hfirst : fire now epoch timer [] = ⟨[], [], [], [], []⟩ := rfl
    rw [fireAll, hfirst, ih]
    rfl

end Scheduler

/-! ## Sessions -/

variable {G : Type} [AudioGraph G]

/-- A session holds the handles that are pending, and without one none is. -/
structure Engine.Accounted (engine : Engine G) : Prop where
  coherent : engine.scheduler.Coherent
  idle : engine.session = none → engine.scheduler.pending = []
  busy : ∀ session, engine.session = some session →
    session.handles.Perm engine.scheduler.pending

namespace Stage

variable {stage : Stage G}

theorem coherent_retire (handles : List VoiceId) (h : stage.scheduler.Coherent) :
    (stage.retire handles).scheduler.Coherent :=
  Scheduler.coherent_cancelEvery (Scheduler.coherent_cancelEach (now stage.graph) handles h)
    (now stage.graph)

/-- Nothing is pending when every voice has been released. -/
theorem pending_retire (handles : List VoiceId) (stage : Stage G) :
    (stage.retire handles).scheduler.pending = [] := rfl

theorem coherent_poll (h : stage.scheduler.Coherent) : stage.poll.2.scheduler.Coherent :=
  Scheduler.coherent_poll h _

/-- A part that starts is pending; one that fails leaves the scheduler as it is. -/
theorem startPart_cases (looping : Bool) (part : PlannedPart)
    (h : stage.scheduler.Coherent) :
    (∃ error next, stage.startPart looping part = (.error error, next) ∧
      next.scheduler = stage.scheduler) ∨
    (∃ handle next, stage.startPart looping part = (.ok handle, next) ∧
      next.scheduler.Coherent ∧
      next.scheduler.pending.Perm (stage.scheduler.pending ++ [handle])) := by
  cases hbuilt : NodeChain.build part.instrument destination stage.graph with
  | mk outcome graph =>
  cases outcome with
  | error fault =>
    refine Or.inl ⟨.graph fault, { stage with graph }, ?_, rfl⟩
    unfold startPart
    rw [hbuilt]
  | ok chain =>
    rw [startPart_of_build hbuilt]
    have hcoherent := Scheduler.coherent_start h (now graph) ⟨chain⟩ part.tones looping false
    rcases Scheduler.pending_start (now graph) ⟨chain⟩ part.tones looping false
      stage.scheduler with ⟨error, hresult, hsame⟩ | ⟨handle, hresult, hperm⟩
    · rw [hresult]
      exact Or.inl ⟨.tune error, _, rfl, hsame⟩
    · rw [hresult]
      exact Or.inr ⟨handle, _, rfl, hcoherent, hperm⟩

theorem coherent_startPart (looping : Bool) (part : PlannedPart)
    (h : stage.scheduler.Coherent) : (stage.startPart looping part).2.scheduler.Coherent := by
  rcases startPart_cases looping part h with
    ⟨error, next, hpart, hsame⟩ | ⟨handle, next, hpart, hnext, -⟩
  · rw [hpart]
    exact hsame ▸ h
  · rw [hpart]
    exact hnext

/-- Whatever an engine does keeps the handles of its scheduler together. -/
theorem kept_coherent : Kept fun stage : Stage G => stage.scheduler.Coherent where
  retire := fun handles _ h => coherent_retire handles h
  startPart := fun looping part _ _ h => coherent_startPart looping part h
  poll := fun h => coherent_poll h

/-- The handles that are collected while parts start are those that are pending. -/
theorem startParts_accounted (looping : Bool) (parts : List PlannedPart) :
    ∀ {handles : List VoiceId} {stage : Stage G}, stage.scheduler.Coherent →
      handles.Perm stage.scheduler.pending →
      (stage.startParts looping parts handles).2.scheduler.Coherent ∧
        (stage.startParts looping parts handles).1.2.Perm
          (stage.startParts looping parts handles).2.scheduler.pending := by
  induction parts with
  | nil => exact fun hcoherent hperm => ⟨hcoherent, hperm⟩
  | cons part parts ih =>
    intro handles stage hcoherent hperm
    unfold startParts
    rcases startPart_cases looping part hcoherent with
      ⟨error, next, hpart, hsame⟩ | ⟨handle, next, hpart, hnext, hmore⟩
    · rw [hpart]
      simp only
      rw [hsame]
      exact ⟨hcoherent, hperm⟩
    · rw [hpart]
      exact ih hnext ((hperm.append_right [handle]).trans hmore.symm)

end Stage

namespace Engine

variable {engine : Engine G}

omit [AudioGraph G] in
theorem accounted_ofBook (book : Songbook) (graph : G) : (ofBook book graph).Accounted where
  coherent := Scheduler.coherent_empty
  idle := fun _ => rfl
  busy := fun _ h => nomatch h

/-- An engine that stops changes its stage and ends its session. -/
theorem stop_eq (engine : Engine G) :
    engine.stop = { engine with toStage := engine.stop.toStage, session := none } := by
  unfold stop
  split
  · rename_i heq
    rw [← heq]
  · rfl

/-- Without a session there is nothing to stop. -/
theorem stop_of_idle (h : engine.session = none) : engine.stop = engine := by
  rw [stop, h]

/-- An engine that has taken another songbook plays nothing. -/
theorem session_replaceBook (book : Songbook) (engine : Engine G) :
    (engine.replaceBook book).session = none := by
  rw [replaceBook, stop_eq]

/-- Nothing is pending when an engine has stopped. -/
theorem Accounted.pending_stop (h : engine.Accounted) : engine.stop.scheduler.pending = [] := by
  unfold stop
  split
  · exact h.idle ‹_›
  · exact Stage.pending_retire _ engine.toStage

theorem Accounted.tasks_stop (h : engine.Accounted) : engine.stop.scheduler.tasks = [] :=
  List.map_eq_nil_iff.1 (List.append_eq_nil_iff.1 h.pending_stop).1

theorem accounted_stop (h : engine.Accounted) : engine.stop.Accounted where
  coherent := kept_stop Stage.kept_coherent h.coherent
  idle := fun _ => h.pending_stop
  busy := by
    rw [stop_eq]
    exact fun _ heq => nomatch heq

/-- A request to play is refused early, or every part starts, or the graph fails. -/
theorem play_cases (engine : Engine G) (name : String) :
    (∃ error, engine.plan name = .error error ∧
      engine.play name = (.error (.tune error), engine)) ∨
    (∃ track parts handles stage, engine.plan name = .ok (track, parts) ∧
      engine.stop.toStage.startParts track.looping parts [] = ((.ok (), handles), stage) ∧
      engine.play name =
        (.ok (), { engine with toStage := stage, session := some ⟨name, handles⟩ })) ∨
    (∃ track parts error handles stage, engine.plan name = .ok (track, parts) ∧
      engine.stop.toStage.startParts track.looping parts [] =
        ((.error error, handles), stage) ∧
      engine.play name =
        (.error error, { engine with toStage := stage.retire handles, session := none })) := by
  unfold play
  cases engine.plan name with
  | error error => exact Or.inl ⟨error, rfl, rfl⟩
  | ok planned =>
    obtain ⟨track, parts⟩ := planned
    refine Or.inr ?_
    simp only
    cases hparts : engine.stop.toStage.startParts track.looping parts [] with
    | mk outcome stage =>
    obtain ⟨result, handles⟩ := outcome
    cases result with
    | ok done =>
      refine Or.inl ⟨track, parts, handles, stage, rfl, hparts, ?_⟩
      rw [stop_eq]
    | error error =>
      refine Or.inr ⟨track, parts, error, handles, stage, rfl, hparts, ?_⟩
      rw [stop_eq]

/-- When the graph fails, no session is left. -/
theorem session_of_refused {name : String} {fault : GraphFault}
    (h : (engine.play name).1 = .error (.graph fault)) : (engine.play name).2.session = none := by
  rcases play_cases engine name with ⟨error, -, hplay⟩ | ⟨_, _, _, _, -, -, hplay⟩ |
    ⟨_, _, _, _, _, -, -, hplay⟩
  · rw [hplay] at h
    cases h
  · rw [hplay] at h
    cases h
  · rw [hplay]

theorem accounted_play (h : engine.Accounted) (name : String) :
    (engine.play name).2.Accounted := by
  have hstarted := fun looping parts => Stage.startParts_accounted looping parts
    (accounted_stop h).coherent (List.Perm.of_eq h.pending_stop.symm)
  rcases play_cases engine name with ⟨error, -, hplay⟩ |
    ⟨track, parts, handles, stage, -, hparts, hplay⟩ |
    ⟨track, parts, error, handles, stage, -, hparts, hplay⟩
  · rw [hplay]
    exact h
  · obtain ⟨hcoherent, hperm⟩ := hstarted track.looping parts
    rw [hparts] at hcoherent hperm
    rw [hplay]
    refine ⟨hcoherent, (fun heq => nomatch heq), fun session heq => ?_⟩
    cases heq
    exact hperm
  · obtain ⟨hcoherent, -⟩ := hstarted track.looping parts
    rw [hparts] at hcoherent
    rw [hplay]
    exact ⟨Stage.coherent_retire handles hcoherent, fun _ => rfl, fun _ heq => nomatch heq⟩

/-- The voices that a tick reports. -/
def ending (engine : Engine G) : List VoiceId := engine.toStage.poll.1.ended

/-- The handles of a session that a tick leaves. -/
def remaining (engine : Engine G) (session : Session) : List VoiceId :=
  session.handles.filter fun handle => !engine.ending.contains handle

/-- A tick reports nothing, or it reports voices of a session that ends or goes on. -/
theorem tick_cases (engine : Engine G) :
    (engine.ending = [] ∧
      engine.tick = (⟨0, []⟩, { engine with toStage := engine.toStage.poll.2 })) ∨
    (engine.ending ≠ [] ∧ engine.session = none ∧
      engine.tick = (⟨engine.ending.length, []⟩,
        { engine with toStage := engine.toStage.poll.2 })) ∨
    (∃ session, engine.ending ≠ [] ∧ engine.session = some session ∧
      engine.remaining session = [] ∧
      engine.tick = (⟨engine.ending.length, (engine.listener.map (· ++ session.track)).toList⟩,
        { engine with toStage := engine.toStage.poll.2, session := none })) ∨
    (∃ session, engine.ending ≠ [] ∧ engine.session = some session ∧
      engine.remaining session ≠ [] ∧
      engine.tick = (⟨engine.ending.length, []⟩,
        { engine with
          toStage := engine.toStage.poll.2
          session := some { session with handles := engine.remaining session } })) := by
  by_cases hending : engine.ending = []
  · refine Or.inl ⟨hending, ?_⟩
    unfold tick
    exact if_pos (List.isEmpty_iff.2 hending)
  · have hreports := mt List.isEmpty_iff.1 hending
    cases hsession : engine.session with
    | none =>
      refine Or.inr (Or.inl ⟨hending, rfl, ?_⟩)
      unfold tick
      simp only [hsession]
      exact if_neg hreports
    | some session =>
      have hplays : engine.tick =
          if (engine.remaining session).isEmpty then
            (⟨engine.ending.length, (engine.listener.map (· ++ session.track)).toList⟩,
              { engine with toStage := engine.toStage.poll.2, session := none })
          else
            (⟨engine.ending.length, []⟩,
              { engine with
                toStage := engine.toStage.poll.2
                session := some { session with handles := engine.remaining session } }) := by
        unfold tick
        simp only [hsession]
        exact if_neg hreports
      rw [hplays]
      by_cases hremaining : engine.remaining session = []
      · rw [if_pos (List.isEmpty_iff.2 hremaining)]
        exact Or.inr (Or.inr (Or.inl ⟨session, hending, rfl, hremaining, rfl⟩))
      · rw [if_neg (mt List.isEmpty_iff.1 hremaining)]
        exact Or.inr (Or.inr (Or.inr ⟨session, hending, rfl, hremaining, rfl⟩))

/-- What is pending after a tick was pending before and is not reported by it. -/
theorem Accounted.pending_tick (h : engine.Accounted) :
    engine.toStage.poll.2.scheduler.pending =
      engine.scheduler.pending.filter fun handle => !engine.ending.contains handle :=
  Scheduler.pending_poll h.coherent _

/-- It is what the session keeps. -/
theorem Accounted.remaining_perm (h : engine.Accounted) {session : Session}
    (hsession : engine.session = some session) :
    (engine.remaining session).Perm engine.toStage.poll.2.scheduler.pending := by
  rw [h.pending_tick]
  exact (h.busy session hsession).filter _

theorem accounted_tick (h : engine.Accounted) : engine.tick.2.Accounted := by
  have hcoherent := Stage.coherent_poll h.coherent
  have hidle : engine.session = none → engine.toStage.poll.2.scheduler.pending = [] := by
    intro hsession
    rw [h.pending_tick, h.idle hsession]
    rfl
  rcases tick_cases engine with ⟨hending, htick⟩ | ⟨-, hsession, htick⟩ |
    ⟨session, -, hsession, hremaining, htick⟩ | ⟨session, -, hsession, -, htick⟩
  · rw [htick]
    refine ⟨hcoherent, hidle, fun session hsession => ?_⟩
    have hperm := h.remaining_perm hsession
    rw [remaining, hending] at hperm
    simpa using hperm
  · rw [htick]
    refine ⟨hcoherent, hidle, fun session heq => ?_⟩
    rw [hsession] at heq
    cases heq
  · rw [htick]
    have hperm := h.remaining_perm hsession
    rw [hremaining] at hperm
    exact ⟨hcoherent, fun _ => hperm.nil_eq.symm, fun _ heq => nomatch heq⟩
  · rw [htick]
    refine ⟨hcoherent, (fun heq => nomatch heq), fun next heq => ?_⟩
    cases heq
    exact h.remaining_perm hsession

/-- Every request keeps the account. -/
theorem accounted_serve (h : engine.Accounted) (request : Request) :
    (engine.serve request).2.Accounted := by
  cases request with
  | play name => exact accounted_play h name
  | stop => exact accounted_stop h
  | tick => exact accounted_tick h
  | replaceBook book =>
    obtain ⟨hcoherent, hidle, hbusy⟩ := accounted_stop h
    exact ⟨hcoherent, hidle, hbusy⟩
  | listen label =>
    obtain ⟨hcoherent, hidle, hbusy⟩ := h
    exact ⟨hcoherent, hidle, hbusy⟩

end Engine

namespace Engine

theorem accounted_happen (event : Event) {engine : Engine Recorder} (h : engine.Accounted) :
    (engine.happen event).2.Accounted := by
  cases event with
  | ask request => exact accounted_serve h request
  | host change => exact ⟨h.coherent, h.idle, h.busy⟩

/-- The account is kept in every run. -/
theorem accounted_after (events : List Event) {engine : Engine Recorder} (h : engine.Accounted) :
    (engine.after events).Accounted :=
  after_induction accounted_happen events h

end Engine

end Chiptune
