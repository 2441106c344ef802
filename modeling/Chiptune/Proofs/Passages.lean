/-
  What one turn makes of the session of an engine.

  A session begins when a track is played.  Ticks take voices from it, and the tick that
  takes the last one ends it; or it is cut short by a request that puts something else in
  its place.  Voices are numbered on and on, so those of a later session are never those
  of an earlier one.
-/
import Chiptune.Proofs.Turns

set_option autoImplicit false

namespace Chiptune

open AudioGraph

/-! ## Numbers of voices -/

namespace Scheduler

/-- A voice that starts gets the next number, and no number is used up when it is refused. -/
theorem nextHandle_start (now : Seconds) (voice : Voice) (tones : List Tone)
    (looping announced : Bool) (scheduler : Scheduler) :
    (∃ error, (scheduler.start now voice tones looping announced).1.result = .error error ∧
      (scheduler.start now voice tones looping announced).2.nextHandle = scheduler.nextHandle) ∨
    ((scheduler.start now voice tones looping announced).1.result = .ok scheduler.nextHandle ∧
      (scheduler.start now voice tones looping announced).2.nextHandle =
        scheduler.nextHandle + 1) := by
  rcases start_cases now voice tones looping announced scheduler with
    ⟨-, -, hstart⟩ | ⟨-, -, hstart⟩ | ⟨-, -, hstart⟩
  · exact Or.inl ⟨.stuckLoop, by rw [hstart], by rw [hstart]⟩
  · exact Or.inr ⟨by rw [hstart], by rw [hstart]⟩
  · exact Or.inr ⟨by rw [hstart], by rw [hstart]⟩

@[simp] theorem nextHandle_cancel (now : Seconds) (handle : VoiceId) (scheduler : Scheduler) :
    (scheduler.cancel now handle).2.nextHandle = scheduler.nextHandle := by
  rcases cancel_cases now handle scheduler with ⟨-, hcancel⟩ | ⟨task, -, hcancel⟩
  · rw [hcancel]
  · rw [hcancel]

@[simp] theorem nextHandle_cancelEach (now : Seconds) (handles : List VoiceId)
    (scheduler : Scheduler) :
    (scheduler.cancelEach now handles).2.nextHandle = scheduler.nextHandle := by
  induction handles generalizing scheduler with
  | nil => rfl
  | cons handle handles ih => exact (ih _).trans (nextHandle_cancel now handle scheduler)

/-- Whatever is pending has been numbered. -/
theorem Coherent.pending_below {scheduler : Scheduler} (h : scheduler.Coherent) :
    ∀ handle ∈ scheduler.pending, handle < scheduler.nextHandle := by
  intro handle hmem
  rcases List.mem_append.1 hmem with hmem | hmem
  · obtain ⟨task, htask, rfl⟩ := List.mem_map.1 hmem
    exact h.tasks_below htask
  · exact h.early_below handle hmem

/-- Timers end voices that play. -/
theorem ended_fireAll_subset (now : Seconds) (epoch : Nat) {timers : List Timer}
    (tasks : List Task) (hnodup : (timers.map (·.handle)).Nodup) :
    (fireAll now epoch timers tasks).ended ⊆ tasks.map (·.handle) := by
  intro handle hmem
  rw [ended_fireAll now epoch tasks hnodup] at hmem
  obtain ⟨timer, -, hmem⟩ := List.mem_flatMap.1 hmem
  rcases fire_cases now epoch timer tasks with
    ⟨-, hfire⟩ | ⟨task, -, -, -, hfire⟩ | ⟨task, hlive, hhandle, -, hfire⟩
  · rw [hfire] at hmem
    cases hmem
  · rw [hfire] at hmem
    cases hmem
  · rw [hfire] at hmem
    obtain rfl := List.mem_singleton.1 hmem
    exact List.mem_map.2 ⟨task, mem_of_task? (task?_of_liveTask? hlive).1, hhandle⟩

namespace Coherent

variable {scheduler : Scheduler}

/-- A poll reports voices that were pending. -/
theorem ended_subset_pending (h : scheduler.Coherent) (now : Seconds) :
    (scheduler.poll now).1.ended ⊆ scheduler.pending := by
  intro handle hmem
  rcases List.mem_append.1 hmem with hmem | hmem
  · exact List.mem_append_right _ hmem
  · exact List.mem_append_left _ (ended_fireAll_subset now _ _ (h.dueTimers_nodup now) hmem)

/-- It reports none of them twice. -/
theorem ended_nodup (h : scheduler.Coherent) (now : Seconds) :
    (scheduler.poll now).1.ended.Nodup := by
  obtain ⟨hended, -⟩ :=
    handles_of_fireAll now scheduler.epoch (scheduler.dueTimers now) scheduler.tasks
  refine h.early_nodup.append ((h.dueTimers_nodup now).sublist hended) ?_
  intro handle hearly hmem
  have htask :=
    ended_fireAll_subset now scheduler.epoch scheduler.tasks (h.dueTimers_nodup now) hmem
  exact h.tasks_disjoint_early handle htask hearly

/-- What was pending before a poll is reported by it or pending behind it. -/
theorem pending_perm_poll (h : scheduler.Coherent) (now : Seconds) :
    scheduler.pending.Perm ((scheduler.poll now).1.ended ++ (scheduler.poll now).2.pending) := by
  have hended : (scheduler.pending.filter fun handle =>
      (scheduler.poll now).1.ended.contains handle).Perm (scheduler.poll now).1.ended := by
    refine (List.perm_ext_iff_of_nodup (h.pending_nodup.filter _) (h.ended_nodup now)).2 ?_
    intro handle
    have hpending : handle ∈ (scheduler.poll now).1.ended → handle ∈ scheduler.pending := by
      intro hmem
      exact h.ended_subset_pending now hmem
    simpa using hpending
  rw [pending_poll h]
  exact (List.filter_append_perm _ _).symm.trans (hended.append_right _)

end Coherent

end Scheduler

variable {G : Type} [AudioGraph G]

namespace Stage

variable {stage next : Stage G}

theorem nextHandle_retire (handles : List VoiceId) (stage : Stage G) :
    (stage.retire handles).scheduler.nextHandle = stage.scheduler.nextHandle :=
  Scheduler.nextHandle_cancelEach (now stage.graph) handles stage.scheduler

/-- The voice of a part gets the next number, and a part that fails uses up none. -/
theorem nextHandle_startPart (looping : Bool) (part : PlannedPart) (stage : Stage G) :
    (∃ error next, stage.startPart looping part = (.error error, next) ∧
      next.scheduler.nextHandle = stage.scheduler.nextHandle) ∨
    (∃ next, stage.startPart looping part = (.ok stage.scheduler.nextHandle, next) ∧
      next.scheduler.nextHandle = stage.scheduler.nextHandle + 1) := by
  cases hbuilt : NodeChain.build part.instrument destination stage.graph with
  | mk outcome graph =>
  cases outcome with
  | error fault =>
    refine Or.inl ⟨.graph fault, { stage with graph }, ?_, rfl⟩
    unfold startPart
    rw [hbuilt]
  | ok chain =>
    rw [startPart_of_build hbuilt]
    rcases Scheduler.nextHandle_start (now graph) ⟨chain⟩ part.tones looping false
      stage.scheduler with ⟨error, hresult, hnext⟩ | ⟨hresult, hnext⟩
    · rw [hresult]
      exact Or.inl ⟨.tune error, _, rfl, hnext⟩
    · rw [hresult]
      exact Or.inr ⟨_, rfl, hnext⟩

/-- Numbers that were given out are never taken back. -/
theorem kept_nextHandle (bound : VoiceId) :
    Kept fun stage : Stage G => bound ≤ stage.scheduler.nextHandle where
  retire := by
    intro handles stage h
    rwa [nextHandle_retire]
  startPart := by
    intro looping part _ stage h
    rcases nextHandle_startPart looping part stage with
      ⟨error, next, hpart, hnext⟩ | ⟨next, hpart, hnext⟩
    · rw [hpart]
      exact hnext ▸ h
    · rw [hpart]
      exact hnext ▸ Nat.le_succ_of_le h
  poll := fun h => h

/-- Parts that start get new numbers. -/
theorem startParts_new (looping : Bool) (parts : List PlannedPart) :
    ∀ {handles : List VoiceId} {stage : Stage G},
      ∀ handle ∈ (stage.startParts looping parts handles).1.2,
        handle ∈ handles ∨ stage.scheduler.nextHandle ≤ handle := by
  induction parts with
  | nil => exact fun handle hmem => Or.inl hmem
  | cons part parts ih =>
    intro handles stage handle hmem
    unfold startParts at hmem
    rcases nextHandle_startPart looping part stage with
      ⟨error, next, hpart, hnext⟩ | ⟨next, hpart, hnext⟩
    · rw [hpart] at hmem
      exact Or.inl hmem
    · rw [hpart] at hmem
      rcases ih handle hmem with hmem | hle
      · rcases List.mem_append.1 hmem with hmem | hmem
        · exact Or.inl hmem
        · exact Or.inr (Nat.le_of_eq (List.mem_singleton.1 hmem).symm)
      · rw [hnext] at hle
        exact Or.inr (Nat.le_of_succ_le hle)

end Stage

/-! ## One turn -/

/-- A session as it begins. -/
structure Opening where
  track : String
  looping : Bool
  parts : List PlannedPart
  /-- The voices of the parts, in their order. -/
  voices : List VoiceId

/-- The session that an engine then has. -/
def Opening.session (opening : Opening) : Session := ⟨opening.track, opening.voices⟩

/-- A session without some of its voices. -/
def Session.without (ended : List VoiceId) (session : Session) : Session :=
  { session with handles := session.handles.filter fun handle => !ended.contains handle }

namespace Session

variable {session : Session} {ended : List VoiceId}

/-- Voices of others are not missed. -/
theorem without_of_not_mem (h : ∀ voice ∈ session.handles, voice ∉ ended) :
    session.without ended = session := by
  have hall : (session.handles.filter fun voice => !ended.contains voice) = session.handles := by
    refine List.filter_eq_self.2 ?_
    intro voice hmem
    simpa using h voice hmem
  rw [without, hall]

/-- Voices may be taken away in two portions. -/
theorem without_without (first second : List VoiceId) (session : Session) :
    (session.without first).without second = session.without (first ++ second) := by
  simp [without, List.filter_filter, Bool.and_comm]

end Session

namespace Engine

/-- What the listener is told in an answer. -/
def Answer.heard : Answer → List String
  | ticked tick => tick.heard
  | _ => []

/-- What the listener is told in a turn. -/
def heard (turn : Turn G) (engine : Engine G) : List String := (engine.take turn).1.heard

/-- The voices that are reported in a turn. -/
def reported (turn : Turn G) (engine : Engine G) : List VoiceId :=
  match turn with
  | .ask .tick => engine.ending
  | _ => []

/-- The session that begins in a turn. -/
def opened (turn : Turn G) (engine : Engine G) : List Opening :=
  match turn with
  | .ask (.play name) =>
    match engine.plan name, engine.play name with
    | .ok (track, parts), (.ok (), next) =>
      (next.session.map fun session => ⟨name, track.looping, parts, session.handles⟩).toList
    | _, _ => []
  | _ => []

/-- Whether a turn puts an end to the session that is going on, if there is one. -/
def cuts (turn : Turn G) (engine : Engine G) : Bool :=
  match turn with
  | .ask (.play name) => (engine.plan name).toOption.isSome
  | .ask .stop => true
  | .ask (.replaceBook _) => true
  | _ => false

/-- What a turn makes of the session of an engine. -/
inductive Passage (turn : Turn G) (engine : Engine G) : Prop where
  /-- Nothing happens to the session. -/
  | stays (uncut : engine.cuts turn = false)
      (scheduler : (engine.take turn).2.scheduler = engine.scheduler)
      (session : (engine.take turn).2.session = engine.session)
      (opened : engine.opened turn = []) (reported : engine.reported turn = [])
      (heard : engine.heard turn = [])
  /-- A tick takes some voices from the session, if any, and leaves others. -/
  | ticks (tick : turn = .ask .tick)
      (session : (engine.take turn).2.session = engine.session.map (·.without engine.ending))
      (lasts : ∀ session, engine.session = some session → session.handles = [] ∨
        (session.without engine.ending).handles ≠ [])
      (heard : engine.heard turn = [])
  /-- A tick takes the last voices from the session. -/
  | finishes (tick : turn = .ask .tick) (last : Session)
      (playing : engine.session = some last) (some_left : last.handles ≠ [])
      (all_end : ∀ handle ∈ last.handles, handle ∈ engine.ending)
      (session : (engine.take turn).2.session = none)
      (heard : engine.heard turn = (engine.listener.map (· ++ last.track)).toList)
  /-- The session is cut short, and none takes its place. -/
  | stops (cuts : engine.cuts turn = true) (session : (engine.take turn).2.session = none)
      (opened : engine.opened turn = []) (reported : engine.reported turn = [])
      (heard : engine.heard turn = [])
  /-- The session is cut short, and another one takes its place. -/
  | begins (cuts : engine.cuts turn = true) (opening : Opening)
      (session : (engine.take turn).2.session = some opening.session)
      (new : ∀ voice ∈ opening.voices, engine.scheduler.nextHandle ≤ voice)
      (opened : engine.opened turn = [opening]) (reported : engine.reported turn = [])
      (heard : engine.heard turn = [])

variable {engine : Engine G}

/-- A tick reports voices of the session. -/
theorem Accounted.ending_subset (h : engine.Accounted) {session : Session}
    (hsession : engine.session = some session) : engine.ending ⊆ session.handles := by
  intro handle hmem
  have hpending := h.coherent.ended_subset_pending (now engine.graph) hmem
  exact (h.busy session hsession).mem_iff.2 hpending

/-- Without a session it reports none. -/
theorem Accounted.ending_eq_nil (h : engine.Accounted) (hsession : engine.session = none) :
    engine.ending = [] := by
  have hsubset := h.coherent.ended_subset_pending (now engine.graph)
  rw [h.idle hsession] at hsubset
  exact List.subset_nil.1 hsubset

theorem passage_tick (h : engine.Accounted) : Passage (.ask .tick) engine := by
  have hwithout : ∀ session : Session, engine.ending = [] →
      session.without engine.ending = session := by
    intro session hnone
    rw [hnone]
    exact Session.without_of_not_mem fun _ _ => List.not_mem_nil
  rcases tick_cases engine with ⟨hnone, htick⟩ | ⟨hsome, hsession, -⟩ |
    ⟨session, hsome, hsession, hremaining, htick⟩ | ⟨session, -, hsession, hremaining, htick⟩
  · refine .ticks rfl ?_ ?_ ?_
    · cases hsession : engine.session with
      | none => simp [take, serve, htick, hsession]
      | some session => simp [take, serve, htick, hsession, hwithout session hnone]
    · intro session hsession
      rw [hwithout session hnone]
      exact em (session.handles = [])
    · simp [heard, take, serve, htick, Answer.heard]
  · exact absurd (h.ending_eq_nil hsession) hsome
  · have hhandles : session.handles ≠ [] := by
      intro hnil
      have hsubset := h.ending_subset hsession
      rw [hnil] at hsubset
      exact hsome (List.subset_nil.1 hsubset)
    refine .finishes rfl session hsession hhandles ?_ ?_ ?_
    · intro handle hmem
      have hgone := List.filter_eq_nil_iff.1 hremaining handle hmem
      simpa using hgone
    · simp [take, serve, htick]
    · simp [heard, take, serve, htick, Answer.heard]
  · refine .ticks rfl ?_ ?_ ?_
    · rw [hsession]
      simp only [take, serve, htick]
      rfl
    · intro other hother
      rw [hsession] at hother
      cases hother
      exact Or.inr hremaining
    · simp [heard, take, serve, htick, Answer.heard]

/-- No session begins when a track is refused. -/
theorem opened_of_refused {name : String} {error : PlayError}
    (h : (engine.play name).1 = .error error) : engine.opened (.ask (.play name)) = [] := by
  unfold opened
  simp only
  split
  · rename_i hplay
    rw [hplay] at h
    cases h
  · rfl

/-- Otherwise the session of its parts begins. -/
theorem opened_of_played {name : String} {track : Track} {parts : List PlannedPart}
    {handles : List VoiceId} {stage : Stage G} (hplan : engine.plan name = .ok (track, parts))
    (hplay : engine.play name =
      (.ok (), { engine with toStage := stage, session := some ⟨name, handles⟩ })) :
    engine.opened (.ask (.play name)) = [⟨name, track.looping, parts, handles⟩] := by
  simp [opened, hplan, hplay]

theorem passage_play (name : String) : Passage (.ask (.play name)) engine := by
  rcases play_cases engine name with ⟨error, hplan, hplay⟩ |
    ⟨track, parts, handles, stage, hplan, hparts, hplay⟩ |
    ⟨track, parts, error, handles, stage, hplan, -, hplay⟩
  · refine .stays ?_ ?_ ?_ ?_ rfl ?_
    · simp [cuts, hplan, Except.toOption]
    · simp [take, serve, hplay]
    · simp [take, serve, hplay]
    · exact opened_of_refused (by rw [hplay])
    · simp [heard, take, serve, hplay, Answer.heard]
  · refine .begins ?_ ⟨name, track.looping, parts, handles⟩ ?_ ?_ ?_ rfl ?_
    · simp [cuts, hplan, Except.toOption]
    · simp [take, serve, hplay, Opening.session]
    · intro voice hmem
      have hnew := Stage.startParts_new track.looping parts voice (by rw [hparts]; exact hmem)
      have hstop := kept_stop (Stage.kept_nextHandle engine.scheduler.nextHandle)
        (Nat.le_refl _)
      exact Nat.le_trans hstop (hnew.resolve_left List.not_mem_nil)
    · exact opened_of_played hplan hplay
    · simp [heard, take, serve, hplay, Answer.heard]
  · refine .stops ?_ ?_ ?_ rfl ?_
    · simp [cuts, hplan, Except.toOption]
    · simp [take, serve, hplay]
    · exact opened_of_refused (by rw [hplay])
    · simp [heard, take, serve, hplay, Answer.heard]

/-- A session begins when all parts of a track have started. -/
theorem exists_of_mem_opened {turn : Turn G} {opening : Opening}
    (hmem : opening ∈ engine.opened turn) :
    ∃ name track parts handles stage, turn = .ask (.play name) ∧
      engine.plan name = .ok (track, parts) ∧
      engine.stop.toStage.startParts track.looping parts [] = ((.ok (), handles), stage) ∧
      engine.play name =
        (.ok (), { engine with toStage := stage, session := some ⟨name, handles⟩ }) ∧
      opening = ⟨name, track.looping, parts, handles⟩ := by
  cases turn with
  | host change => cases hmem
  | ask request =>
    cases request with
    | play name =>
      rcases play_cases engine name with ⟨error, hplan, hplay⟩ |
        ⟨track, parts, handles, stage, hplan, hparts, hplay⟩ |
        ⟨track, parts, error, handles, stage, hplan, -, hplay⟩
      · rw [opened_of_refused (by rw [hplay])] at hmem
        cases hmem
      · rw [opened_of_played hplan hplay] at hmem
        exact ⟨name, track, parts, handles, stage, rfl, hplan, hparts, hplay,
          List.mem_singleton.1 hmem⟩
      · rw [opened_of_refused (by rw [hplay])] at hmem
        cases hmem
    | _ => cases hmem

/-- Every turn is one of these. -/
theorem passage (h : engine.Accounted) (turn : Turn G) : Passage turn engine := by
  cases turn with
  | host change => exact .stays rfl rfl rfl rfl rfl rfl
  | ask request =>
    cases request with
    | play name => exact passage_play name
    | stop =>
      refine .stops rfl ?_ rfl rfl rfl
      rw [take, serve, stop_eq]
    | tick => exact passage_tick h
    | replaceBook book =>
      exact .stops rfl (session_replaceBook book engine) rfl rfl rfl
    | listen label => exact .stays rfl rfl rfl rfl rfl rfl

theorem nextHandle_le_take (turn : Turn G) (engine : Engine G) :
    engine.scheduler.nextHandle ≤ (engine.take turn).2.scheduler.nextHandle := by
  cases turn with
  | host change => exact Nat.le_refl _
  | ask request => exact kept_serve (Stage.kept_nextHandle _) request (Nat.le_refl _)

end Engine

end Chiptune
