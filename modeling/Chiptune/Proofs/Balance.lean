/-
  The account of a session.

  What a session holds is what plays and what is still to be reported.  So its voices are
  released one by one, and none is left to be released in the order in which a table
  happens to be kept.  A tick takes as many voices from a session as it says have ended.
-/
import Chiptune.Proofs.Finishing
import Chiptune.Proofs.Passages
import Mathlib.Algebra.Ring.Nat

set_option autoImplicit false

namespace Chiptune

open AudioGraph

/-! ## Tables in any order -/

namespace Scheduler

variable {scheduler : Scheduler}

/-- An order in which the tasks of a table are gone through. -/
structure Shuffle where
  arrange : List Task → List Task
  perm : ∀ tasks, (arrange tasks).Perm tasks

/-- Releases every voice in some order, and makes every timer stale. -/
def cancelEveryIn (shuffle : Shuffle) (now : Seconds) (scheduler : Scheduler) :
    List Signal × Scheduler :=
  { scheduler with tasks := shuffle.arrange scheduler.tasks }.cancelEvery now

/-- The order does not matter for a table without tasks. -/
theorem cancelEveryIn_eq (shuffle : Shuffle) (now : Seconds) (h : scheduler.tasks = []) :
    scheduler.cancelEveryIn shuffle now = scheduler.cancelEvery now := by
  have hnone : shuffle.arrange [] = [] := (shuffle.perm []).eq_nil
  rw [cancelEveryIn, cancelEvery, cancelEvery, h, hnone]

theorem tasks_cancel (now : Seconds) (handle : VoiceId) (scheduler : Scheduler) :
    (scheduler.cancel now handle).2.tasks = withoutTask scheduler.tasks handle := by
  rcases cancel_cases now handle scheduler with ⟨hnone, hcancel⟩ | ⟨task, -, hcancel⟩
  · rw [hcancel]
    refine (List.filter_eq_self.2 ?_).symm
    intro task hmem
    have hne : task.handle ≠ handle := by
      rintro rfl
      exact task?_eq_none_iff.1 hnone (List.mem_map_of_mem hmem)
    simpa using hne
  · rw [hcancel]

/-- Voices that are released one by one are gone. -/
theorem tasks_cancelEach (now : Seconds) (handles : List VoiceId) (scheduler : Scheduler) :
    (scheduler.cancelEach now handles).2.tasks =
      scheduler.tasks.filter fun task => !handles.contains task.handle := by
  induction handles generalizing scheduler with
  | nil => simp [cancelEach]
  | cons handle handles ih =>
    have hstep : (scheduler.cancelEach now (handle :: handles)).2 =
        ((scheduler.cancel now handle).2.cancelEach now handles).2 := rfl
    rw [hstep, ih, tasks_cancel, withoutTask, List.filter_filter]
    refine List.filter_congr ?_
    intro task _
    by_cases heq : task.handle = handle
    · simp [heq]
    · simp [heq]

/-- When the voices of all tasks are released, no task is left. -/
theorem tasks_cancelEach_eq_nil {handles : List VoiceId} (now : Seconds)
    (h : handles.Perm scheduler.pending) : (scheduler.cancelEach now handles).2.tasks = [] := by
  rw [tasks_cancelEach, List.filter_eq_nil_iff]
  intro task hmem
  have hpending : task.handle ∈ scheduler.pending :=
    List.mem_append_left _ (List.mem_map_of_mem hmem)
  simpa using h.mem_iff.2 hpending

/-- Of the voices that are pending those play that have a task. -/
theorem Coherent.countP_plays (h : scheduler.Coherent) :
    scheduler.pending.countP scheduler.plays = scheduler.playingCount := by
  have htasks : (scheduler.tasks.map (·.handle)).countP scheduler.plays =
      (scheduler.tasks.map (·.handle)).length := by
    refine List.countP_eq_length.2 ?_
    intro handle hmem
    obtain ⟨task, htask, rfl⟩ := List.mem_map.1 hmem
    rw [plays, task?_eq_some_of_mem h.tasks_nodup htask]
    rfl
  have hearly : scheduler.endedEarly.countP scheduler.plays = 0 := by
    refine List.countP_eq_zero.2 ?_
    intro handle hmem
    have hnone : task? scheduler.tasks handle = none :=
      task?_eq_none_iff.2 fun htask => h.tasks_disjoint_early handle htask hmem
    rw [plays, hnone]
    decide
  rw [pending, List.countP_append, htasks, hearly, List.length_map]
  rfl

end Scheduler

variable {G : Type} [AudioGraph G]

/-- Releases some voices in order, then all others in an order of the table. -/
def Stage.retireIn (shuffle : Scheduler.Shuffle) (handles : List VoiceId) (stage : Stage G) :
    Stage G :=
  let time := now stage.graph
  let (signals, scheduler) := stage.scheduler.cancelEach time handles
  let (others, scheduler) := scheduler.cancelEveryIn shuffle time
  ⟨scheduler, signalAll (signals ++ others) stage.graph⟩

/-- When the handles of all voices are given, no voice is left to be released in the order
of the table. -/
theorem Stage.retireIn_eq (shuffle : Scheduler.Shuffle) {handles : List VoiceId}
    {stage : Stage G} (h : handles.Perm stage.scheduler.pending) :
    stage.retireIn shuffle handles = stage.retire handles := by
  have hnone := Scheduler.tasks_cancelEach_eq_nil (now stage.graph) h
  have heq := Scheduler.cancelEveryIn_eq shuffle (now stage.graph) hnone
  simp only [retireIn, retire, heq]

namespace Engine

variable {engine : Engine G} {turn : Turn G} {name : String} {track : Track}

/-- Ends what is playing, with a table in some order. -/
def stopIn (shuffle : Scheduler.Shuffle) (engine : Engine G) : Engine G :=
  match engine.session with
  | none => engine
  | some session =>
    { engine with toStage := engine.toStage.retireIn shuffle session.handles, session := none }

/-- Plays a track, with a table in some order. -/
def playIn (shuffle : Scheduler.Shuffle) (name : String) (engine : Engine G) :
    Except PlayError Unit × Engine G :=
  match engine.plan name with
  | .error error => (.error (.tune error), engine)
  | .ok (track, parts) =>
    let engine := engine.stopIn shuffle
    match engine.toStage.startParts track.looping parts [] with
    | ((.ok (), handles), stage) =>
      (.ok (), { engine with toStage := stage, session := some ⟨name, handles⟩ })
    | ((.error error, handles), stage) =>
      (.error error, { engine with toStage := stage.retireIn shuffle handles })

/-- Takes one turn, with a table in some order. -/
def takeIn (shuffle : Scheduler.Shuffle) (turn : Turn G) (engine : Engine G) :
    Answer × Engine G :=
  match turn with
  | .ask (.play name) =>
    let (outcome, engine) := engine.playIn shuffle name
    (.played outcome, engine)
  | .ask .stop => (.done, engine.stopIn shuffle)
  | .ask (.replaceBook book) => (.done, { engine.stopIn shuffle with book })
  | _ => engine.take turn

/-- Takes one turn after the other, each with a table in an order of its own. -/
def afterTurnsIn (turns : List (Scheduler.Shuffle × Turn G)) (engine : Engine G) : Engine G :=
  turns.foldl (fun engine turn => (engine.takeIn turn.1 turn.2).2) engine

theorem Accounted.stopIn_eq (h : engine.Accounted) (shuffle : Scheduler.Shuffle) :
    engine.stopIn shuffle = engine.stop := by
  unfold stopIn stop
  cases hsession : engine.session with
  | none => rfl
  | some session =>
    have heq := Stage.retireIn_eq shuffle (h.busy session hsession)
    simp only [heq]

/-- The voices that were started when a part fails are those that are pending. -/
theorem Accounted.started_perm (h : engine.Accounted) (looping : Bool)
    (parts : List PlannedPart) :
    (engine.stop.toStage.startParts looping parts []).1.2.Perm
      (engine.stop.toStage.startParts looping parts []).2.scheduler.pending :=
  (Stage.startParts_accounted looping parts (accounted_stop h).coherent
    (List.Perm.of_eq h.pending_stop.symm)).2

theorem Accounted.playIn_eq (h : engine.Accounted) (shuffle : Scheduler.Shuffle)
    (name : String) : engine.playIn shuffle name = engine.play name := by
  unfold playIn play
  cases engine.plan name with
  | error error => rfl
  | ok planned =>
    obtain ⟨track, parts⟩ := planned
    have hstarted := h.started_perm track.looping parts
    simp only [h.stopIn_eq]
    cases hparts : engine.stop.toStage.startParts track.looping parts [] with
    | mk outcome stage =>
    obtain ⟨result, handles⟩ := outcome
    rw [hparts] at hstarted
    cases result with
    | ok done => rfl
    | error error => simp only [Stage.retireIn_eq shuffle hstarted]

/-- No turn depends on the order of a table. -/
theorem Accounted.takeIn_eq (h : engine.Accounted) (shuffle : Scheduler.Shuffle)
    (turn : Turn G) : engine.takeIn shuffle turn = engine.take turn := by
  cases turn with
  | host change => rfl
  | ask request =>
    cases request with
    | play name => rw [takeIn, h.playIn_eq, take, serve]
    | stop => rw [takeIn, h.stopIn_eq, take, serve]
    | tick => rfl
    | replaceBook book => rw [takeIn, h.stopIn_eq, take, serve, replaceBook]
    | listen label => rfl

/-- Nor does a run. -/
theorem Accounted.afterTurnsIn_eq (turns : List (Scheduler.Shuffle × Turn G))
    (h : engine.Accounted) :
    engine.afterTurnsIn turns = engine.afterTurns (turns.map (·.2)) := by
  induction turns generalizing engine with
  | nil => rfl
  | cons turn turns ih =>
    have hstep : engine.afterTurnsIn (turn :: turns) =
        (engine.takeIn turn.1 turn.2).2.afterTurnsIn turns := rfl
    rw [hstep, h.takeIn_eq, List.map_cons, afterTurns_cons]
    exact ih (accounted_take turn.2 h)

/-! ## What a session holds -/

omit [AudioGraph G] in
/-- The voices that the session holds; without a session there are none. -/
def held (engine : Engine G) : List VoiceId :=
  match engine.session with
  | none => []
  | some session => session.handles

omit [AudioGraph G] in
theorem Accounted.held_perm (h : engine.Accounted) : engine.held.Perm engine.scheduler.pending := by
  unfold held
  cases hsession : engine.session with
  | none => rw [h.idle hsession]
  | some session => exact h.busy session hsession

omit [AudioGraph G] in
/-- As many voices are left to a session as play. -/
theorem Accounted.voicesLeft_eq (h : engine.Accounted) :
    engine.voicesLeft = engine.scheduler.playingCount := by
  have hleft : engine.voicesLeft = engine.held.countP engine.scheduler.plays := by
    unfold voicesLeft held
    cases engine.session with
    | none => rfl
    | some session => rfl
  rw [hleft, h.held_perm.countP_eq, h.coherent.countP_plays]

/-- A tick says how many voices it reports. -/
theorem ended_tick (engine : Engine G) : engine.tick.1.ended = engine.ending.length := by
  rcases tick_cases engine with ⟨hnone, htick⟩ | ⟨-, -, htick⟩ | ⟨_, -, -, -, htick⟩ |
    ⟨_, -, -, -, htick⟩
  · rw [htick, hnone]
    rfl
  · rw [htick]
  · rw [htick]
  · rw [htick]

/-- The session keeps what is not reported. -/
theorem held_tick (engine : Engine G) :
    engine.tick.2.held = engine.held.filter fun voice => !engine.ending.contains voice := by
  rcases tick_cases engine with ⟨hnone, htick⟩ | ⟨-, hsession, htick⟩ |
    ⟨session, -, hsession, hremaining, htick⟩ | ⟨session, -, hsession, -, htick⟩
  · rw [htick, hnone]
    simp [held]
  · rw [htick]
    simp [held, hsession]
  · rw [htick]
    simp only [held, hsession]
    exact hremaining.symm
  · rw [htick]
    simp only [held, hsession]
    rfl

/-- What a session holds is reported by a tick or held on. -/
theorem Accounted.held_perm_tick (h : engine.Accounted) :
    engine.held.Perm (engine.ending ++ engine.tick.2.held) := by
  have hpolled := h.coherent.pending_perm_poll (now engine.graph)
  rw [Scheduler.pending_poll h.coherent] at hpolled
  rw [held_tick]
  exact (h.held_perm.trans hpolled).trans ((h.held_perm.symm.filter _).append_left _)

theorem Accounted.balance_tick (h : engine.Accounted) :
    engine.tick.1.ended + engine.tick.2.held.length = engine.held.length := by
  rw [h.held_perm_tick.length_eq, List.length_append, ended_tick]

/-- How many voices ended, according to an answer. -/
def Answer.ended : Answer → Nat
  | ticked tick => tick.ended
  | _ => 0

/-- What a turn says about that. -/
def ended (turn : Turn G) (engine : Engine G) : List Nat := [(engine.take turn).1.ended]

/-- As long as the session is not cut short, a turn takes as many voices from it as it says
have ended. -/
theorem Accounted.balance_take (h : engine.Accounted) (huncut : engine.cuts turn = false) :
    (engine.take turn).1.ended + (engine.take turn).2.held.length = engine.held.length := by
  cases turn with
  | host change => exact Nat.zero_add _
  | ask request =>
    cases request with
    | play name =>
      rcases play_cases engine name with ⟨error, -, hplay⟩ | ⟨_, _, _, _, hplan, -, -⟩ |
        ⟨_, _, _, _, _, hplan, -, -⟩
      · rw [take, serve, hplay]
        exact Nat.zero_add _
      · simp [cuts, hplan, Except.toOption] at huncut
      · simp [cuts, hplan, Except.toOption] at huncut
    | stop => cases huncut
    | tick => exact h.balance_tick
    | replaceBook book => cases huncut
    | listen label => exact Nat.zero_add _

/-- In no turn of a run is a session cut short. -/
def Uncut (turns : List (Turn G)) (engine : Engine G) : Prop :=
  ∀ before turn later, turns = before ++ turn :: later →
    (engine.afterTurns before).cuts turn = false

/-- What has been reported of a session and what it still holds make up what it held. -/
theorem Accounted.balance (turns : List (Turn G)) (h : engine.Accounted)
    (huncut : engine.Uncut turns) :
    (engine.gather ended turns).sum + (engine.afterTurns turns).held.length =
      engine.held.length := by
  induction turns generalizing engine with
  | nil => exact Nat.zero_add _
  | cons turn turns ih =>
    have hrest := ih (accounted_take turn h) fun before next later heq =>
      huncut (turn :: before) next later (by rw [heq, List.cons_append])
    have hstep := h.balance_take (huncut [] turn turns rfl)
    rw [gather_cons, List.sum_append, ended, List.sum_singleton, Nat.add_assoc, afterTurns_cons,
      hrest, hstep]

/-- A session begins with one voice for each part. -/
theorem Accounted.held_play (h : engine.Accounted) (htrack : engine.book.track name = .ok track)
    (hplay : (engine.play name).1 = .ok ()) :
    (engine.play name).2.held.length = track.parts.length := by
  rcases play_cases engine name with ⟨error, -, heq⟩ |
    ⟨found, parts, handles, stage, hplan, hparts, heq⟩ | ⟨found, parts, error, _, _, -, -, heq⟩
  · rw [heq] at hplay
    cases hplay
  · obtain ⟨hfound, hlength⟩ := Songbook.length_planTrack (planTrack_of_plan hplan)
    rw [htrack] at hfound
    cases hfound
    obtain ⟨hstarted, -⟩ := Stage.startParts_ok (h.loops_stop track.looping) hparts
    rw [heq, ← hlength, ← Nat.zero_add parts.length]
    exact hstarted
  · rw [heq] at hplay
    cases hplay

/-! ## The account -/

/-- The session, the tasks and the early ends of an engine agree, and they go on to agree. -/
structure Balanced (engine : Engine G) : Prop where
  idle : engine.session = none →
    engine.scheduler.tasks = [] ∧ engine.scheduler.endedEarly = []
  distinct : engine.held.Nodup
  /-- The session holds the voices that play and those whose early end is to be reported. -/
  union : engine.held.Perm
    (engine.scheduler.tasks.map (·.handle) ++ engine.scheduler.endedEarly)
  disjoint : ∀ voice ∈ engine.scheduler.tasks.map (·.handle),
    voice ∉ engine.scheduler.endedEarly
  count : engine.voicesLeft = engine.scheduler.playingCount
  /-- When a session is ended, no voice is left once its own have been released. -/
  swept_stop : ∀ session, engine.session = some session →
    (engine.scheduler.cancelEach (now engine.graph) session.handles).2.tasks = []
  /-- When a part fails, no voice is left once those that were started have been released. -/
  swept_play : ∀ name track parts error handles stage, engine.plan name = .ok (track, parts) →
    engine.stop.toStage.startParts track.looping parts [] = ((.error error, handles), stage) →
    (stage.scheduler.cancelEach (now stage.graph) handles).2.tasks = []
  /-- So the order of a table does not show. -/
  any_order : ∀ turns : List (Scheduler.Shuffle × Turn G),
    engine.afterTurnsIn turns = engine.afterTurns (turns.map (·.2))
  /-- A tick says how many voices it takes from the session. -/
  ticks : engine.tick.2.held.Sublist engine.held ∧
    engine.tick.1.ended + engine.tick.2.held.length = engine.held.length
  /-- As long as a track of some parts is not cut short, the voices that have been reported
  and those that the session holds are as many as the parts. -/
  parts : ∀ name track during, engine.book.track name = .ok track →
    (engine.play name).1 = .ok () → (engine.play name).2.Uncut during →
    ((engine.play name).2.gather ended during).sum +
      ((engine.play name).2.afterTurns during).held.length = track.parts.length

/-- **The account of a session is always settled.**  Take any run of an engine over any
graph, whatever it refuses.  The session holds the voices that play and those that ended
early, and nothing else plays; so no voice is ever released in the order of a table; and
every tick answers by how many voices the session is shorter. -/
theorem balanced_afterTurns (book : Songbook) (graph : G) (turns : List (Turn G)) :
    ((ofBook book graph).afterTurns turns).Balanced := by
  have h := accounted_afterTurns turns (accounted_ofBook book graph)
  generalize (ofBook book graph).afterTurns turns = engine at h
  refine
    { idle := ?_, distinct := ?_, union := h.held_perm
      disjoint := h.coherent.tasks_disjoint_early, count := h.voicesLeft_eq, swept_stop := ?_
      swept_play := ?_, any_order := ?_, ticks := ⟨?_, h.balance_tick⟩, parts := ?_ }
  · intro hsession
    obtain ⟨htasks, hearly⟩ := List.append_eq_nil_iff.1 (h.idle hsession)
    exact ⟨List.map_eq_nil_iff.1 htasks, hearly⟩
  · exact h.held_perm.nodup_iff.2 h.coherent.pending_nodup
  · intro session hsession
    exact Scheduler.tasks_cancelEach_eq_nil _ (h.busy session hsession)
  · intro name track parts error handles stage _ hparts
    have hstarted := h.started_perm track.looping parts
    rw [hparts] at hstarted
    exact Scheduler.tasks_cancelEach_eq_nil _ hstarted
  · intro turns
    exact h.afterTurnsIn_eq turns
  · rw [held_tick]
    exact List.filter_sublist
  · intro name track during htrack hplay huncut
    rw [(accounted_play h name).balance during huncut, h.held_play htrack hplay]

/-- A track of two parts has begun, one of them silent. -/
def blipRun : Engine Recorder := ((fresh briefBook []).play "blip").2

/-- The silent part is reported by the first tick, and the other part is held then. -/
theorem balanced_blip :
    (fresh briefBook []).book.track "blip" = .ok ⟨60, false, ["ABC", "ABCX14"]⟩ ∧
      blipRun.held = [0, 1] ∧ blipRun.scheduler.endedEarly = [0] ∧
      blipRun.gather ended [.ask .tick] = [1] ∧ (blipRun.afterTurns [.ask .tick]).held = [1] ∧
      (blipRun.gather ended [.ask .tick]).sum +
        (blipRun.afterTurns [.ask .tick]).held.length = 2 := by
  have htrack : (fresh briefBook []).book.track "blip" =
      .ok ⟨60, false, ["ABC", "ABCX14"]⟩ := by
    decide +kernel
  have hplay : ((fresh briefBook []).play "blip").1 = .ok () := by decide +kernel
  have huncut : blipRun.Uncut [.ask .tick] := by
    intro before turn later heq
    rcases List.cons_eq_append_iff.1 heq with ⟨rfl, hcons⟩ | ⟨_, -, hnil⟩
    · cases hcons
      rfl
    · simp at hnil
  have hbalanced := balanced_afterTurns briefBook (Recorder.withoutEffects []) []
  refine ⟨htrack, by decide +kernel, by decide +kernel, by decide +kernel, by decide +kernel, ?_⟩
  exact hbalanced.parts "blip" _ [.ask .tick] htrack hplay huncut

end Engine

end Chiptune
