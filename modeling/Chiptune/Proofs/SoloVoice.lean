/-
  Voices do not disturb one another.

  All voices share one scheduler: one list of timers, stale ones among them, one epoch
  and one count of handles.  Still each voice does what it would do on a machine of its
  own, and of the other voices nothing is heard on its nodes.
-/
import Chiptune.Proofs.SoloFollows

set_option autoImplicit false

namespace Chiptune.Solo

open AudioGraph

variable {solo : Solo} {phase : Solo.Phase} {stage : Stage Recorder}

/-! ## One step -/

/-- What a step shows of a voice, from the signals it gives. -/
theorem view_eq {voice : Voice} {handle : VoiceId} {step : Stage.Step}
    {outcome : Stage.Outcome} {scheduler : Scheduler} {signals : List Signal}
    (h : stage.perform step = (outcome, ⟨scheduler, signalAll signals stage.graph⟩)) :
    stage.view voice handle step =
      ⟨voice.callsOn signals, outcome.announced.count handle, outcome.reported.count handle,
        scheduler.passes handle⟩ := by
  unfold Stage.view
  rw [h]
  simp only [Recorder.calls_signalAll, List.drop_left]
  rfl

/-- Unless a step starts the voice, it shows what the machine shows, and the machine
follows. -/
theorem Follows.perform {step : Stage.Step} (h : solo.Follows phase stage.scheduler)
    (hnumeric : Timer.Numeric stage.scheduler.timers)
    (hapart : ∀ other, step.voice? = some other → solo.voice.Apart other)
    (hne : (stage.perform step).1.started ≠ some solo.handle) :
    stage.view solo.voice solo.handle step = (solo.perform stage.graph.now step phase).1 ∧
      solo.Follows (solo.perform stage.graph.now step phase).2
        (stage.perform step).2.scheduler := by
  cases step with
  | start other tones looping announced =>
    rw [view_eq rfl]
    exact h.start_of_ne stage.graph.now (hapart other rfl) tones looping announced hne
  | cancel handle =>
    rw [view_eq rfl]
    by_cases hown : handle = solo.handle
    · subst hown
      rw [Solo.perform, if_pos rfl]
      exact h.cancel_self stage.graph.now
    · rw [Solo.perform, if_neg hown]
      exact h.cancel_of_ne stage.graph.now hown
  | cancelEvery =>
    rw [view_eq rfl]
    exact h.cancelEvery stage.graph.now
  | poll =>
    rw [view_eq rfl]
    exact h.poll hnumeric stage.graph.now
  | setClock time =>
    obtain ⟨hview, hnext⟩ := h.matches_quiet (Voice.callsOn_nil _) List.not_mem_nil List.not_mem_nil
    refine ⟨Eq.trans ?_ hview, hnext⟩
    unfold Stage.view Stage.perform
    simp only [Recorder.atTime, List.drop_length]
    rfl

/-- The step that starts the voice shows what the machine shows that begins. -/
theorem Follows.perform_starting (h : solo.Follows .silent stage.scheduler)
    (hstarted : (stage.perform solo.starting).1.started = some solo.handle) :
    stage.view solo.voice solo.handle solo.starting = (solo.begin stage.graph.now).1 ∧
      solo.Follows (solo.begin stage.graph.now).2
        (stage.perform solo.starting).2.scheduler := by
  rw [view_eq rfl]
  exact h.start_self stage.graph.now hstarted

/-! ## Runs -/

/-- The handle of the voice is given out before a run or not until its end. -/
def GivenOutside (handle : VoiceId) (steps : List Stage.Step) (stage : Stage Recorder) : Prop :=
  handle < stage.scheduler.nextHandle ∨ (stage.after steps).scheduler.nextHandle ≤ handle

theorem GivenOutside.cons {handle : VoiceId} {step : Stage.Step} {steps : List Stage.Step}
    (h : GivenOutside handle (step :: steps) stage) :
    (stage.perform step).1.started ≠ some handle ∧
      GivenOutside handle steps (stage.perform step).2 := by
  have hstep := Stage.nextHandle_le_perform step stage
  have hrun := Stage.nextHandle_le_after steps (stage.perform step).2
  refine ⟨fun hstarted => ?_, ?_⟩
  · obtain ⟨hnow, hthen⟩ := Stage.nextHandle_of_started hstarted
    rcases h with h | h
    · rw [hnow] at h
      exact Nat.lt_irrefl _ h
    · rw [hthen] at hrun
      exact Nat.lt_irrefl _ (Nat.lt_of_lt_of_le (Nat.lt_of_succ_le hrun) h)
  · exact h.imp (fun h => Nat.lt_of_lt_of_le h hstep) id

/-- A run in which the voice is not started shows of it what the machine shows. -/
theorem Follows.views_eq {steps : List Stage.Step} (h : solo.Follows phase stage.scheduler)
    (hnumeric : ∀ state ∈ Stage.states steps stage, Timer.Numeric state.scheduler.timers)
    (hapart : ∀ other ∈ steps.filterMap Stage.Step.voice?, solo.voice.Apart other)
    (hgiven : GivenOutside solo.handle steps stage) :
    Stage.views solo.voice solo.handle steps stage = solo.views steps stage.graph.now phase ∧
      solo.Follows (solo.after steps stage.graph.now phase) (stage.after steps).scheduler := by
  induction steps generalizing stage phase with
  | nil => exact ⟨rfl, h⟩
  | cons step steps ih =>
    obtain ⟨hne, hgiven⟩ := hgiven.cons
    have hstep : ∀ other, step.voice? = some other → solo.voice.Apart other := by
      intro other heq
      exact hapart other (List.mem_filterMap.2 ⟨step, List.mem_cons_self, heq⟩)
    obtain ⟨hview, hnext⟩ :=
      h.perform (hnumeric stage (Stage.self_mem_states _ _)) hstep hne
    obtain ⟨hviews, hafter⟩ := ih hnext
      (fun state hmem => hnumeric state (List.mem_cons_of_mem _ hmem))
      (fun other hmem => hapart other <| by
        obtain ⟨later, hlater, heq⟩ := List.mem_filterMap.1 hmem
        exact List.mem_filterMap.2 ⟨later, List.mem_cons_of_mem _ hlater, heq⟩)
      hgiven
    rw [Stage.now_perform] at hviews hafter
    refine ⟨?_, hafter⟩
    rw [Stage.views, hview, hviews]
    rfl

/-- A voice that is over stays so, and nothing more is seen of it. -/
theorem perform_silent (solo : Solo) (now : Seconds) (step : Stage.Step) :
    solo.perform now step .silent = (View.nothing, .silent) := by
  cases step with
  | cancel handle => exact ite_self _
  | _ => rfl

theorem views_silent (solo : Solo) (steps : List Stage.Step) (now : Seconds) :
    solo.views steps now .silent = steps.map fun _ => View.nothing := by
  induction steps generalizing now with
  | nil => rfl
  | cons step steps ih =>
    rw [views, perform_silent]
    exact congrArg (View.nothing :: ·) (ih _)

theorem after_silent (solo : Solo) (steps : List Stage.Step) (now : Seconds) :
    solo.after steps now .silent = .silent := by
  induction steps generalizing now with
  | nil => rfl
  | cons step steps ih => rw [after, perform_silent, ih]

theorem views_append (voice : Voice) (handle : VoiceId) (first second : List Stage.Step)
    (stage : Stage Recorder) :
    Stage.views voice handle (first ++ second) stage =
      Stage.views voice handle first stage ++
        Stage.views voice handle second (stage.after first) := by
  induction first generalizing stage with
  | nil => rfl
  | cons step first ih =>
    rw [List.cons_append, Stage.views, ih]
    rfl

/-- Before anything has started, the machine of a voice to come is idle. -/
theorem follows_empty (solo : Solo) (recorder : Recorder) :
    solo.Follows .silent (⟨.empty, recorder⟩ : Stage Recorder).scheduler :=
  ⟨Scheduler.coherent_empty, fun _ hmem => absurd hmem List.not_mem_nil, rfl,
    List.not_mem_nil⟩

/-- **Every voice plays as if it were alone.**  In a run of a scheduler whose voices own
different nodes and whose deadlines are numbers, take any voice that is started.  Before
its start nothing is seen of it; from then on the calls on its nodes, the announcements of
its end, the polls that report it and its passes are, step by step, those of the
machine that has begun at the time of the start and plays this voice only. -/
theorem views_eq_solo (solo : Solo) (before later : List Stage.Step) (recorder : Recorder)
    (hapart : ((before ++ solo.starting :: later).filterMap Stage.Step.voice?).Pairwise
      Voice.Apart)
    (hnumeric : ∀ stage ∈ Stage.states (before ++ solo.starting :: later) ⟨.empty, recorder⟩,
      Timer.Numeric stage.scheduler.timers)
    (hstarted : ((Stage.after before ⟨.empty, recorder⟩).perform solo.starting).1.started =
      some solo.handle) :
    Stage.views solo.voice solo.handle (before ++ solo.starting :: later) ⟨.empty, recorder⟩ =
      before.map (fun _ => View.nothing) ++
        (solo.begin (Stage.clockAfter before recorder.now)).1 ::
          solo.views later (Stage.clockAfter before recorder.now)
            (solo.begin (Stage.clockAfter before recorder.now)).2 := by
  obtain ⟨hhandle, hnext⟩ := Stage.nextHandle_of_started hstarted
  -- the voices of all other steps are apart from this one
  have hvoice : solo.starting.voice? = some solo.voice := rfl
  rw [List.filterMap_append, List.filterMap_cons_some hvoice, List.pairwise_append,
    List.pairwise_cons] at hapart
  obtain ⟨-, ⟨hlater, -⟩, hbefore⟩ := hapart
  have hbefore : ∀ other ∈ before.filterMap Stage.Step.voice?, solo.voice.Apart other := by
    intro other hmem
    exact (hbefore other hmem solo.voice List.mem_cons_self).symm
  -- until the voice starts its machine is idle
  obtain ⟨hviews, hidle⟩ := (follows_empty solo recorder).views_eq
    (fun state hmem => hnumeric state (Stage.states_subset_append _ _ _ hmem))
    hbefore (Or.inr (Nat.le_of_eq hhandle.symm))
  rw [views_silent] at hviews
  rw [after_silent] at hidle
  -- then it begins, and follows the rest of the run
  have hclock : (Stage.after before ⟨.empty, recorder⟩).graph.now =
      Stage.clockAfter before recorder.now := Stage.now_after before _
  obtain ⟨hview, hbegun⟩ := hidle.perform_starting hstarted
  obtain ⟨hrest, -⟩ := hbegun.views_eq
    (fun state hmem => hnumeric state
      (Stage.states_append_subset before _ _ (List.mem_cons_of_mem _ hmem)))
    hlater (Or.inl (hnext ▸ Nat.lt_succ_self _))
  rw [Stage.now_perform, hclock] at hrest
  rw [views_append, hviews, Stage.views, hview, hrest, hclock]
  rfl

/-- A voice of two seconds that is announced, started behind a voice of two seconds. -/
def secondVoice : Solo :=
  ⟨1, ⟨⟨2, 3, [2, 3]⟩⟩, [⟨440, .ofFloat 1⟩, ⟨0, .ofFloat 1⟩], false, true⟩

/-- The first voice is cancelled and leaves its timer behind. -/
def firstCancelled : List Stage.Step :=
  [.start ⟨⟨1, 1, [1]⟩⟩ [⟨220, .ofFloat 2⟩] false true, .setClock (.ofFloat 1), .cancel 0]

/-- A loop of one second starts, and a late poll finds all three timers due. -/
def loopAndLatePoll : List Stage.Step :=
  [.start ⟨⟨4, 4, [4]⟩⟩ [⟨880, .ofFloat 1⟩] true false, .poll, .setClock (.ofFloat 4), .poll,
    .cancelEvery]

/-- Between a stale timer and a loop the second voice ends once, at the late poll. -/
theorem views_secondVoice :
    (Stage.views secondVoice.voice secondVoice.handle
        (firstCancelled ++ secondVoice.starting :: loopAndLatePoll)
        ⟨.empty, .fresh⟩).map (fun view => (view.announced, view.reported, view.passes)) =
      [(0, 0, none), (0, 0, none), (0, 0, none), (0, 0, some 1), (0, 0, some 1),
        (0, 0, some 1), (0, 0, some 1), (1, 1, none), (0, 0, none)] := by
  rw [views_eq_solo secondVoice firstCancelled loopAndLatePoll .fresh (by decide +kernel)
    (by decide +kernel) (by decide +kernel)]
  decide +kernel

end Chiptune.Solo
