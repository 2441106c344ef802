/-
  Runs of a scheduler that drives a recorder.

  Voices are started, cancelled and polled in any order while the clock is set at
  will.  Each step gives an outcome, and what the scheduler asks of the graph is found at
  the end of the record.
-/
import Chiptune.Playback.Engine
import Chiptune.Graph.Recorder
import Chiptune.Proofs.Coherent
import Chiptune.Proofs.Recording

set_option autoImplicit false

namespace Chiptune.Stage

open AudioGraph

/-- What is asked of a scheduler, or done to the clock it goes by. -/
inductive Step where
  | start (voice : Voice) (tones : List Tone) (looping announced : Bool)
  | cancel (handle : VoiceId)
  | cancelEvery
  | poll
  | setClock (now : Seconds)

/-- What a step gives back. -/
structure Outcome where
  /-- The handle of the voice that was started. -/
  started : Option VoiceId
  /-- The voices whose end is announced. -/
  announced : List VoiceId
  /-- The voices that a poll reports as ended. -/
  reported : List VoiceId
  deriving DecidableEq

/-- Takes one step. -/
def perform (step : Step) (stage : Stage Recorder) : Outcome × Stage Recorder :=
  match step with
  | .start voice tones looping announced =>
    let (start, scheduler) :=
      stage.scheduler.start (now stage.graph) voice tones looping announced
    (⟨start.result.toOption, start.announced, []⟩,
      ⟨scheduler, signalAll start.signals stage.graph⟩)
  | .cancel handle =>
    let ((_, signals), scheduler) := stage.scheduler.cancel (now stage.graph) handle
    (⟨none, [], []⟩, ⟨scheduler, signalAll signals stage.graph⟩)
  | .cancelEvery =>
    let (signals, scheduler) := stage.scheduler.cancelEvery (now stage.graph)
    (⟨none, [], []⟩, ⟨scheduler, signalAll signals stage.graph⟩)
  | .poll =>
    let (poll, scheduler) := stage.scheduler.poll (now stage.graph)
    (⟨none, poll.announced, poll.ended⟩, ⟨scheduler, signalAll poll.signals stage.graph⟩)
  | .setClock time => (⟨none, [], []⟩, { stage with graph := stage.graph.atTime time })

/-- Takes steps in order. -/
def after (steps : List Step) (stage : Stage Recorder) : Stage Recorder :=
  steps.foldl (fun stage step => (stage.perform step).2) stage

/-- The states a run goes through, the first and the last among them. -/
def states : List Step → Stage Recorder → List (Stage Recorder)
  | [], stage => [stage]
  | step :: steps, stage => stage :: states steps (stage.perform step).2

/-- What a step makes of the time. -/
def Step.clock : Step → Seconds → Seconds
  | setClock time, _ => time
  | _, time => time

/-- The time after a run, which only the clock decides. -/
def clockAfter (steps : List Step) (time : Seconds) : Seconds :=
  steps.foldl (fun time step => step.clock time) time

/-- The voice that a step starts. -/
def Step.voice? : Step → Option Voice
  | start voice _ _ _ => some voice
  | _ => none

variable {stage : Stage Recorder}

@[simp] theorem after_nil (stage : Stage Recorder) : stage.after [] = stage := rfl

@[simp] theorem after_cons (step : Step) (steps : List Step) (stage : Stage Recorder) :
    stage.after (step :: steps) = (stage.perform step).2.after steps := rfl

theorem self_mem_states (steps : List Step) (stage : Stage Recorder) :
    stage ∈ states steps stage := by
  cases steps with
  | nil => exact List.mem_singleton_self _
  | cons step steps => exact List.mem_cons_self

/-- What a run goes through in its first steps it goes through. -/
theorem states_subset_append (first second : List Step) (stage : Stage Recorder) :
    states first stage ⊆ states (first ++ second) stage := by
  induction first generalizing stage with
  | nil =>
    intro state hmem
    rw [List.mem_singleton.1 hmem]
    exact self_mem_states second stage
  | cons step first ih => exact List.cons_subset_cons _ (ih (stage.perform step).2)

/-- What a run goes through after its first steps it goes through. -/
theorem states_append_subset (first second : List Step) (stage : Stage Recorder) :
    states second (stage.after first) ⊆ states (first ++ second) stage := by
  induction first generalizing stage with
  | nil => exact List.Subset.refl _
  | cons step first ih =>
    exact List.Subset.trans (ih (stage.perform step).2) (List.subset_cons_self _ _)

/-- The clock is set by hand and by nothing else. -/
theorem now_perform (step : Step) (stage : Stage Recorder) :
    (stage.perform step).2.graph.now = step.clock stage.graph.now := by
  cases step with
  | setClock time => rfl
  | _ => exact Recorder.now_signalAll _ _

/-- Every step keeps the handles of the scheduler together. -/
theorem coherent_perform (step : Step) (h : stage.scheduler.Coherent) :
    (stage.perform step).2.scheduler.Coherent := by
  cases step with
  | start voice tones looping announced =>
    exact Scheduler.coherent_start h stage.graph.now voice tones looping announced
  | cancel handle => exact Scheduler.coherent_cancel h stage.graph.now handle
  | cancelEvery => exact Scheduler.coherent_cancelEvery h stage.graph.now
  | poll => exact Scheduler.coherent_poll h stage.graph.now
  | setClock time => exact h

theorem now_after (steps : List Step) (stage : Stage Recorder) :
    (stage.after steps).graph.now = clockAfter steps stage.graph.now := by
  induction steps generalizing stage with
  | nil => rfl
  | cons step steps ih =>
    rw [after_cons, ih, now_perform]
    rfl

/-- Starting a voice gives out the next handle. -/
theorem nextHandle_of_started {step : Step} {handle : VoiceId}
    (h : (stage.perform step).1.started = some handle) :
    handle = stage.scheduler.nextHandle ∧
      (stage.perform step).2.scheduler.nextHandle = handle + 1 := by
  cases step with
  | start voice tones looping announced =>
    simp only [perform] at h ⊢
    rcases Scheduler.start_cases (now stage.graph) voice tones looping announced
      stage.scheduler with ⟨-, -, hstart⟩ | ⟨-, -, hstart⟩ | ⟨-, -, hstart⟩
    · rw [hstart] at h
      cases h
    · rw [hstart] at h ⊢
      cases h
      exact ⟨rfl, rfl⟩
    · rw [hstart] at h ⊢
      cases h
      exact ⟨rfl, rfl⟩
  | _ => cases h

/-- Handles that were given out are never taken back. -/
theorem nextHandle_le_perform (step : Step) (stage : Stage Recorder) :
    stage.scheduler.nextHandle ≤ (stage.perform step).2.scheduler.nextHandle := by
  cases step with
  | start voice tones looping announced =>
    simp only [perform]
    rcases Scheduler.start_cases (now stage.graph) voice tones looping announced
      stage.scheduler with ⟨-, -, hstart⟩ | ⟨-, -, hstart⟩ | ⟨-, -, hstart⟩
    · exact Nat.le_of_eq (by rw [hstart])
    · rw [hstart]
      exact Nat.le_succ _
    · rw [hstart]
      exact Nat.le_succ _
  | cancel handle =>
    simp only [perform]
    rcases Scheduler.cancel_cases (now stage.graph) handle stage.scheduler with
      ⟨-, hcancel⟩ | ⟨task, -, hcancel⟩
    · exact Nat.le_of_eq (by rw [hcancel])
    · exact Nat.le_of_eq (by rw [hcancel])
  | cancelEvery => exact Nat.le_refl _
  | poll => exact Nat.le_refl _
  | setClock time => exact Nat.le_refl _

theorem nextHandle_le_after (steps : List Step) (stage : Stage Recorder) :
    stage.scheduler.nextHandle ≤ (stage.after steps).scheduler.nextHandle := by
  induction steps generalizing stage with
  | nil => exact Nat.le_refl _
  | cons step steps ih => exact Nat.le_trans (nextHandle_le_perform step stage) (ih _)

end Chiptune.Stage
