/-
  A machine that plays one voice and knows of no other.

  The machine has a clock and remembers how far its voice has come.  The other voices of a
  scheduler do nothing to a voice, as long as they have nodes of their own.
-/
import Chiptune.Proofs.SchedulerRun
import Chiptune.Proofs.VoiceNodes

set_option autoImplicit false

namespace Chiptune

/-! ## What is seen of a voice -/

/-- What a step of a run shows of one voice. -/
structure View where
  /-- The calls on its nodes. -/
  calls : List Call
  /-- How often its end is announced. -/
  announced : Nat
  /-- How often it is reported as ended. -/
  reported : Nat
  /-- How often its tones have been programmed, as long as it plays. -/
  passes : Option Nat
  deriving DecidableEq

/-- Nothing is seen of a voice that is not playing. -/
def View.nothing : View := ⟨[], 0, 0, none⟩

namespace Stage

/-- What a step shows of the voice of a handle. -/
def view (voice : Voice) (handle : VoiceId) (step : Step) (stage : Stage Recorder) : View :=
  let (outcome, next) := stage.perform step
  { calls := (next.graph.calls.drop stage.graph.calls.length).filter voice.concerns
    announced := outcome.announced.count handle
    reported := outcome.reported.count handle
    passes := next.scheduler.passes handle }

/-- What the steps of a run show of the voice of a handle. -/
def views (voice : Voice) (handle : VoiceId) : List Step → Stage Recorder → List View
  | [], _ => []
  | step :: steps, stage =>
    view voice handle step stage :: views voice handle steps (stage.perform step).2

end Stage

/-! ## A machine for one voice -/

/-- A voice on its own. -/
structure Solo where
  handle : VoiceId
  voice : Voice
  tones : List Tone
  looping : Bool
  /-- Whether its end is announced. -/
  announced : Bool

namespace Solo

/-- How far a voice has come. -/
inductive Phase where
  /-- Its tones have been programmed `passes` times and end when they are due. -/
  | playing (due : Seconds) (passes : Nat)
  /-- It ended when it started and has not been reported. -/
  | unreported
  | silent
  deriving DecidableEq

/-- How often the tones have been programmed, as long as the voice plays. -/
def Phase.passes : Phase → Option Nat
  | playing _ passes => some passes
  | _ => none

/-- The length of the tones together. -/
def total (solo : Solo) : Seconds := Tone.totalLength solo.tones

/-- The signals that program the tones from a time on. -/
def pass (solo : Solo) (now : Seconds) : List Signal :=
  programme solo.voice.oscillator solo.tones now

/-- Shows what was given to the graph, with a voice that has come so far. -/
def shows (signals : List Signal) (announced reported : Nat) (phase : Phase) : View × Phase :=
  (⟨signals.map .signal, announced, reported, phase.passes⟩, phase)

/-- The voice starts; without tones it ends at once. -/
def begin (solo : Solo) (now : Seconds) : View × Phase :=
  let begun := .start solo.voice.oscillator now :: solo.pass now
  if solo.tones.isEmpty then
    shows (begun ++ solo.voice.release now) solo.announced.toNat 0 .unreported
  else shows begun 0 0 (.playing (now + solo.total) 1)

/-- The voice is polled. -/
def poll (solo : Solo) (now : Seconds) : Phase → View × Phase
  | .playing due passes =>
    if due ≤ now then
      if solo.looping then shows (solo.pass now) 0 0 (.playing (now + solo.total) (passes + 1))
      else shows (solo.voice.release now) solo.announced.toNat 1 .silent
    else shows [] 0 0 (.playing due passes)
  | .unreported => shows [] 0 1 .silent
  | .silent => shows [] 0 0 .silent

/-- The voice is cancelled, alone; its early end is still to be reported. -/
def cancel (solo : Solo) (now : Seconds) : Phase → View × Phase
  | .playing _ _ => shows (solo.voice.release now) 0 0 .silent
  | phase => shows [] 0 0 phase

/-- The voice is cancelled with all others. -/
def cancelEvery (solo : Solo) (now : Seconds) : Phase → View × Phase
  | .playing _ _ => shows (solo.voice.release now) 0 0 .silent
  | _ => shows [] 0 0 .silent

/-- What the machine makes of a step; steps for other voices do not concern it. -/
def perform (solo : Solo) (now : Seconds) (step : Stage.Step) (phase : Phase) : View × Phase :=
  match step with
  | .poll => solo.poll now phase
  | .cancel handle =>
    if handle = solo.handle then solo.cancel now phase else shows [] 0 0 phase
  | .cancelEvery => solo.cancelEvery now phase
  | .start _ _ _ _ | .setClock _ => shows [] 0 0 phase

/-- What the machine shows in a run. -/
def views (solo : Solo) : List Stage.Step → (now : Seconds) → Phase → List View
  | [], _, _ => []
  | step :: steps, now, phase =>
    let (view, phase) := solo.perform now step phase
    view :: solo.views steps (step.clock now) phase

/-- How far the voice has come after a run. -/
def after (solo : Solo) : List Stage.Step → (now : Seconds) → Phase → Phase
  | [], _, phase => phase
  | step :: steps, now, phase =>
    solo.after steps (step.clock now) (solo.perform now step phase).2

/-- The step that starts the voice. -/
def starting (solo : Solo) : Stage.Step :=
  .start solo.voice solo.tones solo.looping solo.announced

/-- The task of the voice. -/
def task (solo : Solo) (epoch passes : Nat) : Task :=
  ⟨solo.handle, solo.voice, solo.tones, solo.looping, solo.total, epoch, passes, solo.announced⟩

end Solo

/-! ## Steps of other voices -/

namespace Scheduler

/-- All voices but that of a handle have nodes of their own. -/
def OthersApart (voice : Voice) (handle : VoiceId) (scheduler : Scheduler) : Prop :=
  ∀ task ∈ scheduler.tasks, task.handle ≠ handle → voice.Apart task.voice

/-- A voice of a handle neither plays nor is to be reported. -/
def Idle (handle : VoiceId) (scheduler : Scheduler) : Prop :=
  task? scheduler.tasks handle = none ∧ handle ∉ scheduler.endedEarly

variable {voice : Voice} {handle : VoiceId} {scheduler : Scheduler}

/-- The timer of another voice, or of none, does nothing to a voice. -/
theorem fire_of_other {timer : Timer} (hothers : OthersApart voice handle scheduler)
    (h : ∀ task, task? scheduler.tasks timer.handle = some task → task.handle ≠ handle)
    (now : Seconds) :
    voice.callsOn (fire now scheduler.epoch timer scheduler.tasks).signals = [] ∧
      handle ∉ (fire now scheduler.epoch timer scheduler.tasks).announced ∧
      handle ∉ (fire now scheduler.epoch timer scheduler.tasks).ended := by
  rcases fire_cases now scheduler.epoch timer scheduler.tasks with
    ⟨-, hfire⟩ | ⟨task, hlive, hhandle, -, hfire⟩ | ⟨task, hlive, hhandle, -, hfire⟩
  · rw [hfire]
    exact ⟨rfl, List.not_mem_nil, List.not_mem_nil⟩
  · have hfound := (task?_of_liveTask? hlive).1
    have hapart := hothers task (mem_of_task? hfound) (h task hfound)
    rw [hfire]
    exact ⟨Voice.callsOn_eq_nil hapart fun given => Voice.node_of_mem_programme,
      List.not_mem_nil, List.not_mem_nil⟩
  · have hfound := (task?_of_liveTask? hlive).1
    have hne := h task hfound
    have hapart := hothers task (mem_of_task? hfound) hne
    rw [hfire]
    rw [hhandle] at hne
    refine ⟨Voice.callsOn_eq_nil hapart fun given => Voice.node_of_mem_release, ?_, ?_⟩
    · split
      · simpa using hne.symm
      · exact List.not_mem_nil
    · simpa using hne.symm

/-- When only one item of a list without duplicates yields anything, it yields all. -/
theorem flatMap_eq_of_unique {α β : Type} {items : List α} {item : α} {f : α → List β}
    (hnodup : items.Nodup) (hmem : item ∈ items)
    (hnone : ∀ other ∈ items, other ≠ item → f other = []) : items.flatMap f = f item := by
  obtain ⟨before, later, rfl⟩ := List.append_of_mem hmem
  obtain ⟨hbefore, hlater⟩ := List.nodup_middle.1 hnodup |> List.nodup_cons.1
  have hnil : ∀ other ∈ before ++ later, f other = [] := by
    intro other hother
    refine hnone other ?_ fun heq => hbefore (heq ▸ hother)
    rcases List.mem_append.1 hother with hother | hother
    · exact List.mem_append_left _ hother
    · exact List.mem_append_right _ (List.mem_cons_of_mem _ hother)
  rw [List.flatMap_append, List.flatMap_cons,
    List.flatMap_eq_nil_iff.2 fun other h => hnil other (List.mem_append_left _ h),
    List.flatMap_eq_nil_iff.2 fun other h => hnil other (List.mem_append_right _ h),
    List.nil_append, List.append_nil]

/-- A handle is counted where alone it may stand. -/
theorem count_flatMap_of_unique {α : Type} {items : List α} {item : α}
    {f : α → List VoiceId} (hnodup : items.Nodup) (hmem : item ∈ items)
    (hnone : ∀ other ∈ items, other ≠ item → handle ∉ f other) :
    (items.flatMap f).count handle = (f item).count handle := by
  rw [List.count_eq_countP, List.count_eq_countP, List.countP_eq_length_filter,
    List.countP_eq_length_filter, List.filter_flatMap]
  refine congrArg List.length (flatMap_eq_of_unique hnodup hmem fun other hother hne => ?_)
  refine List.filter_eq_nil_iff.2 fun found hfound heq => ?_
  exact hnone other hother hne (beq_iff_eq.1 heq ▸ hfound)

/-- A poll does nothing to a voice none of whose timers fires. -/
theorem firing_of_others (hcoherent : scheduler.Coherent)
    (hothers : OthersApart voice handle scheduler) (now : Seconds)
    (h : ∀ timer ∈ scheduler.dueTimers now, ∀ task,
      task? scheduler.tasks timer.handle = some task → task.handle ≠ handle) :
    voice.callsOn (scheduler.firing now).signals = [] ∧
      handle ∉ (scheduler.firing now).announced ∧ handle ∉ (scheduler.firing now).ended := by
  have hnodup := hcoherent.dueTimers_nodup now
  rw [firing, signals_fireAll _ _ _ hnodup, announced_fireAll _ _ _ hnodup,
    ended_fireAll _ _ _ hnodup, Voice.callsOn_flatMap]
  refine ⟨List.flatMap_eq_nil_iff.2 fun timer hdue => ?_, fun hmem => ?_, fun hmem => ?_⟩
  · exact (fire_of_other hothers (h timer hdue) now).1
  · obtain ⟨timer, hdue, hmem⟩ := List.mem_flatMap.1 hmem
    exact (fire_of_other hothers (h timer hdue) now).2.1 hmem
  · obtain ⟨timer, hdue, hmem⟩ := List.mem_flatMap.1 hmem
    exact (fire_of_other hothers (h timer hdue) now).2.2 hmem

/-- A poll does to a voice what its timer does. -/
theorem firing_of_own {timer : Timer} (hcoherent : scheduler.Coherent)
    (hothers : OthersApart voice timer.handle scheduler) (now : Seconds)
    (hdue : timer ∈ scheduler.dueTimers now) :
    voice.callsOn (scheduler.firing now).signals =
        voice.callsOn (fire now scheduler.epoch timer scheduler.tasks).signals ∧
      (scheduler.firing now).announced.count timer.handle =
        (fire now scheduler.epoch timer scheduler.tasks).announced.count timer.handle ∧
      (scheduler.firing now).ended.count timer.handle =
        (fire now scheduler.epoch timer scheduler.tasks).ended.count timer.handle := by
  have hnodup := hcoherent.dueTimers_nodup now
  have hother : ∀ other ∈ scheduler.dueTimers now, other ≠ timer → ∀ task,
      task? scheduler.tasks other.handle = some task → task.handle ≠ timer.handle := by
    intro other hmem hne task hfound heq
    rw [handle_of_task? hfound] at heq
    exact hne (hcoherent.timer_unique (List.takeWhile_subset _ hmem)
      (List.takeWhile_subset _ hdue) heq)
  rw [firing, signals_fireAll _ _ _ hnodup, announced_fireAll _ _ _ hnodup,
    ended_fireAll _ _ _ hnodup, Voice.callsOn_flatMap]
  refine ⟨?_, ?_, ?_⟩
  · exact flatMap_eq_of_unique (List.Nodup.of_map _ hnodup) hdue fun other hmem hne =>
      (fire_of_other hothers (hother other hmem hne) now).1
  · exact count_flatMap_of_unique (List.Nodup.of_map _ hnodup) hdue fun other hmem hne =>
      (fire_of_other hothers (hother other hmem hne) now).2.1
  · exact count_flatMap_of_unique (List.Nodup.of_map _ hnodup) hdue fun other hmem hne =>
      (fire_of_other hothers (hother other hmem hne) now).2.2

/-- The voices that play on after a poll own the nodes they owned before. -/
theorem othersApart_poll (hothers : OthersApart voice handle scheduler) (now : Seconds) :
    OthersApart voice handle (scheduler.poll now).2 := by
  intro task hmem hne
  obtain ⟨before, hbefore, heq⟩ := mem_fireAll_tasks hmem
  rw [heq] at hne ⊢
  exact hothers before hbefore hne

end Scheduler

end Chiptune
