/-
  What holds of the scheduler between any two operations.

  Handles are given out once.  Every voice that is playing belongs to the current epoch
  and waits for exactly one timer; the timers that have no voice are stale and
  never come to life again.
-/
import Chiptune.Proofs.Firing
import Chiptune.Proofs.TimerQueue
import Mathlib.Data.List.Nodup

set_option autoImplicit false

namespace Chiptune.Scheduler

/-- The handles of voices, timers and early ends fit together. -/
structure Coherent (scheduler : Scheduler) : Prop where
  tasks_nodup : (scheduler.tasks.map (·.handle)).Nodup
  timers_nodup : (scheduler.timers.map (·.handle)).Nodup
  early_nodup : scheduler.endedEarly.Nodup
  /-- A voice that ended when it started has never had a timer. -/
  early_apart : ∀ handle ∈ scheduler.endedEarly, handle ∉ scheduler.timers.map (·.handle)
  timers_below : ∀ timer ∈ scheduler.timers, timer.handle < scheduler.nextHandle
  early_below : ∀ handle ∈ scheduler.endedEarly, handle < scheduler.nextHandle
  tasks_epoch : ∀ task ∈ scheduler.tasks, task.epoch = scheduler.epoch
  tasks_timer : ∀ task ∈ scheduler.tasks, ∃ timer ∈ scheduler.timers,
    timer.handle = task.handle ∧ timer.epoch = scheduler.epoch
  ordered : Timer.Ordered scheduler.timers

variable {scheduler : Scheduler} {handle : VoiceId} {task : Task} {timer : Timer}

namespace Coherent

theorem tasks_below (h : scheduler.Coherent) (hmem : task ∈ scheduler.tasks) :
    task.handle < scheduler.nextHandle := by
  obtain ⟨timer, htimer, hhandle, -⟩ := h.tasks_timer task hmem
  exact hhandle ▸ h.timers_below timer htimer

/-- A handle that is to be given out next stands nowhere. -/
theorem nextHandle_fresh (h : scheduler.Coherent) :
    scheduler.nextHandle ∉ scheduler.tasks.map (·.handle) ∧
      scheduler.nextHandle ∉ scheduler.timers.map (·.handle) ∧
      scheduler.nextHandle ∉ scheduler.endedEarly := by
  refine ⟨fun hmem => ?_, fun hmem => ?_, fun hmem => ?_⟩
  · obtain ⟨task, htask, heq⟩ := List.mem_map.1 hmem
    exact Nat.lt_irrefl _ (heq ▸ h.tasks_below htask)
  · obtain ⟨timer, htimer, heq⟩ := List.mem_map.1 hmem
    exact Nat.lt_irrefl _ (heq ▸ h.timers_below timer htimer)
  · exact Nat.lt_irrefl _ (h.early_below _ hmem)

/-- A handle has one timer at most. -/
theorem timer_unique (h : scheduler.Coherent) {other : Timer} (hmem : timer ∈ scheduler.timers)
    (hother : other ∈ scheduler.timers) (heq : timer.handle = other.handle) : timer = other :=
  List.inj_on_of_nodup_map h.timers_nodup hmem hother heq

/-- A timer is stale exactly when its voice is gone. -/
theorem liveTask?_eq (h : scheduler.Coherent) (hmem : timer ∈ scheduler.timers) :
    liveTask? scheduler.epoch scheduler.tasks timer = task? scheduler.tasks timer.handle := by
  unfold liveTask?
  cases hfound : task? scheduler.tasks timer.handle with
  | none => rfl
  | some task =>
    have htask := mem_of_task? hfound
    obtain ⟨other, hother, hhandle, hepoch⟩ := h.tasks_timer task htask
    have heq := h.timer_unique hmem hother (hhandle.trans (handle_of_task? hfound)).symm
    rw [Option.filter_some, heq, hepoch, h.tasks_epoch task htask]
    simp

end Coherent

/-! ## Each operation -/

theorem coherent_empty : Coherent .empty where
  tasks_nodup := List.nodup_nil
  timers_nodup := List.nodup_nil
  early_nodup := List.nodup_nil
  early_apart := by simp [empty]
  timers_below := by simp [empty]
  early_below := by simp [empty]
  tasks_epoch := by simp [empty]
  tasks_timer := by simp [empty]
  ordered := List.Pairwise.nil

/-- A voice is refused, or ends at once, or plays from now on. -/
theorem start_cases (now : Seconds) (voice : Voice) (tones : List Tone)
    (looping announced : Bool) (scheduler : Scheduler) :
    (looping = true ∧ isStuckLoop now (Tone.totalLength tones) = true ∧
      scheduler.start now voice tones looping announced =
        (⟨.error .stuckLoop, voice.discard, []⟩, scheduler)) ∨
    ((looping && isStuckLoop now (Tone.totalLength tones)) = false ∧ tones = [] ∧
      scheduler.start now voice tones looping announced =
        (⟨.ok scheduler.nextHandle, .start voice.oscillator now :: voice.release now,
            if announced then [scheduler.nextHandle] else []⟩,
          { scheduler with
            nextHandle := scheduler.nextHandle + 1
            endedEarly := scheduler.endedEarly ++ [scheduler.nextHandle] })) ∨
    ((looping && isStuckLoop now (Tone.totalLength tones)) = false ∧ tones ≠ [] ∧
      scheduler.start now voice tones looping announced =
        (⟨.ok scheduler.nextHandle,
            .start voice.oscillator now :: programme voice.oscillator tones now, []⟩,
          { scheduler with
            nextHandle := scheduler.nextHandle + 1
            tasks := scheduler.tasks ++ [⟨scheduler.nextHandle, voice, tones, looping,
              Tone.totalLength tones, scheduler.epoch, 1, announced⟩]
            timers := Timer.arm
              ⟨now + Tone.totalLength tones, scheduler.nextHandle, scheduler.epoch⟩
              scheduler.timers })) := by
  cases hstuck : looping && isStuckLoop now (Tone.totalLength tones) with
  | true =>
    obtain ⟨hlooping, hlength⟩ := Bool.and_eq_true_iff.1 hstuck
    exact Or.inl ⟨hlooping, hlength, by simp only [start, hstuck, if_true]⟩
  | false =>
    cases tones with
    | nil =>
      refine Or.inr (Or.inl ⟨rfl, rfl, ?_⟩)
      simp only [start, hstuck, Bool.false_eq_true, if_false, List.isEmpty_nil, if_true]
      rfl
    | cons tone tones =>
      refine Or.inr (Or.inr ⟨rfl, List.cons_ne_nil _ _, ?_⟩)
      simp only [start, hstuck, Bool.false_eq_true, if_false, List.isEmpty_cons]

theorem coherent_start (h : scheduler.Coherent) (now : Seconds) (voice : Voice)
    (tones : List Tone) (looping announced : Bool) :
    (scheduler.start now voice tones looping announced).2.Coherent := by
  obtain ⟨hnotask, hnotimer, hnotearly⟩ := h.nextHandle_fresh
  rcases start_cases now voice tones looping announced scheduler with
    ⟨-, -, hstart⟩ | ⟨-, -, hstart⟩ | ⟨-, -, hstart⟩
  · rw [hstart]
    exact h
  · rw [hstart]
    exact
      { h with
        early_nodup := h.early_nodup.append (List.nodup_singleton _)
          (List.disjoint_singleton.2 hnotearly)
        early_apart := by
          intro handle hmem
          rcases List.mem_append.1 hmem with hmem | hmem
          · exact h.early_apart handle hmem
          · exact List.mem_singleton.1 hmem ▸ hnotimer
        timers_below := fun timer hmem => Nat.lt_succ_of_lt (h.timers_below timer hmem)
        early_below := by
          intro handle hmem
          rcases List.mem_append.1 hmem with hmem | hmem
          · exact Nat.lt_succ_of_lt (h.early_below handle hmem)
          · exact List.mem_singleton.1 hmem ▸ Nat.lt_succ_self _ }
  · rw [hstart]
    have hperm := Timer.arm_perm
      ⟨now + Tone.totalLength tones, scheduler.nextHandle, scheduler.epoch⟩ scheduler.timers
    have hhandles := hperm.map (·.handle)
    refine
      { tasks_nodup := ?_, timers_nodup := ?_, early_nodup := h.early_nodup, early_apart := ?_
        timers_below := ?_, early_below := ?_, tasks_epoch := ?_, tasks_timer := ?_
        ordered := Timer.ordered_arm _ h.ordered }
    · rw [List.map_append]
      exact h.tasks_nodup.append (List.nodup_singleton _) (List.disjoint_singleton.2 hnotask)
    · exact hhandles.nodup_iff.2 (List.nodup_cons.2 ⟨hnotimer, h.timers_nodup⟩)
    · intro handle hmem hin
      rcases List.mem_cons.1 (hhandles.mem_iff.1 hin) with rfl | hin
      · exact hnotearly hmem
      · exact h.early_apart handle hmem hin
    · intro timer hmem
      rcases List.mem_cons.1 (hperm.mem_iff.1 hmem) with rfl | hmem
      · exact Nat.lt_succ_self _
      · exact Nat.lt_succ_of_lt (h.timers_below timer hmem)
    · exact fun handle hmem => Nat.lt_succ_of_lt (h.early_below handle hmem)
    · intro task hmem
      rcases List.mem_append.1 hmem with hmem | hmem
      · exact h.tasks_epoch task hmem
      · rw [List.mem_singleton.1 hmem]
    · intro task hmem
      rcases List.mem_append.1 hmem with hmem | hmem
      · obtain ⟨timer, htimer, heqs⟩ := h.tasks_timer task hmem
        exact ⟨timer, hperm.mem_iff.2 (List.mem_cons_of_mem _ htimer), heqs⟩
      · rw [List.mem_singleton.1 hmem]
        exact ⟨_, hperm.mem_iff.2 List.mem_cons_self, rfl, rfl⟩

/-- A voice that plays is released, and nothing happens otherwise. -/
theorem cancel_cases (now : Seconds) (handle : VoiceId) (scheduler : Scheduler) :
    (task? scheduler.tasks handle = none ∧
      scheduler.cancel now handle = ((false, []), scheduler)) ∨
    (∃ task, task? scheduler.tasks handle = some task ∧
      scheduler.cancel now handle =
        ((true, task.voice.release now),
          { scheduler with tasks := withoutTask scheduler.tasks handle })) := by
  unfold cancel
  cases hfound : task? scheduler.tasks handle with
  | none => exact Or.inl ⟨rfl, rfl⟩
  | some task => exact Or.inr ⟨task, rfl, rfl⟩

theorem coherent_cancel (h : scheduler.Coherent) (now : Seconds) (handle : VoiceId) :
    (scheduler.cancel now handle).2.Coherent := by
  rcases cancel_cases now handle scheduler with ⟨-, hcancel⟩ | ⟨task, -, hcancel⟩
  · rw [hcancel]
    exact h
  · rw [hcancel]
    exact
      { h with
        tasks_nodup := h.tasks_nodup.sublist (List.filter_sublist.map _)
        tasks_epoch := fun task hmem => h.tasks_epoch task (List.mem_filter.1 hmem).1
        tasks_timer := fun task hmem => h.tasks_timer task (List.mem_filter.1 hmem).1 }

theorem coherent_cancelEvery (h : scheduler.Coherent) (now : Seconds) :
    (scheduler.cancelEvery now).2.Coherent :=
  { h with
    tasks_nodup := List.nodup_nil
    early_nodup := List.nodup_nil
    early_apart := by simp [cancelEvery]
    early_below := by simp [cancelEvery]
    tasks_epoch := by simp [cancelEvery]
    tasks_timer := by simp [cancelEvery] }

theorem coherent_cancelEach (now : Seconds) (handles : List VoiceId) :
    ∀ {scheduler : Scheduler}, scheduler.Coherent →
      (scheduler.cancelEach now handles).2.Coherent := by
  induction handles with
  | nil => exact fun h => h
  | cons handle handles ih => exact fun h => ih (coherent_cancel h now handle)

/-- The timers that fire at a poll. -/
def dueTimers (now : Seconds) (scheduler : Scheduler) : List Timer :=
  scheduler.timers.takeWhile fun timer => decide (timer.due ≤ now)

/-- The timers that stay behind them. -/
def laterTimers (now : Seconds) (scheduler : Scheduler) : List Timer :=
  scheduler.timers.dropWhile fun timer => decide (timer.due ≤ now)

/-- What the timers bring about that fire at a poll. -/
def firing (now : Seconds) (scheduler : Scheduler) : Firing :=
  fireAll now scheduler.epoch (scheduler.dueTimers now) scheduler.tasks

theorem dueTimers_append_laterTimers (now : Seconds) (scheduler : Scheduler) :
    scheduler.dueTimers now ++ scheduler.laterTimers now = scheduler.timers :=
  List.takeWhile_append_dropWhile

/-- A poll fires the timers in front and arms those of the voices that begin once more. -/
theorem poll_eq (now : Seconds) (scheduler : Scheduler) :
    scheduler.poll now =
      (⟨scheduler.endedEarly ++ (scheduler.firing now).ended, (scheduler.firing now).signals,
          (scheduler.firing now).announced⟩,
        { scheduler with
          tasks := (scheduler.firing now).tasks
          timers := (scheduler.firing now).rearmed.foldl
            (fun timers timer => timer.arm timers) (scheduler.laterTimers now)
          endedEarly := [] }) := rfl

/-- After a poll the timers are those that were not due and those armed again. -/
theorem timers_poll_perm (now : Seconds) (scheduler : Scheduler) :
    (scheduler.poll now).2.timers.Perm
      ((scheduler.firing now).rearmed ++ scheduler.laterTimers now) :=
  Timer.foldl_arm_perm _ _

/-- A poll takes no handle up that had no timer. -/
theorem handles_poll_sublist (now : Seconds) (scheduler : Scheduler) :
    (((scheduler.firing now).rearmed ++ scheduler.laterTimers now).map (·.handle)).Sublist
      (scheduler.timers.map (·.handle)) := by
  obtain ⟨-, -, hrearmed, -⟩ :=
    handles_of_fireAll now scheduler.epoch (scheduler.dueTimers now) scheduler.tasks
  rw [List.map_append]
  conv_rhs => rw [← dueTimers_append_laterTimers now scheduler, List.map_append]
  exact hrearmed.append (List.Sublist.refl _)

namespace Coherent

theorem dueTimers_nodup (h : scheduler.Coherent) (now : Seconds) :
    ((scheduler.dueTimers now).map (·.handle)).Nodup :=
  h.timers_nodup.sublist ((List.takeWhile_sublist _).map _)

theorem tasks_firing_nodup (h : scheduler.Coherent) (now : Seconds) :
    ((scheduler.firing now).tasks.map (·.handle)).Nodup := by
  rw [firing, handles_fireAll]
  exact h.tasks_nodup.sublist List.filter_sublist

end Coherent

/-- A voice that goes on after a poll waits for its timer, the old one or a new one. -/
theorem tasks_timer_firing (h : scheduler.Coherent) (now : Seconds)
    (hmem : task ∈ (scheduler.firing now).tasks) :
    ∃ timer ∈ (scheduler.firing now).rearmed ++ scheduler.laterTimers now,
      timer.handle = task.handle ∧ timer.epoch = scheduler.epoch := by
  obtain ⟨before, hbefore, heq⟩ := mem_fireAll_tasks hmem
  obtain ⟨timer, htimer, hhandle, hepoch⟩ := h.tasks_timer before hbefore
  have hhandle : timer.handle = task.handle := by rw [hhandle, heq]
  rw [← dueTimers_append_laterTimers now scheduler] at htimer
  rcases List.mem_append.1 htimer with hdue | hlater
  · -- a voice whose timer fires and that goes on is one that loops
    have hfound : task? (scheduler.firing now).tasks timer.handle = some task :=
      hhandle ▸ task?_eq_some_of_mem (h.tasks_firing_nodup now) hmem
    rw [firing, task?_fireAll_of_mem now scheduler.epoch scheduler.tasks
      (h.dueTimers_nodup now) hdue, task?_fire_self] at hfound
    rcases fire_cases now scheduler.epoch timer scheduler.tasks with
      ⟨hlive, -⟩ | ⟨again, -, -, -, hfire⟩ | ⟨ending, hlive, -, hlooping, -⟩
    · rw [h.liveTask?_eq ((List.takeWhile_subset _) hdue), task?_eq_none_iff, hhandle] at hlive
      exact absurd (List.mem_map.2 ⟨before, hbefore, by rw [heq]⟩) hlive
    · refine ⟨⟨now + again.total, timer.handle, scheduler.epoch⟩,
        List.mem_append_left _ ?_, hhandle, rfl⟩
      rw [firing, rearmed_fireAll now scheduler.epoch scheduler.tasks (h.dueTimers_nodup now)]
      exact List.mem_flatMap.2 ⟨timer, hdue, by rw [hfire]; exact List.mem_singleton_self _⟩
    · rw [hlive] at hfound
      simp [hlooping] at hfound
  · exact ⟨timer, List.mem_append_right _ hlater, hhandle, hepoch⟩

theorem coherent_poll (h : scheduler.Coherent) (now : Seconds) :
    (scheduler.poll now).2.Coherent := by
  have hperm := timers_poll_perm now scheduler
  have hsub := handles_poll_sublist now scheduler
  have hhandles : ∀ timer ∈ (scheduler.poll now).2.timers,
      timer.handle ∈ scheduler.timers.map (·.handle) := by
    intro timer hmem
    exact hsub.subset (List.mem_map_of_mem (hperm.mem_iff.1 hmem))
  refine
    { tasks_nodup := h.tasks_firing_nodup now, timers_nodup := ?_
      early_nodup := List.nodup_nil, early_apart := ?_
      timers_below := ?_, early_below := ?_, tasks_epoch := ?_, tasks_timer := ?_
      ordered := Timer.ordered_foldl_arm _ (h.ordered.sublist (List.dropWhile_sublist _)) }
  · exact (hperm.map _).nodup_iff.2 (h.timers_nodup.sublist hsub)
  · simp [poll_eq]
  · intro timer hmem
    obtain ⟨before, hbefore, heq⟩ := List.mem_map.1 (hhandles timer hmem)
    exact heq ▸ h.timers_below before hbefore
  · simp [poll_eq]
  · intro task hmem
    obtain ⟨before, hbefore, heq⟩ := mem_fireAll_tasks hmem
    rw [heq]
    exact h.tasks_epoch before hbefore
  · intro task hmem
    obtain ⟨timer, htimer, heqs⟩ := tasks_timer_firing h now hmem
    exact ⟨timer, hperm.mem_iff.2 htimer, heqs⟩

/-- While no deadline is undefined, the timers that fire at a poll are those that are due. -/
theorem Coherent.mem_dueTimers_iff (h : scheduler.Coherent)
    (hnumeric : Timer.Numeric scheduler.timers) (now : Seconds)
    (hmem : timer ∈ scheduler.timers) : timer ∈ scheduler.dueTimers now ↔ timer.due ≤ now := by
  rw [dueTimers, (Timer.takeWhile_due now h.ordered hnumeric).1, List.mem_filter]
  simp [hmem]

/-- A voice whose timer fires at a poll is left as this timer leaves it. -/
theorem Coherent.task?_poll_of_due (h : scheduler.Coherent) (now : Seconds)
    (hdue : timer ∈ scheduler.dueTimers now) :
    task? (scheduler.poll now).2.tasks timer.handle =
      match liveTask? scheduler.epoch scheduler.tasks timer with
      | none => task? scheduler.tasks timer.handle
      | some task =>
        if task.looping then some { task with passes := task.passes + 1 } else none := by
  rw [poll_eq, firing, task?_fireAll_of_mem now scheduler.epoch scheduler.tasks
    (h.dueTimers_nodup now) hdue]
  exact task?_fire_self now scheduler.epoch timer scheduler.tasks

/-- A voice whose timer does not fire at a poll is left as it is. -/
theorem Coherent.task?_poll_of_later (h : scheduler.Coherent) (now : Seconds)
    (hmem : timer ∈ scheduler.timers) (hlater : timer ∉ scheduler.dueTimers now) :
    task? (scheduler.poll now).2.tasks timer.handle = task? scheduler.tasks timer.handle := by
  refine task?_fireAll_of_not_mem now scheduler.epoch scheduler.tasks fun hdue => hlater ?_
  obtain ⟨other, hother, heq⟩ := List.mem_map.1 hdue
  rwa [h.timer_unique hmem (List.takeWhile_subset _ hother) heq.symm]

end Chiptune.Scheduler
