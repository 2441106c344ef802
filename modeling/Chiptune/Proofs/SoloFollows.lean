/-
  The machine for one voice follows the voice in the scheduler.

  It does so through every operation, whatever other voices there are: what the operation
  shows of the voice is what the machine shows, and both come equally far.
-/
import Chiptune.Proofs.SoloMachine

set_option autoImplicit false

namespace Chiptune

/-! ## How far the machine has come -/

namespace Solo

open Scheduler

/-- Where a voice that has come so far stands in the scheduler. -/
def Standing (solo : Solo) (scheduler : Scheduler) : Phase → Prop
  | .playing due passes =>
    task? scheduler.tasks solo.handle = some (solo.task scheduler.epoch passes) ∧
      ⟨due, solo.handle, scheduler.epoch⟩ ∈ scheduler.timers
  | .unreported =>
    task? scheduler.tasks solo.handle = none ∧ solo.handle ∈ scheduler.endedEarly
  | .silent => Idle solo.handle scheduler

/-- The machine has come as far as the voice in the scheduler. -/
structure Follows (solo : Solo) (phase : Phase) (scheduler : Scheduler) : Prop where
  coherent : scheduler.Coherent
  others : OthersApart solo.voice solo.handle scheduler
  standing : solo.Standing scheduler phase

variable {solo : Solo} {phase : Phase} {scheduler : Scheduler}

/-- A voice stands where it stood when nothing that concerns it has changed. -/
theorem Standing.congr {next : Scheduler} (h : solo.Standing scheduler phase)
    (hepoch : next.epoch = scheduler.epoch)
    (htask : task? next.tasks solo.handle = task? scheduler.tasks solo.handle)
    (htimers : ∀ timer ∈ scheduler.timers, timer.handle = solo.handle → timer ∈ next.timers)
    (hearly : solo.handle ∈ next.endedEarly ↔ solo.handle ∈ scheduler.endedEarly) :
    solo.Standing next phase := by
  cases phase with
  | playing due passes =>
    obtain ⟨hfound, htimer⟩ := h
    unfold Standing
    rw [hepoch, htask]
    exact ⟨hfound, htimers _ htimer rfl⟩
  | unreported => exact ⟨htask.trans h.1, hearly.2 h.2⟩
  | silent => exact ⟨htask.trans h.1, mt hearly.1 h.2⟩

/-- The machine counts the passes that the scheduler counts. -/
theorem Follows.passes_eq (h : solo.Follows phase scheduler) :
    scheduler.passes solo.handle = phase.passes := by
  have hstanding := h.standing
  unfold Scheduler.passes
  cases phase with
  | playing due passes => rw [hstanding.1]; rfl
  | unreported => rw [hstanding.1]; rfl
  | silent => rw [hstanding.1]; rfl

/-- An operation shows what the machine shows, and the machine follows it. -/
def Matches (solo : Solo) (signals : List Signal) (announced reported : List VoiceId)
    (scheduler : Scheduler) (answer : View × Phase) : Prop :=
  (⟨solo.voice.callsOn signals, announced.count solo.handle, reported.count solo.handle,
      scheduler.passes solo.handle⟩ : View) = answer.1 ∧
    solo.Follows answer.2 scheduler

theorem Follows.matches_shows {signals own : List Signal} {announced reported : List VoiceId}
    {ends reports : Nat} (h : solo.Follows phase scheduler)
    (hcalls : solo.voice.callsOn signals = own.map .signal)
    (hends : announced.count solo.handle = ends)
    (hreports : reported.count solo.handle = reports) :
    solo.Matches signals announced reported scheduler (shows own ends reports phase) := by
  refine ⟨?_, h⟩
  rw [hcalls, hends, hreports, h.passes_eq]
  rfl

/-- A step that leaves the voice alone shows nothing new of it. -/
theorem Follows.matches_quiet {signals : List Signal} {announced reported : List VoiceId}
    (h : solo.Follows phase scheduler) (hcalls : solo.voice.callsOn signals = [])
    (hends : solo.handle ∉ announced) (hreports : solo.handle ∉ reported) :
    solo.Matches signals announced reported scheduler (shows [] 0 0 phase) :=
  h.matches_shows hcalls (List.count_eq_zero.2 hends) (List.count_eq_zero.2 hreports)

/-! ## Polls -/

/-- A voice that is not playing has no timer that fires. -/
theorem no_timer_of_none (hnone : task? scheduler.tasks solo.handle = none) (now : Seconds) :
    ∀ timer ∈ scheduler.dueTimers now, ∀ task,
      task? scheduler.tasks timer.handle = some task → task.handle ≠ solo.handle := by
  intro timer _ task hfound heq
  rw [handle_of_task? hfound] at heq
  rw [heq, hnone] at hfound
  cases hfound

/-- A voice that is not playing does not play after a poll. -/
theorem task?_poll_of_none (hnone : task? scheduler.tasks solo.handle = none) (now : Seconds) :
    task? (scheduler.poll now).2.tasks solo.handle = none := by
  rw [task?_eq_none_iff] at hnone ⊢
  rw [poll_eq, firing, handles_fireAll]
  exact fun hmem => hnone (List.mem_filter.1 hmem).1

/-- Nothing is left of a voice that is not playing when it is polled. -/
theorem Follows.silent_poll (h : solo.Follows phase scheduler)
    (hnone : task? scheduler.tasks solo.handle = none) (now : Seconds) :
    solo.Follows .silent (scheduler.poll now).2 :=
  ⟨coherent_poll h.coherent now, othersApart_poll h.others now, task?_poll_of_none hnone now,
    List.not_mem_nil⟩

variable {due : Seconds} {passes : Nat}

/-- A voice that plays waits for its timer. -/
theorem Follows.live (h : solo.Follows (.playing due passes) scheduler) :
    liveTask? scheduler.epoch scheduler.tasks ⟨due, solo.handle, scheduler.epoch⟩ =
      some (solo.task scheduler.epoch passes) :=
  (h.coherent.liveTask?_eq h.standing.2).trans h.standing.1

/-- A voice that plays has no early end to be reported. -/
theorem Follows.not_early (h : solo.Follows (.playing due passes) scheduler) :
    solo.handle ∉ scheduler.endedEarly := fun hmem =>
  h.coherent.early_apart _ hmem (List.mem_map_of_mem h.standing.2)

/-- A loop whose timer fires begins again from the time of the poll. -/
theorem Follows.poll_again (h : solo.Follows (.playing due passes) scheduler)
    (hlooping : solo.looping = true) (now : Seconds)
    (hdue : ⟨due, solo.handle, scheduler.epoch⟩ ∈ scheduler.dueTimers now) :
    solo.Matches (scheduler.poll now).1.signals (scheduler.poll now).1.announced
      (scheduler.poll now).1.ended (scheduler.poll now).2
      (shows (solo.pass now) 0 0 (.playing (now + solo.total) (passes + 1))) := by
  obtain ⟨hcalls, hends, hreports⟩ := firing_of_own h.coherent h.others now hdue
  have hfire := fire_of_looping now h.live hlooping
  rw [hfire] at hcalls hends hreports
  have hnext : solo.Follows (.playing (now + solo.total) (passes + 1))
      (scheduler.poll now).2 := by
    refine ⟨coherent_poll h.coherent now, othersApart_poll h.others now, ?_, ?_⟩
    · have htask := h.coherent.task?_poll_of_due now hdue
      rw [h.live] at htask
      exact htask.trans (if_pos hlooping)
    · refine (timers_poll_perm now scheduler).mem_iff.2 (List.mem_append_left _ ?_)
      rw [firing, rearmed_fireAll _ _ _ (h.coherent.dueTimers_nodup now)]
      exact List.mem_flatMap.2 ⟨_, hdue, by rw [hfire]; exact List.mem_singleton_self _⟩
  refine hnext.matches_shows ?_ hends ?_
  · exact hcalls.trans (Voice.callsOn_eq_map fun given => Voice.node_of_mem_programme)
  · rw [poll_eq, List.count_append, List.count_eq_zero.2 h.not_early, hreports]
    rfl

/-- Any other voice whose timer fires ends, and is announced and reported. -/
theorem Follows.poll_end (h : solo.Follows (.playing due passes) scheduler)
    (hlooping : solo.looping = false) (now : Seconds)
    (hdue : ⟨due, solo.handle, scheduler.epoch⟩ ∈ scheduler.dueTimers now) :
    solo.Matches (scheduler.poll now).1.signals (scheduler.poll now).1.announced
      (scheduler.poll now).1.ended (scheduler.poll now).2
      (shows (solo.voice.release now) solo.announced.toNat 1 .silent) := by
  obtain ⟨hcalls, hends, hreports⟩ := firing_of_own h.coherent h.others now hdue
  rw [fire_of_not_looping now h.live hlooping] at hcalls hends hreports
  have hnext : solo.Follows .silent (scheduler.poll now).2 := by
    refine ⟨coherent_poll h.coherent now, othersApart_poll h.others now, ?_,
      List.not_mem_nil⟩
    have htask := h.coherent.task?_poll_of_due now hdue
    rw [h.live] at htask
    exact htask.trans (if_neg (by simp [task, hlooping]))
  refine hnext.matches_shows ?_ ?_ ?_
  · exact hcalls.trans (Voice.callsOn_eq_map fun given => Voice.node_of_mem_release)
  · refine hends.trans ?_
    cases hannounced : solo.announced <;> simp [task, hannounced]
  · rw [poll_eq, List.count_append, List.count_eq_zero.2 h.not_early, hreports]
    simp

/-- A voice whose timer does not fire plays on. -/
theorem Follows.poll_later (h : solo.Follows (.playing due passes) scheduler) (now : Seconds)
    (hlater : ⟨due, solo.handle, scheduler.epoch⟩ ∉ scheduler.dueTimers now) :
    solo.Matches (scheduler.poll now).1.signals (scheduler.poll now).1.announced
      (scheduler.poll now).1.ended (scheduler.poll now).2
      (shows [] 0 0 (.playing due passes)) := by
  obtain ⟨hfound, htimer⟩ := h.standing
  obtain ⟨hcalls, hends, hreports⟩ := firing_of_others h.coherent h.others now <| by
    intro timer hmem task hother heq
    rw [handle_of_task? hother] at heq
    exact hlater (h.coherent.timer_unique (List.takeWhile_subset _ hmem) htimer heq ▸ hmem)
  have hnext : solo.Follows (.playing due passes) (scheduler.poll now).2 := by
    refine ⟨coherent_poll h.coherent now, othersApart_poll h.others now, ?_, ?_⟩
    · exact (h.coherent.task?_poll_of_later now htimer hlater).trans hfound
    · refine (timers_poll_perm now scheduler).mem_iff.2 (List.mem_append_right _ ?_)
      rw [← dueTimers_append_laterTimers now scheduler] at htimer
      exact (List.mem_append.1 htimer).resolve_left hlater
  exact hnext.matches_quiet hcalls hends fun hmem =>
    (List.mem_append.1 hmem).elim h.not_early hreports

/-- A poll shows what the machine shows that is polled, and the machine follows. -/
theorem Follows.poll (h : solo.Follows phase scheduler)
    (hnumeric : Timer.Numeric scheduler.timers) (now : Seconds) :
    solo.Matches (scheduler.poll now).1.signals (scheduler.poll now).1.announced
      (scheduler.poll now).1.ended (scheduler.poll now).2 (solo.poll now phase) := by
  cases phase with
  | playing due passes =>
    have hdueTimers := h.coherent.mem_dueTimers_iff hnumeric now h.standing.2
    unfold Solo.poll
    by_cases hdue : due ≤ now
    · cases hlooping : solo.looping with
      | true => simpa only [hdue, if_true] using h.poll_again hlooping now (hdueTimers.2 hdue)
      | false =>
        simpa only [hdue, if_true, Bool.false_eq_true, if_false] using
          h.poll_end hlooping now (hdueTimers.2 hdue)
    · simpa only [hdue, if_false] using h.poll_later now fun hmem => hdue (hdueTimers.1 hmem)
  | unreported =>
    obtain ⟨hnone, hearly⟩ := h.standing
    obtain ⟨hcalls, hends, hreports⟩ := firing_of_others h.coherent h.others now
      (no_timer_of_none hnone now)
    refine (h.silent_poll hnone now).matches_shows hcalls (List.count_eq_zero.2 hends) ?_
    rw [poll_eq, List.count_append, List.count_eq_zero.2 hreports,
      List.count_eq_one_of_mem h.coherent.early_nodup hearly]
  | silent =>
    obtain ⟨hnone, hearly⟩ := h.standing
    obtain ⟨hcalls, hends, hreports⟩ := firing_of_others h.coherent h.others now
      (no_timer_of_none hnone now)
    exact (h.silent_poll hnone now).matches_quiet hcalls hends fun hmem =>
      (List.mem_append.1 hmem).elim hearly hreports

/-! ## Starting -/

/-- The start of another voice leaves this one alone. -/
theorem Follows.start_of_ne (h : solo.Follows phase scheduler) (now : Seconds)
    {other : Voice} (hapart : solo.voice.Apart other) (tones : List Tone)
    (looping announced : Bool)
    (hne : (scheduler.start now other tones looping announced).1.result.toOption ≠
      some solo.handle) :
    solo.Matches (scheduler.start now other tones looping announced).1.signals
      (scheduler.start now other tones looping announced).1.announced []
      (scheduler.start now other tones looping announced).2 (shows [] 0 0 phase) := by
  have hcoherent := coherent_start h.coherent now other tones looping announced
  rcases start_cases now other tones looping announced scheduler with
    ⟨-, -, hstart⟩ | ⟨-, -, hstart⟩ | ⟨-, -, hstart⟩
  · rw [hstart]
    exact h.matches_quiet (Voice.callsOn_eq_nil hapart fun given => Voice.node_of_mem_discard)
      List.not_mem_nil List.not_mem_nil
  · rw [hstart] at hcoherent hne ⊢
    have hne : scheduler.nextHandle ≠ solo.handle := by
      intro heq
      exact hne (congrArg some heq)
    have hnext : solo.Follows phase
        { scheduler with
          nextHandle := scheduler.nextHandle + 1
          endedEarly := scheduler.endedEarly ++ [scheduler.nextHandle] } := by
      refine ⟨hcoherent, h.others, h.standing.congr rfl rfl (fun timer hmem _ => hmem) ?_⟩
      simp [hne.symm]
    refine hnext.matches_quiet (Voice.callsOn_eq_nil hapart fun given =>
      Voice.node_of_mem_start fun given => Voice.node_of_mem_release) ?_ List.not_mem_nil
    split
    · simpa using hne.symm
    · exact List.not_mem_nil
  · rw [hstart] at hcoherent hne ⊢
    have hne : scheduler.nextHandle ≠ solo.handle := by
      intro heq
      exact hne (congrArg some heq)
    have hlookup : ∀ task : Task, task.handle = scheduler.nextHandle →
        task? (scheduler.tasks ++ [task]) solo.handle = task? scheduler.tasks solo.handle := by
      intro task hhandle
      rw [task?_append, show task? [task] solo.handle = none from ?_, Option.or_none]
      rw [task?_eq_none_iff]
      simpa [hhandle] using hne.symm
    have hnext : solo.Follows phase
        { scheduler with
          nextHandle := scheduler.nextHandle + 1
          tasks := scheduler.tasks ++ [⟨scheduler.nextHandle, other, tones, looping,
            Tone.totalLength tones, scheduler.epoch, 1, announced⟩]
          timers := Timer.arm
            ⟨now + Tone.totalLength tones, scheduler.nextHandle, scheduler.epoch⟩
            scheduler.timers } := by
      refine ⟨hcoherent, fun task hmem hother => ?_,
        h.standing.congr rfl (hlookup _ rfl) (fun timer hmem _ => ?_) Iff.rfl⟩
      · rcases List.mem_append.1 hmem with hmem | hmem
        · exact h.others task hmem hother
        · rw [List.mem_singleton.1 hmem]
          exact hapart
      · exact (Timer.arm_perm _ _).mem_iff.2 (List.mem_cons_of_mem _ hmem)
    exact hnext.matches_quiet (Voice.callsOn_eq_nil hapart fun given =>
      Voice.node_of_mem_start fun given => Voice.node_of_mem_programme)
      List.not_mem_nil List.not_mem_nil

/-- The start of the voice shows what the machine shows that begins. -/
theorem Follows.start_self (h : solo.Follows .silent scheduler) (now : Seconds)
    (hstarted : (scheduler.start now solo.voice solo.tones solo.looping
      solo.announced).1.result.toOption = some solo.handle) :
    solo.Matches
      (scheduler.start now solo.voice solo.tones solo.looping solo.announced).1.signals
      (scheduler.start now solo.voice solo.tones solo.looping solo.announced).1.announced []
      (scheduler.start now solo.voice solo.tones solo.looping solo.announced).2
      (solo.begin now) := by
  have hcoherent :=
    coherent_start h.coherent now solo.voice solo.tones solo.looping solo.announced
  rcases start_cases now solo.voice solo.tones solo.looping solo.announced scheduler with
    ⟨-, -, hstart⟩ | ⟨-, htones, hstart⟩ | ⟨-, htones, hstart⟩
  · rw [hstart] at hstarted
    cases hstarted
  · rw [hstart] at hstarted
    have hhandle : scheduler.nextHandle = solo.handle := Option.some.inj hstarted
    rw [hstart, hhandle] at hcoherent ⊢
    have hnext : solo.Follows .unreported
        { scheduler with
          nextHandle := solo.handle + 1
          endedEarly := scheduler.endedEarly ++ [solo.handle] } :=
      ⟨hcoherent, h.others, h.standing.1, List.mem_append_right _ (List.mem_singleton_self _)⟩
    have hbegin : solo.begin now =
        shows (.start solo.voice.oscillator now :: solo.voice.release now)
          solo.announced.toNat 0 .unreported := by
      simp [begin, pass, htones, programme]
    rw [hbegin]
    refine hnext.matches_shows (Voice.callsOn_eq_map fun given =>
      Voice.node_of_mem_start fun given => Voice.node_of_mem_release) ?_ rfl
    cases hannounced : solo.announced <;> simp
  · rw [hstart] at hstarted
    have hhandle : scheduler.nextHandle = solo.handle := Option.some.inj hstarted
    rw [hstart, hhandle] at hcoherent ⊢
    have hnext : solo.Follows (.playing (now + solo.total) 1)
        { scheduler with
          nextHandle := solo.handle + 1
          tasks := scheduler.tasks ++ [solo.task scheduler.epoch 1]
          timers := Timer.arm ⟨now + solo.total, solo.handle, scheduler.epoch⟩
            scheduler.timers } := by
      refine ⟨hcoherent, fun task hmem hne => ?_, ?_, ?_⟩
      · rcases List.mem_append.1 hmem with hmem | hmem
        · exact h.others task hmem hne
        · exact absurd (congrArg Task.handle (List.mem_singleton.1 hmem)) hne
      · rw [task?_append, h.standing.1, Option.none_or]
        simp [task?, task]
      · exact (Timer.arm_perm _ _).mem_iff.2 List.mem_cons_self
    have hbegin : solo.begin now =
        shows (.start solo.voice.oscillator now :: solo.pass now) 0 0
          (.playing (now + solo.total) 1) := by
      simp [begin, htones]
    rw [hbegin]
    exact hnext.matches_shows (Voice.callsOn_eq_map fun given =>
      Voice.node_of_mem_start fun given => Voice.node_of_mem_programme) rfl rfl

/-! ## Cancelling -/

/-- Cancelling another voice leaves this one alone. -/
theorem Follows.cancel_of_ne (h : solo.Follows phase scheduler) (now : Seconds)
    {handle : VoiceId} (hne : handle ≠ solo.handle) :
    solo.Matches (scheduler.cancel now handle).1.2 [] [] (scheduler.cancel now handle).2
      (shows [] 0 0 phase) := by
  have hcoherent := coherent_cancel h.coherent now handle
  rcases cancel_cases now handle scheduler with ⟨-, hcancel⟩ | ⟨task, hfound, hcancel⟩
  · rw [hcancel]
    exact h.matches_quiet rfl List.not_mem_nil List.not_mem_nil
  · rw [hcancel] at hcoherent ⊢
    have hapart : solo.voice.Apart task.voice :=
      h.others task (mem_of_task? hfound) (handle_of_task? hfound ▸ hne)
    have hsame := task?_withoutTask_of_ne scheduler.tasks hne.symm
    have hnext : solo.Follows phase
        { scheduler with tasks := withoutTask scheduler.tasks handle } := by
      exact ⟨hcoherent, fun task hmem => h.others task (List.mem_filter.1 hmem).1,
        h.standing.congr rfl hsame (fun timer hmem _ => hmem) Iff.rfl⟩
    exact hnext.matches_quiet
      (Voice.callsOn_eq_nil hapart fun given => Voice.node_of_mem_release)
      List.not_mem_nil List.not_mem_nil

/-- Cancelling a voice that is not playing does nothing. -/
theorem Follows.cancel_of_none (h : solo.Follows phase scheduler)
    (hnone : task? scheduler.tasks solo.handle = none) (now : Seconds) :
    solo.Matches (scheduler.cancel now solo.handle).1.2 [] []
      (scheduler.cancel now solo.handle).2 (shows [] 0 0 phase) := by
  have hcancel : scheduler.cancel now solo.handle = ((false, []), scheduler) := by
    unfold Scheduler.cancel
    rw [hnone]
  rw [hcancel]
  exact h.matches_quiet rfl List.not_mem_nil List.not_mem_nil

/-- Cancelling the voice releases it without a word. -/
theorem Follows.cancel_self (h : solo.Follows phase scheduler) (now : Seconds) :
    solo.Matches (scheduler.cancel now solo.handle).1.2 [] []
      (scheduler.cancel now solo.handle).2 (solo.cancel now phase) := by
  have hcoherent := coherent_cancel h.coherent now solo.handle
  have hstanding := h.standing
  cases phase with
  | playing due passes =>
    obtain ⟨hfound, -⟩ := hstanding
    have hcancel : scheduler.cancel now solo.handle =
        ((true, solo.voice.release now),
          { scheduler with tasks := withoutTask scheduler.tasks solo.handle }) := by
      unfold Scheduler.cancel
      rw [hfound]
      rfl
    rw [hcancel] at hcoherent ⊢
    have hnext : solo.Follows .silent
        { scheduler with tasks := withoutTask scheduler.tasks solo.handle } :=
      ⟨hcoherent, fun task hmem => h.others task (List.mem_filter.1 hmem).1,
        task?_withoutTask_self _ _, h.not_early⟩
    exact hnext.matches_shows
      (Voice.callsOn_eq_map fun given => Voice.node_of_mem_release) rfl rfl
  | unreported => exact h.cancel_of_none hstanding.1 now
  | silent => exact h.cancel_of_none hstanding.1 now

/-- Cancelling every voice releases this one as if it were alone. -/
theorem Follows.cancelEvery (h : solo.Follows phase scheduler) (now : Seconds) :
    solo.Matches (scheduler.cancelEvery now).1 [] [] (scheduler.cancelEvery now).2
      (solo.cancelEvery now phase) := by
  have hnext : solo.Follows .silent (scheduler.cancelEvery now).2 :=
    ⟨coherent_cancelEvery h.coherent now, fun task hmem => absurd hmem List.not_mem_nil,
      rfl, List.not_mem_nil⟩
  have hother : ∀ task ∈ scheduler.tasks, task.handle ≠ solo.handle →
      solo.voice.callsOn (task.voice.release now) = [] := by
    intro task hmem hne
    exact Voice.callsOn_eq_nil (h.others task hmem hne) fun given => Voice.node_of_mem_release
  have hnone : task? scheduler.tasks solo.handle = none →
      solo.voice.callsOn (scheduler.cancelEvery now).1 = [] := by
    intro hnone
    rw [Scheduler.cancelEvery, Voice.callsOn_flatMap]
    refine List.flatMap_eq_nil_iff.2 fun task hmem => hother task hmem fun heq => ?_
    exact task?_eq_none_iff.1 hnone (heq ▸ List.mem_map_of_mem hmem)
  have hstanding := h.standing
  cases phase with
  | playing due passes =>
    have hmem := mem_of_task? hstanding.1
    refine hnext.matches_shows ?_ rfl rfl
    rw [Scheduler.cancelEvery, Voice.callsOn_flatMap,
      flatMap_eq_of_unique (List.Nodup.of_map _ h.coherent.tasks_nodup) hmem ?_]
    · exact Voice.callsOn_eq_map fun given => Voice.node_of_mem_release
    · intro task htask hne
      refine hother task htask fun heq => hne ?_
      exact List.inj_on_of_nodup_map h.coherent.tasks_nodup htask hmem heq
  | unreported =>
    exact hnext.matches_quiet (hnone hstanding.1) List.not_mem_nil List.not_mem_nil
  | silent => exact hnext.matches_quiet (hnone hstanding.1) List.not_mem_nil List.not_mem_nil

end Solo

end Chiptune
