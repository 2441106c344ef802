/-
  What a scheduler's books say, whatever is asked of it.

  Voices are started, cancelled and polled in any order and at any times, those that a moving
  clock gives during a poll among them.  Beside the scheduler stand the handles it
  has given out and the passes it has begun; against these its tasks, its timers and its
  early ends are held.
-/
import Chiptune.Proofs.Rearming

set_option autoImplicit false

namespace Chiptune.Scheduler

/-- What is asked of a scheduler, with the times it reads. -/
inductive Request where
  | start (now : Seconds) (voice : Voice) (tones : List Tone) (looping announced : Bool)
  | cancel (now : Seconds) (handle : VoiceId)
  | cancelEvery (now : Seconds)
  | poll (now : Seconds) (readings : Nat → Seconds)

/-- A scheduler with what it has done. -/
structure History where
  scheduler : Scheduler
  /-- The handles given out, in order. -/
  issued : List VoiceId
  /-- The passes in the order in which they began. -/
  passes : List Pass
  /-- The signals that were to be sent. -/
  sent : List Signal

namespace History

/-- A scheduler of which nothing has been asked. -/
def fresh : History := ⟨.empty, [], [], []⟩

/-- Does what is asked. -/
def perform (request : Request) (history : History) : History :=
  match request with
  | .start now voice tones looping announced =>
    let (start, scheduler) := history.scheduler.start now voice tones looping announced
    let issued := start.result.toOption.toList
    { scheduler
      issued := history.issued ++ issued
      passes := history.passes ++ (issued.filterMap (task? scheduler.tasks)).map (⟨·, now⟩)
      sent := history.sent ++ start.signals }
  | .cancel now handle =>
    let ((_, signals), scheduler) := history.scheduler.cancel now handle
    { history with scheduler, sent := history.sent ++ signals }
  | .cancelEvery now =>
    let (signals, scheduler) := history.scheduler.cancelEvery now
    { history with scheduler, sent := history.sent ++ signals }
  | .poll now readings =>
    let (poll, scheduler) := history.scheduler.pollEach now readings
    { history with
      scheduler
      passes := history.passes ++ begun history.scheduler.epoch readings
        (history.scheduler.dueTimers now) history.scheduler.tasks
      sent := history.sent ++ poll.signals }

/-- Does what is asked in order. -/
def after (requests : List Request) (history : History) : History :=
  requests.foldl (fun history request => history.perform request) history

@[simp] theorem after_nil (history : History) : history.after [] = history := rfl

@[simp] theorem after_cons (request : Request) (requests : List Request) (history : History) :
    history.after (request :: requests) = (history.perform request).after requests := rfl

/-- The books of a scheduler: what its tasks and timers have to do with the handles given out
and the passes begun. -/
structure Booked (history : History) : Prop where
  coherent : history.scheduler.Coherent
  issued_eq : history.issued = List.range history.scheduler.nextHandle
  epochs_le : ∀ timer ∈ history.scheduler.timers, timer.epoch ≤ history.scheduler.epoch
  passes_below : ∀ pass ∈ history.passes, pass.task.handle < history.scheduler.nextHandle
  passes_sent : ∀ pass ∈ history.passes, pass.signals <:+: history.sent
  totals : ∀ task ∈ history.scheduler.tasks, task.total = Tone.totalLength task.tones
  counted : ∀ task ∈ history.scheduler.tasks,
    (passesOf task.handle history.passes).length = task.passes
  anchored : ∀ task ∈ history.scheduler.tasks, ∀ timer ∈ history.scheduler.timers,
    timer.handle = task.handle →
      ∃ pass, (passesOf task.handle history.passes).getLast? = some pass ∧
        timer.due = pass.anchor + task.total

theorem booked_fresh : fresh.Booked where
  coherent := coherent_empty
  issued_eq := rfl
  epochs_le := nofun
  passes_below := nofun
  passes_sent := nofun
  totals := nofun
  counted := nofun
  anchored := nofun

variable {history : History}

namespace Booked

/-- The first pass of a voice is the only one of its handle. -/
theorem passesOf_nextHandle (h : history.Booked) {pass : Pass}
    (hpass : pass.task.handle = history.scheduler.nextHandle) :
    passesOf history.scheduler.nextHandle (history.passes ++ [pass]) = [pass] := by
  have hnone : passesOf history.scheduler.nextHandle history.passes = [] :=
    List.filter_eq_nil_iff.2 fun other hmem heq =>
      absurd (beq_iff_eq.1 heq) (Nat.ne_of_lt (h.passes_below other hmem))
  rw [passesOf_concat _ hpass, hnone]
  rfl

/-- What has been sent stays so. -/
theorem sent_after (h : history.Booked) (signals : List Signal) :
    ∀ pass ∈ history.passes, pass.signals <:+: history.sent ++ signals :=
  fun pass hmem => (h.passes_sent pass hmem).trans (List.prefix_append _ _).isInfix

/-- A voice that takes the next handle is booked with its first pass. -/
theorem enter (h : history.Booked) {task : Task} {anchor : Seconds} {signals : List Signal}
    {next : Scheduler} (hhandle : task.handle = history.scheduler.nextHandle)
    (htotal : task.total = Tone.totalLength task.tones) (hpasses : task.passes = 1)
    (hsent : (Pass.mk task anchor).signals <:+: signals) (hcoherent : next.Coherent)
    (hnext : next.nextHandle = history.scheduler.nextHandle + 1)
    (hepoch : next.epoch = history.scheduler.epoch)
    (htasks : next.tasks = history.scheduler.tasks ++ [task])
    (htimers : next.timers.Perm
      (⟨anchor + task.total, task.handle, next.epoch⟩ :: history.scheduler.timers)) :
    Booked ⟨next, history.issued ++ [task.handle], history.passes ++ [⟨task, anchor⟩],
      history.sent ++ signals⟩ := by
  have hfirst : passesOf task.handle (history.passes ++ [⟨task, anchor⟩]) = [⟨task, anchor⟩] := by
    rw [hhandle]
    exact h.passesOf_nextHandle hhandle
  have hother : ∀ other ∈ history.scheduler.tasks, task.handle ≠ other.handle := fun other hmem =>
    hhandle ▸ Nat.ne_of_gt (h.coherent.tasks_below hmem)
  obtain ⟨-, hnotimer, -⟩ := h.coherent.nextHandle_fresh
  refine
    { coherent := hcoherent
      issued_eq := by rw [h.issued_eq, hhandle, hnext, List.range_succ]
      epochs_le := ?_, passes_below := ?_, passes_sent := ?_, totals := ?_, counted := ?_
      anchored := ?_ }
  · intro timer hmem
    rcases List.mem_cons.1 (htimers.mem_iff.1 hmem) with rfl | hmem
    · exact Nat.le_refl _
    · exact hepoch ▸ h.epochs_le timer hmem
  · intro pass hmem
    rw [hnext]
    rcases List.mem_append.1 hmem with hmem | hmem
    · exact Nat.lt_succ_of_lt (h.passes_below pass hmem)
    · rw [List.mem_singleton.1 hmem, hhandle]
      exact Nat.lt_succ_self _
  · intro pass hmem
    rcases List.mem_append.1 hmem with hmem | hmem
    · exact h.sent_after _ pass hmem
    · rw [List.mem_singleton.1 hmem]
      exact hsent.trans (List.suffix_append _ _).isInfix
  all_goals
    intro other hmem
    rw [htasks] at hmem
    rcases List.mem_append.1 hmem with hmem | hmem
  · exact h.totals other hmem
  · rw [List.mem_singleton.1 hmem, htotal]
  · rw [passesOf_concat_of_ne _ (hother other hmem)]
    exact h.counted other hmem
  · rw [List.mem_singleton.1 hmem, hfirst, hpasses]
    rfl
  · intro timer htimer heq
    rw [passesOf_concat_of_ne _ (hother other hmem)]
    rcases List.mem_cons.1 (htimers.mem_iff.1 htimer) with rfl | htimer
    · exact absurd heq (hother other hmem)
    · exact h.anchored other hmem timer htimer heq
  · obtain rfl := List.mem_singleton.1 hmem
    intro timer htimer heq
    rw [hfirst]
    rcases List.mem_cons.1 (htimers.mem_iff.1 htimer) with rfl | htimer
    · exact ⟨_, rfl, rfl⟩
    · exact absurd (List.mem_map.2 ⟨timer, htimer, heq.trans hhandle⟩) hnotimer

theorem start (h : history.Booked) (now : Seconds) (voice : Voice) (tones : List Tone)
    (looping announced : Bool) :
    (history.perform (.start now voice tones looping announced)).Booked := by
  have hcoherent := coherent_start h.coherent now voice tones looping announced
  rcases start_cases now voice tones looping announced history.scheduler with
    ⟨-, -, hstart⟩ | ⟨-, -, hstart⟩ | ⟨-, -, hstart⟩
  · simp only [perform, hstart, Except.toOption, Option.toList, List.filterMap_nil,
      List.map_nil, List.append_nil]
    exact { h with passes_sent := h.sent_after _ }
  · rw [hstart] at hcoherent
    have hnone := task?_eq_none_iff.2 h.coherent.nextHandle_fresh.1
    simp only [perform, hstart, Except.toOption, Option.toList, List.filterMap_cons, hnone,
      List.filterMap_nil, List.map_nil, List.append_nil]
    exact
      { h with
        coherent := hcoherent
        issued_eq := by rw [h.issued_eq, List.range_succ]
        passes_below := fun pass hmem => Nat.lt_succ_of_lt (h.passes_below pass hmem)
        passes_sent := h.sent_after _ }
  · rw [hstart] at hcoherent
    have hfound := task?_eq_some_of_mem hcoherent.tasks_nodup
      (List.mem_append_right _ (List.mem_singleton_self _))
    simp only [perform, hstart, Except.toOption, Option.toList, List.filterMap_cons, hfound,
      List.filterMap_nil, List.map_cons, List.map_nil]
    exact h.enter rfl rfl rfl (List.suffix_cons _ _).isInfix hcoherent rfl rfl rfl
      (Timer.arm_perm _ _)

/-- Nothing is said of a voice that has been released. -/
theorem cancel (h : history.Booked) (now : Seconds) (handle : VoiceId) :
    (history.perform (.cancel now handle)).Booked := by
  have hcoherent := coherent_cancel h.coherent now handle
  rcases cancel_cases now handle history.scheduler with ⟨-, hcancel⟩ | ⟨task, -, hcancel⟩
  · simp only [perform, hcancel, List.append_nil]
    exact h
  · rw [hcancel] at hcoherent
    simp only [perform, hcancel]
    exact
      { h with
        coherent := hcoherent
        passes_sent := h.sent_after _
        totals := fun task hmem => h.totals task (List.mem_filter.1 hmem).1
        counted := fun task hmem => h.counted task (List.mem_filter.1 hmem).1
        anchored := fun task hmem => h.anchored task (List.mem_filter.1 hmem).1 }

theorem cancelEvery (h : history.Booked) (now : Seconds) :
    (history.perform (.cancelEvery now)).Booked :=
  { h with
    coherent := coherent_cancelEvery h.coherent now
    epochs_le := fun timer hmem => Nat.le_succ_of_le (h.epochs_le timer hmem)
    passes_sent := h.sent_after _
    totals := nofun
    counted := nofun
    anchored := nofun }

theorem poll (h : history.Booked) (now : Seconds) (readings : Nat → Seconds) :
    (history.perform (.poll now readings)).Booked := by
  have hlater : ∀ timer ∈ history.scheduler.laterTimers now,
      timer ∈ history.scheduler.timers := List.dropWhile_subset _
  refine
    { coherent := coherent_pollEach h.coherent now readings
      issued_eq := h.issued_eq
      epochs_le := ?_, passes_below := ?_, passes_sent := ?_, totals := ?_, counted := ?_
      anchored := ?_ }
  · intro timer hmem
    rcases timers_pollEach hmem with ⟨pass, -, rfl⟩ | hmem
    · exact Nat.le_refl _
    · exact h.epochs_le timer (hlater timer hmem)
  · intro pass hmem
    rcases List.mem_append.1 hmem with hmem | hmem
    · exact h.passes_below pass hmem
    · obtain ⟨timer, htimer, heq⟩ := List.mem_map.1 (handle_of_mem_begun hmem)
      exact heq ▸ h.coherent.timers_below timer (List.takeWhile_subset _ htimer)
  · intro pass hmem
    rcases List.mem_append.1 hmem with hmem | hmem
    · exact h.sent_after _ pass hmem
    · exact (signals_fireEach _ readings _ _ pass hmem).trans (List.suffix_append _ _).isInfix
  · intro task hmem
    rcases h.coherent.mem_pollEach_tasks hmem with ⟨before, hbefore, -, rfl, -⟩ | ⟨hmem, -⟩
    · exact h.totals before hbefore
    · exact h.totals task hmem
  · intro task hmem
    rcases h.coherent.mem_pollEach_tasks hmem with
      ⟨before, hbefore, anchor, rfl, -, hpasses⟩ | ⟨hmem, hnotdue⟩
    · rw [perform, passesOf_append, hpasses, List.length_append, h.counted before hbefore]
      rfl
    · rw [perform, passesOf_append, passesOf_begun_of_not_mem readings _ hnotdue,
        List.append_nil]
      exact h.counted task hmem
  · intro task hmem timer htimer heq
    rw [perform, passesOf_append]
    rcases h.coherent.mem_pollEach_tasks hmem with
      ⟨before, hbefore, anchor, rfl, hdue, hpasses⟩ | ⟨hmem, hnotdue⟩
    · rw [hpasses, List.getLast?_concat]
      rcases timers_pollEach htimer with ⟨pass, hpass, rfl⟩ | hlate
      · have hmem := mem_passesOf hpass
        rw [show pass.task.handle = before.handle from heq, hpasses] at hmem
        rw [List.mem_singleton.1 hmem]
        exact ⟨_, rfl, rfl⟩
      · exact absurd (heq ▸ hdue) (h.coherent.not_due_of_later hlate)
    · rw [passesOf_begun_of_not_mem readings _ hnotdue, List.append_nil]
      rcases timers_pollEach htimer with ⟨pass, hpass, rfl⟩ | hlate
      · exact absurd (heq ▸ handle_of_mem_begun hpass) hnotdue
      · exact h.anchored task hmem timer (hlater timer hlate) heq

theorem perform (h : history.Booked) (request : Request) : (history.perform request).Booked := by
  cases request with
  | start now voice tones looping announced => exact h.start now voice tones looping announced
  | cancel now handle => exact h.cancel now handle
  | cancelEvery now => exact h.cancelEvery now
  | poll now readings => exact h.poll now readings

theorem after (h : history.Booked) (requests : List Request) :
    (history.after requests).Booked := by
  induction requests generalizing history with
  | nil => exact h
  | cons request requests ih => exact ih (h.perform request)

end Booked

/-! ## Order -/

/-- What is true of a scheduler at all times. -/
structure InOrder (history : History) : Prop where
  tasks_below : ∀ task ∈ history.scheduler.tasks, task.handle < history.scheduler.nextHandle
  timers_below : ∀ timer ∈ history.scheduler.timers, timer.handle < history.scheduler.nextHandle
  early_below : ∀ handle ∈ history.scheduler.endedEarly, handle < history.scheduler.nextHandle
  /-- A handle has one task at most. -/
  tasks_nodup : (history.scheduler.tasks.map (·.handle)).Nodup
  /-- A handle has one timer at most. -/
  timers_nodup : (history.scheduler.timers.map (·.handle)).Nodup
  /-- A voice that plays is of this epoch and waits for one timer, of this epoch as well, which is
  due when the last pass of the voice has ended. -/
  waiting : ∀ task ∈ history.scheduler.tasks, task.epoch = history.scheduler.epoch ∧
    ∃ timer pass,
      history.scheduler.timers.filter (·.handle == task.handle) = [timer] ∧
      timer.epoch = history.scheduler.epoch ∧
      (passesOf task.handle history.passes).getLast? = some pass ∧
      timer.due = pass.anchor + task.total
  totals : ∀ task ∈ history.scheduler.tasks, task.total = Tone.totalLength task.tones
  /-- The passes are those that the voices count, and they have been sent. -/
  counted : ∀ task ∈ history.scheduler.tasks,
    (passesOf task.handle history.passes).length = task.passes
  sent : ∀ pass ∈ history.passes, pass.signals <:+: history.sent
  /-- Timers of earlier epochs have no voice. -/
  outdated : ∀ timer ∈ history.scheduler.timers, timer.epoch ≤ history.scheduler.epoch ∧
    (timer.epoch < history.scheduler.epoch →
      timer.handle ∉ history.scheduler.tasks.map (·.handle))
  early_nodup : history.scheduler.endedEarly.Nodup
  early_apart : ∀ handle ∈ history.scheduler.endedEarly,
    handle ∉ history.scheduler.tasks.map (·.handle) ∧
      handle ∉ history.scheduler.timers.map (·.handle)
  /-- The test for stale timers asks whether the handle has a task. -/
  live : ∀ timer ∈ history.scheduler.timers,
    liveTask? history.scheduler.epoch history.scheduler.tasks timer =
      task? history.scheduler.tasks timer.handle
  /-- So it does in the course of a poll, when some timers have fired and the next one is tested. -/
  live_between : ∀ now readings before timer after,
    history.scheduler.dueTimers now = before ++ timer :: after →
      let tasks :=
        (fireEach history.scheduler.epoch readings before history.scheduler.tasks).tasks
      liveTask? history.scheduler.epoch tasks timer = task? tasks timer.handle
  /-- No handle is given out twice. -/
  issued_nodup : history.issued.Nodup
  issued_below : ∀ handle ∈ history.issued, handle < history.scheduler.nextHandle

/-- A voice that plays waits for its timer and for no other one. -/
theorem Booked.waiting (h : history.Booked) {task : Task}
    (hmem : task ∈ history.scheduler.tasks) :
    ∃ timer pass,
      history.scheduler.timers.filter (·.handle == task.handle) = [timer] ∧
      timer.epoch = history.scheduler.epoch ∧
      (passesOf task.handle history.passes).getLast? = some pass ∧
      timer.due = pass.anchor + task.total := by
  obtain ⟨timer, htimer, hhandle, hepoch⟩ := h.coherent.tasks_timer task hmem
  obtain ⟨pass, hlast, hdue⟩ := h.anchored task hmem timer htimer hhandle
  refine ⟨timer, pass, ?_, hepoch, hlast, hdue⟩
  have honly : ∀ other ∈ history.scheduler.timers.filter (·.handle == task.handle),
      other = timer := fun other hother =>
    h.coherent.timer_unique (List.mem_filter.1 hother).1 htimer
      ((beq_iff_eq.1 (List.mem_filter.1 hother).2).trans hhandle.symm)
  have hin : timer ∈ history.scheduler.timers.filter (·.handle == task.handle) :=
    List.mem_filter.2 ⟨htimer, beq_iff_eq.2 hhandle⟩
  have hnodup := (List.Nodup.of_map _ h.coherent.timers_nodup).filter (·.handle == task.handle)
  exact List.perm_singleton.1 ((List.perm_ext_iff_of_nodup hnodup (List.nodup_singleton _)).2
    fun other => ⟨fun hother => List.mem_singleton.2 (honly other hother),
      fun hother => List.mem_singleton.1 hother ▸ hin⟩)

/-- **A scheduler is in order at all times.**  Whatever has been asked of it, and at whatever times,
its handles, tasks, timers and early ends fit together, and every voice that plays waits for the
end of its last pass. -/
theorem inOrder_after (requests : List Request) : (fresh.after requests).InOrder := by
  have h := booked_fresh.after requests
  exact
    { tasks_below := fun _ hmem => h.coherent.tasks_below hmem
      timers_below := h.coherent.timers_below
      early_below := h.coherent.early_below
      tasks_nodup := h.coherent.tasks_nodup
      timers_nodup := h.coherent.timers_nodup
      waiting := fun task hmem => ⟨h.coherent.tasks_epoch task hmem, h.waiting hmem⟩
      totals := h.totals
      counted := h.counted
      sent := h.passes_sent
      outdated := fun timer hmem => ⟨h.epochs_le timer hmem, fun hlt hin => by
        obtain ⟨task, htask, heq⟩ := List.mem_map.1 hin
        obtain ⟨other, hother, hhandle, hepoch⟩ := h.coherent.tasks_timer task htask
        rw [h.coherent.timer_unique hmem hother (heq ▸ hhandle.symm), hepoch] at hlt
        exact Nat.lt_irrefl _ hlt⟩
      early_nodup := h.coherent.early_nodup
      early_apart := fun handle hmem => by
        refine ⟨fun hin => ?_, h.coherent.early_apart handle hmem⟩
        obtain ⟨task, htask, heq⟩ := List.mem_map.1 hin
        obtain ⟨timer, htimer, hhandle, -⟩ := h.coherent.tasks_timer task htask
        exact h.coherent.early_apart handle hmem
          (List.mem_map.2 ⟨timer, htimer, hhandle.trans heq⟩)
      live := fun _ hmem => h.coherent.liveTask?_eq hmem
      live_between := fun _ readings _ _ _ hdue => h.coherent.liveTask?_fireEach readings hdue
      issued_nodup := by
        rw [h.issued_eq]
        exact List.nodup_range
      issued_below := fun handle hmem => by
        rw [h.issued_eq] at hmem
        exact List.mem_range.1 hmem }

/-- A loop of one second that is polled in time but read late begins again when it is read. -/
example :
    let history := fresh.after [
      .start (.ofFloat 0) ⟨⟨0, 0, [0]⟩⟩ [⟨440, .ofFloat 1⟩] true false,
      .poll (.ofFloat 1) fun _ => .ofFloat 1.25]
    history.scheduler.timers = [⟨.ofFloat 2.25, 0, 0⟩] ∧
      history.passes.map (·.anchor) = [.ofFloat 0, .ofFloat 1.25] := by
  decide +kernel

end History

end Chiptune.Scheduler
