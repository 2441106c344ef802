/-
  Polls during which the clock goes on.

  A voice that begins again does so from the time that is read when its timer fires, and
  between two firings of one poll the clock may have moved.  So each firing has a
  reading of its own here.  What happens to the voices does not depend on the readings;
  the deadlines that are set anew do, each on the reading at which its voice began again.
-/
import Chiptune.Proofs.Coherent

set_option autoImplicit false

namespace Chiptune.Scheduler

/-- Fires timers in order, each at the next reading of the clock. -/
def fireEach (epoch : Nat) : (Nat → Seconds) → List Timer → List Task → Firing
  | _, [], tasks => ⟨[], [], [], [], tasks⟩
  | readings, timer :: timers, tasks =>
    let first := fire (readings 0) epoch timer tasks
    let others := fireEach epoch (fun count => readings (count + 1)) timers first.tasks
    { signals := first.signals ++ others.signals
      announced := first.announced ++ others.announced
      ended := first.ended ++ others.ended
      rearmed := first.rearmed ++ others.rearmed
      tasks := others.tasks }

/-- Fires every timer that is due at the time read first, while the clock goes on. -/
def pollEach (now : Seconds) (readings : Nat → Seconds) (scheduler : Scheduler) :
    Poll × Scheduler :=
  let firing := fireEach scheduler.epoch readings (scheduler.dueTimers now) scheduler.tasks
  (⟨scheduler.endedEarly ++ firing.ended, firing.signals, firing.announced⟩,
    { scheduler with
      tasks := firing.tasks
      timers := firing.rearmed.foldl (fun timers timer => timer.arm timers)
        (scheduler.laterTimers now)
      endedEarly := [] })

variable {scheduler : Scheduler} {epoch : Nat} {readings : Nat → Seconds}
variable {timer : Timer} {timers : List Timer} {tasks : List Task} {handle : VoiceId}

/-- While the clock stands still, timers fire as they do at one time. -/
theorem fireEach_const (now : Seconds) (epoch : Nat) (timers : List Timer) (tasks : List Task) :
    fireEach epoch (fun _ => now) timers tasks = fireAll now epoch timers tasks := by
  induction timers generalizing tasks with
  | nil => rfl
  | cons timer timers ih => rw [fireEach, fireAll, ih]

theorem pollEach_const (now : Seconds) (scheduler : Scheduler) :
    scheduler.pollEach now (fun _ => now) = scheduler.poll now := by
  rw [pollEach, fireEach_const]
  rfl

/-! ## What does not depend on the time -/

/-- The time of a firing makes no difference to the voices. -/
theorem fire_retimed (now time : Seconds) (epoch : Nat) (timer : Timer) (tasks : List Task) :
    (fire now epoch timer tasks).tasks = (fire time epoch timer tasks).tasks ∧
      (fire now epoch timer tasks).rearmed.map (fun timer => (timer.handle, timer.epoch)) =
        (fire time epoch timer tasks).rearmed.map (fun timer => (timer.handle, timer.epoch)) := by
  unfold fire
  cases liveTask? epoch tasks timer with
  | none => exact ⟨rfl, rfl⟩
  | some task => cases hlooping : task.looping <;> simp [hlooping]

theorem fireEach_retimed (now : Seconds) (epoch : Nat) (readings : Nat → Seconds)
    (timers : List Timer) (tasks : List Task) :
    (fireEach epoch readings timers tasks).tasks = (fireAll now epoch timers tasks).tasks ∧
      (fireEach epoch readings timers tasks).rearmed.map
          (fun timer => (timer.handle, timer.epoch)) =
        (fireAll now epoch timers tasks).rearmed.map
          (fun timer => (timer.handle, timer.epoch)) := by
  induction timers generalizing readings tasks with
  | nil => exact ⟨rfl, rfl⟩
  | cons timer timers ih =>
    obtain ⟨htasks, hrearmed⟩ := fire_retimed (readings 0) now epoch timer tasks
    obtain ⟨htasks', hrearmed'⟩ := ih (fun count => readings (count + 1))
      (fire now epoch timer tasks).tasks
    rw [fireEach, fireAll, htasks, List.map_append, List.map_append, hrearmed, hrearmed']
    exact ⟨htasks', rfl⟩

theorem tasks_fireEach (now : Seconds) (epoch : Nat) (readings : Nat → Seconds)
    (timers : List Timer) (tasks : List Task) :
    (fireEach epoch readings timers tasks).tasks = (fireAll now epoch timers tasks).tasks :=
  (fireEach_retimed now epoch readings timers tasks).1

/-- A poll leaves the voices that it leaves when the clock stands still. -/
theorem tasks_pollEach (now : Seconds) (readings : Nat → Seconds) (scheduler : Scheduler) :
    (scheduler.pollEach now readings).2.tasks = (scheduler.poll now).2.tasks :=
  tasks_fireEach now _ _ _ _

/-- After a poll the timers are those that were not due and those armed again. -/
theorem timers_pollEach_perm (now : Seconds) (readings : Nat → Seconds) (scheduler : Scheduler) :
    (scheduler.pollEach now readings).2.timers.Perm
      ((fireEach scheduler.epoch readings (scheduler.dueTimers now) scheduler.tasks).rearmed ++
        scheduler.laterTimers now) :=
  Timer.foldl_arm_perm _ _

/-- Deadlines matter to the order of the timers and to nothing else. -/
theorem Coherent.retimed (h : scheduler.Coherent) {timers : List Timer}
    (hperm : (timers.map fun timer => (timer.handle, timer.epoch)).Perm
      (scheduler.timers.map fun timer => (timer.handle, timer.epoch)))
    (hordered : Timer.Ordered timers) : Coherent { scheduler with timers := timers } := by
  have hhandles : (timers.map (·.handle)).Perm (scheduler.timers.map (·.handle)) := by
    simpa [Function.comp_def] using hperm.map Prod.fst
  refine
    { h with
      timers_nodup := hhandles.nodup_iff.2 h.timers_nodup
      early_apart := fun handle hmem hin =>
        h.early_apart handle hmem (hhandles.mem_iff.1 hin)
      timers_below := fun timer hmem => ?_
      tasks_timer := fun task hmem => ?_
      ordered := hordered }
  · obtain ⟨other, hother, heq⟩ :=
      List.mem_map.1 (hhandles.mem_iff.1 (List.mem_map_of_mem hmem))
    exact heq ▸ h.timers_below other hother
  · obtain ⟨other, hother, hhandle, hepoch⟩ := h.tasks_timer task hmem
    obtain ⟨timer, htimer, heq⟩ :=
      List.mem_map.1 (hperm.mem_iff.2 (List.mem_map_of_mem hother))
    rw [Prod.mk.injEq] at heq
    exact ⟨timer, htimer, heq.1.trans hhandle, heq.2.trans hepoch⟩

theorem coherent_pollEach (h : scheduler.Coherent) (now : Seconds) (readings : Nat → Seconds) :
    (scheduler.pollEach now readings).2.Coherent := by
  have hpoll := coherent_poll h now
  have hretimed := (fireEach_retimed now scheduler.epoch readings (scheduler.dueTimers now)
    scheduler.tasks).2
  have hperm := (timers_pollEach_perm now readings scheduler).map
    fun timer => (timer.handle, timer.epoch)
  rw [List.map_append, hretimed, ← List.map_append] at hperm
  have hkept := hpoll.retimed
    (hperm.trans
      ((timers_poll_perm now scheduler).map fun timer => (timer.handle, timer.epoch)).symm)
    (Timer.ordered_foldl_arm _ (h.ordered.sublist (List.dropWhile_sublist _)))
  rw [poll_eq, firing, ← tasks_fireEach now scheduler.epoch readings] at hkept
  exact hkept

/-! ## Passes -/

/-- The tones of a voice, programmed from a time on. -/
structure Pass where
  task : Task
  anchor : Seconds

/-- The timer that waits for the end of a pass. -/
def Pass.deadline (epoch : Nat) (pass : Pass) : Timer :=
  ⟨pass.anchor + pass.task.total, pass.task.handle, epoch⟩

/-- What is sent for a pass. -/
def Pass.signals (pass : Pass) : List Signal :=
  programme pass.task.voice.oscillator pass.task.tones pass.anchor

/-- The pass that the firing of a timer begins, if its voice loops. -/
def begunBy (now : Seconds) (epoch : Nat) (timer : Timer) (tasks : List Task) : List Pass :=
  ((liveTask? epoch tasks timer).filter (·.looping)).toList.map fun task => ⟨task, now⟩

/-- The passes that the firing of timers begins. -/
def begun (epoch : Nat) : (Nat → Seconds) → List Timer → List Task → List Pass
  | _, [], _ => []
  | readings, timer :: timers, tasks =>
    begunBy (readings 0) epoch timer tasks ++
      begun epoch (fun count => readings (count + 1)) timers
        (fire (readings 0) epoch timer tasks).tasks

/-- A firing begins a pass exactly if it arms a timer again, the one that waits for the end of
the pass; and the pass is sent. -/
theorem fire_begunBy (now : Seconds) (epoch : Nat) (timer : Timer) (tasks : List Task) :
    (fire now epoch timer tasks).rearmed = (begunBy now epoch timer tasks).map (·.deadline epoch) ∧
      ∀ pass ∈ begunBy now epoch timer tasks,
        (fire now epoch timer tasks).signals = pass.signals := by
  unfold fire begunBy
  cases liveTask? epoch tasks timer with
  | none => exact ⟨rfl, nofun⟩
  | some task =>
    cases hlooping : task.looping <;>
      simp [hlooping, Option.filter_some, Pass.deadline, Pass.signals]

/-- Timers are armed again for the passes that begin. -/
theorem rearmed_fireEach (epoch : Nat) (readings : Nat → Seconds) (timers : List Timer)
    (tasks : List Task) :
    (fireEach epoch readings timers tasks).rearmed =
      (begun epoch readings timers tasks).map (·.deadline epoch) := by
  induction timers generalizing readings tasks with
  | nil => rfl
  | cons timer timers ih =>
    rw [fireEach, begun, List.map_append, ← (fire_begunBy _ epoch timer tasks).1, ← ih]

/-- Every pass that begins is sent. -/
theorem signals_fireEach (epoch : Nat) (readings : Nat → Seconds) (timers : List Timer)
    (tasks : List Task) :
    ∀ pass ∈ begun epoch readings timers tasks,
      pass.signals <:+: (fireEach epoch readings timers tasks).signals := by
  induction timers generalizing readings tasks with
  | nil => exact nofun
  | cons timer timers ih =>
    intro pass hmem
    rw [fireEach]
    rcases List.mem_append.1 hmem with hmem | hmem
    · rw [(fire_begunBy _ epoch timer tasks).2 pass hmem]
      exact (List.prefix_append _ _).isInfix
    · exact (ih _ _ pass hmem).trans (List.suffix_append _ _).isInfix

/-- A firing begins passes of the voice of its timer alone. -/
theorem handle_of_mem_begunBy {now : Seconds} {pass : Pass}
    (h : pass ∈ begunBy now epoch timer tasks) : pass.task.handle = timer.handle := by
  obtain ⟨task, htask, rfl⟩ := List.mem_map.1 h
  obtain ⟨hlive, -⟩ := Option.filter_eq_some_iff.1 (Option.mem_toList.1 htask)
  exact handle_of_task? (task?_of_liveTask? hlive).1

/-- The passes of one voice. -/
def passesOf (handle : VoiceId) (passes : List Pass) : List Pass :=
  passes.filter fun pass => pass.task.handle == handle

theorem passesOf_append (handle : VoiceId) (first second : List Pass) :
    passesOf handle (first ++ second) = passesOf handle first ++ passesOf handle second :=
  List.filter_append ..

theorem mem_passesOf {passes : List Pass} {pass : Pass} (h : pass ∈ passes) :
    pass ∈ passesOf pass.task.handle passes :=
  List.mem_filter.2 ⟨h, beq_self_eq_true _⟩

/-- A pass comes last among those of its voice. -/
theorem passesOf_concat (passes : List Pass) {pass : Pass} (h : pass.task.handle = handle) :
    passesOf handle (passes ++ [pass]) = passesOf handle passes ++ [pass] := by
  simp [passesOf, h]

/-- A pass makes no difference to those of other voices. -/
theorem passesOf_concat_of_ne (passes : List Pass) {pass : Pass} (h : pass.task.handle ≠ handle) :
    passesOf handle (passes ++ [pass]) = passesOf handle passes := by
  simp [passesOf, h]

theorem passesOf_begunBy_self (now : Seconds) (epoch : Nat) (timer : Timer) (tasks : List Task) :
    passesOf timer.handle (begunBy now epoch timer tasks) = begunBy now epoch timer tasks :=
  List.filter_eq_self.2 fun _ hmem => beq_iff_eq.2 (handle_of_mem_begunBy hmem)

theorem passesOf_begunBy_of_ne {now : Seconds} (h : timer.handle ≠ handle) :
    passesOf handle (begunBy now epoch timer tasks) = [] :=
  List.filter_eq_nil_iff.2 fun _ hmem heq =>
    h ((handle_of_mem_begunBy hmem).symm.trans (beq_iff_eq.1 heq))

/-- A voice without a timer among those that fire begins no pass. -/
theorem passesOf_begun_of_not_mem (readings : Nat → Seconds) (tasks : List Task)
    (h : handle ∉ timers.map (·.handle)) :
    passesOf handle (begun epoch readings timers tasks) = [] := by
  induction timers generalizing readings tasks with
  | nil => rfl
  | cons timer timers ih =>
    rw [List.map_cons, List.mem_cons, not_or] at h
    rw [begun, passesOf_append, passesOf_begunBy_of_ne fun heq => h.1 heq.symm, ih _ _ h.2]
    rfl

theorem handle_of_mem_begun {pass : Pass} (h : pass ∈ begun epoch readings timers tasks) :
    pass.task.handle ∈ timers.map (·.handle) := by
  by_contra hnotin
  have hmem := mem_passesOf h
  rw [passesOf_begun_of_not_mem readings tasks hnotin] at hmem
  cases hmem

/-- A voice whose timer is among those that fire begins the passes that this timer alone
begins, from some reading on. -/
theorem passesOf_begun_of_mem (readings : Nat → Seconds) (tasks : List Task)
    (hnodup : (timers.map (·.handle)).Nodup) (h : timer ∈ timers) :
    ∃ anchor, passesOf timer.handle (begun epoch readings timers tasks) =
      begunBy anchor epoch timer tasks := by
  induction timers generalizing readings tasks with
  | nil => cases h
  | cons first timers ih =>
    obtain ⟨hfirst, hrest⟩ := List.nodup_cons.1 hnodup
    rw [begun, passesOf_append]
    rcases List.mem_cons.1 h with rfl | hlater
    · exact ⟨readings 0, by
        rw [passesOf_begunBy_self, passesOf_begun_of_not_mem _ _ hfirst, List.append_nil]⟩
    · have hne : first.handle ≠ timer.handle := fun heq =>
        hfirst (List.mem_map.2 ⟨timer, hlater, heq.symm⟩)
      obtain ⟨anchor, hpasses⟩ := ih (fun count => readings (count + 1))
        (fire (readings 0) epoch first tasks).tasks hrest hlater
      refine ⟨anchor, ?_⟩
      rw [passesOf_begunBy_of_ne hne, hpasses, List.nil_append, begunBy, begunBy,
        liveTask?, liveTask?, task?_fire_of_ne _ epoch tasks hne.symm]

/-- The timers after a poll wait for passes that began in it, or were not due. -/
theorem timers_pollEach {now : Seconds}
    (hmem : timer ∈ (scheduler.pollEach now readings).2.timers) :
    (∃ pass ∈ begun scheduler.epoch readings (scheduler.dueTimers now) scheduler.tasks,
      timer = pass.deadline scheduler.epoch) ∨ timer ∈ scheduler.laterTimers now := by
  have hmem := (timers_pollEach_perm now readings scheduler).mem_iff.1 hmem
  rw [rearmed_fireEach] at hmem
  rcases List.mem_append.1 hmem with hmem | hmem
  · obtain ⟨pass, hpass, rfl⟩ := List.mem_map.1 hmem
    exact .inl ⟨pass, hpass, rfl⟩
  · exact .inr hmem

/-- A timer that stays behind is not that of a voice whose timer fires. -/
theorem Coherent.not_due_of_later (h : scheduler.Coherent) {now : Seconds}
    (hmem : timer ∈ scheduler.laterTimers now) :
    timer.handle ∉ (scheduler.dueTimers now).map (·.handle) := by
  have hnodup := h.timers_nodup
  rw [← dueTimers_append_laterTimers now scheduler, List.map_append] at hnodup
  exact fun hdue => (List.nodup_append.1 hnodup).2.2 _ hdue _ (List.mem_map_of_mem hmem) rfl

/-- A voice that plays after a poll has begun again in it, once, or its timer was not due. -/
theorem Coherent.mem_pollEach_tasks (h : scheduler.Coherent) {now : Seconds}
    {readings : Nat → Seconds} {task : Task}
    (hmem : task ∈ (scheduler.pollEach now readings).2.tasks) :
    (∃ before ∈ scheduler.tasks, ∃ anchor, task = { before with passes := before.passes + 1 } ∧
      task.handle ∈ (scheduler.dueTimers now).map (·.handle) ∧
      passesOf task.handle
          (begun scheduler.epoch readings (scheduler.dueTimers now) scheduler.tasks) =
        [⟨before, anchor⟩]) ∨
    (task ∈ scheduler.tasks ∧ task.handle ∉ (scheduler.dueTimers now).map (·.handle)) := by
  rw [tasks_pollEach] at hmem
  have hafter := task?_eq_some_of_mem (coherent_poll h now).tasks_nodup hmem
  by_cases hdue : task.handle ∈ (scheduler.dueTimers now).map (·.handle)
  · obtain ⟨timer, htimer, hhandle⟩ := List.mem_map.1 hdue
    rw [← hhandle, h.task?_poll_of_due now htimer] at hafter
    obtain ⟨anchor, hpasses⟩ := passesOf_begun_of_mem readings
      scheduler.tasks (h.dueTimers_nodup now) htimer
    cases hlive : liveTask? scheduler.epoch scheduler.tasks timer with
    | none =>
      have htable := h.liveTask?_eq ((List.takeWhile_subset _) htimer)
      rw [hlive] at htable hafter
      rw [← htable] at hafter
      cases hafter
    | some before =>
      rw [hlive] at hafter
      dsimp only at hafter
      split at hafter
      · rename_i hlooping
        refine .inl ⟨before, mem_of_task? (task?_of_liveTask? hlive).1, anchor,
          (Option.some.inj hafter).symm, hdue, ?_⟩
        rw [← hhandle, hpasses, begunBy, hlive, Option.filter_some, if_pos hlooping]
        rfl
      · cases hafter
  · refine .inr ⟨?_, hdue⟩
    rw [poll_eq, firing, task?_fireAll_of_not_mem now _ _ hdue] at hafter
    exact mem_of_task? hafter

/-! ## Stale timers -/

/-- Whether a timer is stale depends on the task of its handle alone. -/
theorem liveTask?_congr {tasks' : List Task}
    (h : task? tasks timer.handle = task? tasks' timer.handle) :
    liveTask? epoch tasks timer = liveTask? epoch tasks' timer := by
  rw [liveTask?, liveTask?, h]

/-- At every firing of a poll, when some timers have fired before, a timer is stale exactly when
its voice is gone. -/
theorem Coherent.liveTask?_fireEach (h : scheduler.Coherent) {now : Seconds}
    (readings : Nat → Seconds) {before after : List Timer}
    (hdue : scheduler.dueTimers now = before ++ timer :: after) :
    liveTask? scheduler.epoch (fireEach scheduler.epoch readings before scheduler.tasks).tasks
        timer =
      task? (fireEach scheduler.epoch readings before scheduler.tasks).tasks timer.handle := by
  have hnodup := h.dueTimers_nodup now
  rw [hdue, List.map_append, List.map_cons] at hnodup
  have hnotin : timer.handle ∉ before.map (·.handle) := fun hmem =>
    (List.nodup_append.1 hnodup).2.2 _ hmem _ List.mem_cons_self rfl
  have hmem : timer ∈ scheduler.timers := by
    rw [← dueTimers_append_laterTimers now scheduler, hdue]
    exact List.mem_append_left _ (List.mem_append_right _ List.mem_cons_self)
  have hsame := task?_fireAll_of_not_mem now scheduler.epoch scheduler.tasks hnotin
  rw [tasks_fireEach now, liveTask?_congr hsame, h.liveTask?_eq hmem, hsame]

end Chiptune.Scheduler
