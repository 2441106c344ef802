/-
  What a poll brings about, and what a second one adds to it.

  A poll is told voice by voice: the voices whose timers are due, in the order of their
  deadlines, begin once more or end.  It makes no difference how the timers that wait are
  kept, since no two of them fire at the same place of the order.  When no voice begins again
  with a deadline that has passed already, nothing is due after a poll, and so further polls
  at the same time bring nothing about.
-/
import Chiptune.Proofs.Bookkeeping
import Mathlib.Data.List.TakeWhile

set_option autoImplicit false

namespace Chiptune.Timer

/-! ## Queues that are kept in any order -/

variable {timers queue fired rest : List Timer} {timer : Timer} {now : Seconds}

/-- No other timer of a queue fires before this one. -/
def IsFirst (timer : Timer) (queue : List Timer) : Prop :=
  timer ∈ queue ∧ ∀ other ∈ queue, other.precedes timer = false

/-- Timers are taken out of a queue, always one that comes first, until this one is not due.
The queue may be kept in any order. -/
inductive Drains (now : Seconds) : (queue fired rest : List Timer) → Prop where
  | stop {queue : List Timer}
      (hlater : ∀ timer : Timer, timer.IsFirst queue → ¬ timer.due ≤ now) :
      Drains now queue [] queue
  | take {queue fired rest : List Timer} {timer : Timer} (hfirst : timer.IsFirst queue)
      (hdue : timer.due ≤ now) (hothers : Drains now (queue.erase timer) fired rest) :
      Drains now queue (timer :: fired) rest

/-- Timers of different voices are never due at the same place of the order. -/
theorem eq_of_not_precedes {first second : Timer} (hnodup : (timers.map (·.handle)).Nodup)
    (hfirst : first ∈ timers) (hsecond : second ∈ timers)
    (h : second.precedes first = false) (h' : first.precedes second = false) :
    first = second := by
  rw [precedes_eq_false_iff] at h h'
  have hhandle : first.handle = second.handle := by
    simp only [VoiceId] at h h' ⊢
    omega
  exact List.inj_on_of_nodup_map hnodup hfirst hsecond hhandle

/-- There is one way only to keep timers in order. -/
theorem eq_of_ordered {others : List Timer} (hnodup : (timers.map (·.handle)).Nodup)
    (hperm : others.Perm timers) (hordered : Ordered timers) (hothers : Ordered others) :
    others = timers :=
  hperm.eq_of_pairwise
    (fun _ _ hfirst hsecond h h' =>
      eq_of_not_precedes hnodup (hperm.mem_iff.1 hfirst) hsecond h h')
    hothers hordered

/-- The timers in front of a queue in order come first however the queue is kept. -/
theorem isFirst_iff (hnodup : ((timer :: timers).map (·.handle)).Nodup)
    (hordered : Ordered (timer :: timers)) (hperm : queue.Perm (timer :: timers))
    (other : Timer) : other.IsFirst queue ↔ other = timer := by
  have hbehind : ∀ later ∈ timer :: timers, later.precedes timer = false := by
    intro later hlater
    rcases List.mem_cons.1 hlater with rfl | hlater
    · simp [precedes]
    · exact (List.pairwise_cons.1 hordered).1 later hlater
  constructor
  · rintro ⟨hmem, hfirst⟩
    have hin := hperm.mem_iff.1 hmem
    exact eq_of_not_precedes hnodup hin List.mem_cons_self
      (hfirst timer (hperm.mem_iff.2 List.mem_cons_self)) (hbehind other hin)
  · rintro rfl
    exact ⟨hperm.mem_iff.2 List.mem_cons_self, fun later hlater =>
      hbehind later (hperm.mem_iff.1 hlater)⟩

/-- However a queue is kept, taking timers out of it comes to an end, with the timers that are
due in front of the queue in order. -/
theorem exists_drains (now : Seconds) (hnodup : (timers.map (·.handle)).Nodup)
    (hordered : Ordered timers) (hperm : queue.Perm timers) :
    ∃ rest, Drains now queue (timers.takeWhile fun timer => decide (timer.due ≤ now)) rest := by
  induction timers generalizing queue with
  | nil =>
    obtain rfl := hperm.eq_nil
    exact ⟨[], .stop fun timer h => absurd h.1 List.not_mem_nil⟩
  | cons timer timers ih =>
    have hfirst := isFirst_iff hnodup hordered hperm
    by_cases hdue : timer.due ≤ now
    · obtain ⟨rest, hrest⟩ := ih (List.nodup_cons.1 hnodup).2 (List.pairwise_cons.1 hordered).2
        (List.erase_cons_head timer timers ▸ hperm.erase timer)
      rw [List.takeWhile_cons_of_pos (by simpa using hdue)]
      exact ⟨rest, .take ((hfirst timer).2 rfl) hdue hrest⟩
    · rw [List.takeWhile_cons_of_neg (by simpa using hdue)]
      exact ⟨queue, .stop fun other hother => (hfirst other).1 hother ▸ hdue⟩

/-- It never comes to another end. -/
theorem eq_of_drains (hnodup : (timers.map (·.handle)).Nodup) (hordered : Ordered timers)
    (hperm : queue.Perm timers) (h : Drains now queue fired rest) :
    fired = timers.takeWhile (fun timer => decide (timer.due ≤ now)) ∧
      rest.Perm (timers.dropWhile fun timer => decide (timer.due ≤ now)) := by
  induction h generalizing timers with
  | stop hlater =>
    cases timers with
    | nil => exact ⟨rfl, hperm⟩
    | cons timer timers =>
      have hdue := hlater timer ((isFirst_iff hnodup hordered hperm _).2 rfl)
      rw [List.takeWhile_cons_of_neg (by simpa using hdue),
        List.dropWhile_cons_of_neg (by simpa using hdue)]
      exact ⟨rfl, hperm⟩
  | take hfirst hdue _ ih =>
    cases timers with
    | nil => exact absurd (hperm.mem_iff.1 hfirst.1) List.not_mem_nil
    | cons timer timers =>
      obtain rfl := ((isFirst_iff hnodup hordered hperm _).1 hfirst).symm
      obtain ⟨hfired, hrest⟩ := ih (List.nodup_cons.1 hnodup).2
        (List.pairwise_cons.1 hordered).2 (List.erase_cons_head timer timers ▸ hperm.erase timer)
      rw [List.takeWhile_cons_of_pos (by simpa using hdue),
        List.dropWhile_cons_of_pos (by simpa using hdue), ← hfired]
      exact ⟨rfl, hrest⟩

end Chiptune.Timer

namespace Chiptune.Task

/-- What is sent to a voice that is due: its tones once more if it loops, and otherwise its
release. -/
def dueSignals (now : Seconds) (task : Task) : List Signal :=
  if task.looping then programme task.voice.oscillator task.tones now
  else task.voice.release now

/-- The timer of a voice that begins again at a time. -/
def nextTimer (now : Seconds) (epoch : Nat) (task : Task) : Timer :=
  ⟨now + task.total, task.handle, epoch⟩

end Chiptune.Task

namespace Chiptune.Scheduler

variable {scheduler : Scheduler} {now : Seconds}

/-! ## Voices that are due -/

/-- The timer that a voice waits for. -/
def timer? (scheduler : Scheduler) (handle : VoiceId) : Option Timer :=
  scheduler.timers.find? (·.handle == handle)

/-- The voices that are due at a time, each with its timer: by their deadlines and, where
these are equal, by their handles. -/
def dueVoices (now : Seconds) (scheduler : Scheduler) : List (Timer × Task) :=
  let waiting := scheduler.tasks.filterMap fun task =>
    (scheduler.timer? task.handle).map (·, task)
  (waiting.filter fun voice => voice.1.due ≤ now).mergeSort
    fun first second => !second.1.precedes first.1

namespace Coherent

/-- A voice waits for a timer exactly when the timer has its handle. -/
theorem timer?_eq_some_iff (h : scheduler.Coherent) {handle : VoiceId} {timer : Timer} :
    scheduler.timer? handle = some timer ↔
      timer ∈ scheduler.timers ∧ timer.handle = handle := by
  constructor
  · intro hfound
    exact ⟨List.mem_of_find?_eq_some hfound, by simpa using List.find?_some hfound⟩
  · rintro ⟨hmem, rfl⟩
    obtain ⟨other, hother⟩ := Option.isSome_iff_exists.1
      (List.find?_isSome.2 ⟨timer, hmem, beq_self_eq_true _⟩ :
        (scheduler.timers.find? fun other => other.handle == timer.handle).isSome)
    have hhandle : other.handle = timer.handle := by simpa using List.find?_some hother
    rw [timer?, hother, h.timer_unique (List.mem_of_find?_eq_some hother) hmem hhandle]

/-- A task is found under a handle exactly when it has it. -/
theorem task?_eq_some_iff (h : scheduler.Coherent) {handle : VoiceId} {task : Task} :
    task? scheduler.tasks handle = some task ↔
      task ∈ scheduler.tasks ∧ task.handle = handle := by
  constructor
  · intro hfound
    exact ⟨mem_of_task? hfound, handle_of_task? hfound⟩
  · rintro ⟨hmem, rfl⟩
    exact task?_eq_some_of_mem h.tasks_nodup hmem

theorem mem_dueVoices_iff (h : scheduler.Coherent) {timer : Timer} {task : Task} :
    (timer, task) ∈ scheduler.dueVoices now ↔
      timer ∈ scheduler.timers ∧ task ∈ scheduler.tasks ∧ timer.handle = task.handle ∧
        timer.due ≤ now := by
  simp only [dueVoices, List.mem_mergeSort, List.mem_filter, List.mem_filterMap,
    Option.map_eq_some_iff, h.timer?_eq_some_iff, Prod.mk.injEq, decide_eq_true_eq]
  constructor
  · rintro ⟨⟨_, htask, _, ⟨htimer, hhandle⟩, rfl, rfl⟩, hdue⟩
    exact ⟨htimer, htask, hhandle, hdue⟩
  · rintro ⟨htimer, htask, hhandle, hdue⟩
    exact ⟨⟨task, htask, timer, ⟨htimer, hhandle⟩, rfl, rfl⟩, hdue⟩

theorem nodup_dueVoices (h : scheduler.Coherent) : (scheduler.dueVoices now).Nodup := by
  refine (List.mergeSort_perm _ _).nodup_iff.2 (List.Nodup.filter _ ?_)
  refine List.Nodup.filterMap (fun first second voice hfirst hsecond => ?_)
    (.of_map _ h.tasks_nodup)
  obtain ⟨_, -, rfl⟩ := Option.map_eq_some_iff.1 hfirst
  obtain ⟨_, -, heq⟩ := Option.map_eq_some_iff.1 hsecond
  exact (Prod.mk.inj heq).2.symm

theorem ordered_dueVoices (now : Seconds) (scheduler : Scheduler) :
    (scheduler.dueVoices now).Pairwise fun first second => !second.1.precedes first.1 :=
  List.pairwise_mergeSort
    (fun first second third h h' => by
      simp only [Bool.not_eq_true'] at *
      exact Timer.precedes_trans_false h h')
    (fun first second => by
      cases hprecedes : second.1.precedes first.1 with
      | false => rfl
      | true => simp [Timer.precedes_asymm hprecedes])
    _

/-- The voices that are due are those of the timers that fire, in their order. -/
theorem dueVoices_eq (h : scheduler.Coherent) (hnumeric : Timer.Numeric scheduler.timers) :
    scheduler.dueVoices now = (scheduler.dueTimers now).filterMap fun timer =>
      (task? scheduler.tasks timer.handle).map (timer, ·) := by
  have hordered : ((scheduler.dueTimers now).filterMap fun timer =>
      (task? scheduler.tasks timer.handle).map (timer, ·)).Pairwise
        fun first second => !second.1.precedes first.1 := by
    refine List.Pairwise.filterMap _ (fun first second hbefore => ?_)
      (h.ordered.sublist (List.takeWhile_sublist _))
    rintro voice hvoice other hother
    obtain ⟨_, -, rfl⟩ := Option.map_eq_some_iff.1 hvoice
    obtain ⟨_, -, rfl⟩ := Option.map_eq_some_iff.1 hother
    simpa using hbefore
  have hnodup : ((scheduler.dueTimers now).filterMap fun timer =>
      (task? scheduler.tasks timer.handle).map (timer, ·)).Nodup := by
    refine List.Nodup.filterMap (fun first second voice hfirst hsecond => ?_)
      (.of_map _ (h.dueTimers_nodup now))
    obtain ⟨_, -, rfl⟩ := Option.map_eq_some_iff.1 hfirst
    obtain ⟨_, -, heq⟩ := Option.map_eq_some_iff.1 hsecond
    exact (Prod.mk.inj heq).1.symm
  have hmem : ∀ voice, voice ∈ scheduler.dueVoices now ↔
      voice ∈ (scheduler.dueTimers now).filterMap fun timer =>
        (task? scheduler.tasks timer.handle).map (timer, ·) := by
    rintro ⟨timer, task⟩
    rw [h.mem_dueVoices_iff]
    simp only [List.mem_filterMap, Option.map_eq_some_iff, h.task?_eq_some_iff, Prod.mk.injEq]
    constructor
    · rintro ⟨htimer, htask, hhandle, hdue⟩
      exact ⟨timer, (h.mem_dueTimers_iff hnumeric now htimer).2 hdue, task,
        ⟨htask, hhandle.symm⟩, rfl, rfl⟩
    · rintro ⟨_, htimer, _, ⟨htask, hhandle⟩, rfl, rfl⟩
      have hwaits := List.takeWhile_subset _ htimer
      exact ⟨hwaits, htask, hhandle.symm, (h.mem_dueTimers_iff hnumeric now hwaits).1 htimer⟩
  refine ((List.perm_ext_iff_of_nodup h.nodup_dueVoices hnodup).2 hmem).eq_of_pairwise
    (fun first second hfirst hsecond hle hge => ?_) (ordered_dueVoices now scheduler) hordered
  -- two voices that stand at one place of the order have one timer, and so one handle
  obtain ⟨htimer, htask, hhandle, -⟩ := h.mem_dueVoices_iff.1 hfirst
  obtain ⟨htimer', htask', hhandle', -⟩ := h.mem_dueVoices_iff.1 ((hmem second).2 hsecond)
  have htimers : first.1 = second.1 := Timer.eq_of_not_precedes h.timers_nodup htimer htimer'
    (by simpa using hle) (by simpa using hge)
  exact Prod.ext htimers (List.inj_on_of_nodup_map h.tasks_nodup htask htask'
    (hhandle.symm.trans ((congrArg Timer.handle htimers).trans hhandle')))

/-- What the timers that fire bring about is told voice by voice. -/
theorem flatMap_dueTimers {α : Type} (h : scheduler.Coherent)
    (hnumeric : Timer.Numeric scheduler.timers) {told : Timer → List α} {voiced : Task → List α}
    (htold : ∀ timer ∈ scheduler.timers,
      told timer = ((task? scheduler.tasks timer.handle).map voiced).getD []) :
    (scheduler.dueTimers now).flatMap told =
      (scheduler.dueVoices now).flatMap fun voice => voiced voice.2 := by
  rw [h.dueVoices_eq hnumeric, List.filterMap_eq_flatMap_toList, List.flatMap_assoc]
  refine List.flatMap_congr fun timer hmem => ?_
  rw [htold timer (List.takeWhile_subset _ hmem)]
  cases task? scheduler.tasks timer.handle with
  | none => rfl
  | some task => simp

/-- What one timer brings about is told by the voice of its handle. -/
theorem fire_told (h : scheduler.Coherent) {timer : Timer} (hmem : timer ∈ scheduler.timers)
    (now : Seconds) :
    let firing := fire now scheduler.epoch timer scheduler.tasks
    let voice := task? scheduler.tasks timer.handle
    firing.signals = (voice.map (Task.dueSignals now)).getD [] ∧
      firing.announced = (voice.map fun task =>
        if !task.looping && task.announced then [task.handle] else []).getD [] ∧
      firing.ended =
        (voice.map fun task => if !task.looping then [task.handle] else []).getD [] ∧
      firing.rearmed = (voice.map fun task =>
        if task.looping then [task.nextTimer now scheduler.epoch] else []).getD [] := by
  rw [← h.liveTask?_eq hmem]
  rcases fire_cases now scheduler.epoch timer scheduler.tasks with
    ⟨hlive, hfire⟩ | ⟨task, hlive, hhandle, hlooping, hfire⟩ |
      ⟨task, hlive, hhandle, hlooping, hfire⟩
  · simp [hlive, hfire]
  · simp [hlive, hfire, hhandle, hlooping, Task.dueSignals, Task.nextTimer]
  · simp [hlive, hfire, hhandle, hlooping, Task.dueSignals]

end Coherent

/-- Telling of some members only is telling of those that are left. -/
theorem flatMap_if {α β : Type} (p : α → Bool) (f : α → β) (members : List α) :
    (members.flatMap fun member => if p member then [f member] else []) =
      (members.filter p).map f := by
  induction members with
  | nil => rfl
  | cons member members ih =>
    cases hp : p member <;> simp [hp, ih]

/-! ## A poll, voice by voice -/

/-- What a poll brings about. -/
structure Polled (now : Seconds) (scheduler : Scheduler) : Prop where
  /-- Voices that ended when they started are reported first, in the order in which they were
  started. -/
  early : scheduler.endedEarly.Pairwise (· < ·)
  ended : (scheduler.poll now).1.ended = scheduler.endedEarly ++
    ((scheduler.dueVoices now).filter fun voice => !voice.2.looping).map (·.2.handle)
  /-- Each voice that is due is told once, to begin again or to end. -/
  signals : (scheduler.poll now).1.signals =
    (scheduler.dueVoices now).flatMap fun voice => voice.2.dueSignals now
  announced : (scheduler.poll now).1.announced =
    ((scheduler.dueVoices now).filter fun voice =>
      !voice.2.looping && voice.2.announced).map (·.2.handle)
  /-- The timers that were due are gone, stale or not; those that were not due stay, and there
  is a new one for each voice that begins again. -/
  timers : (scheduler.poll now).2.timers.Perm
    (((scheduler.dueVoices now).filter fun voice => voice.2.looping).map
        (fun voice => voice.2.nextTimer now scheduler.epoch) ++
      scheduler.timers.filter fun timer => !decide (timer.due ≤ now))
  /-- However the timers that wait are kept, taking those that are due out of them comes to an
  end, always with the timers that fire here and the others left. -/
  drained : ∀ queue : List Timer, queue.Perm scheduler.timers →
    (∃ rest, Timer.Drains now queue (scheduler.dueTimers now) rest) ∧
      ∀ fired rest, Timer.Drains now queue fired rest →
        fired = scheduler.dueTimers now ∧ rest.Perm (scheduler.laterTimers now)
  /-- Nor does it matter in which order they were armed. -/
  rearranged : ∀ armed : List Timer, armed.Perm scheduler.timers →
    { scheduler with
      timers := armed.foldl (fun timers (timer : Timer) => timer.arm timers) [] }.poll now =
      scheduler.poll now

theorem Coherent.polled (h : scheduler.Coherent) (hnumeric : Timer.Numeric scheduler.timers)
    (hearly : scheduler.endedEarly.Pairwise (· < ·)) (now : Seconds) : scheduler.Polled now := by
  have hnodup := h.dueTimers_nodup now
  have htold := fun timer (hmem : timer ∈ scheduler.timers) => h.fire_told hmem now
  refine
    { early := hearly, ended := ?_, signals := ?_, announced := ?_, timers := ?_
      drained := fun queue hperm => ⟨Timer.exists_drains now h.timers_nodup h.ordered hperm,
        fun _ _ => Timer.eq_of_drains h.timers_nodup h.ordered hperm⟩
      rearranged := fun armed hperm => ?_ }
  · rw [poll_eq, firing, ended_fireAll now _ _ hnodup,
      h.flatMap_dueTimers hnumeric fun timer hmem => (htold timer hmem).2.2.1, flatMap_if]
  · rw [poll_eq, firing, signals_fireAll now _ _ hnodup,
      h.flatMap_dueTimers hnumeric fun timer hmem => (htold timer hmem).1]
  · rw [poll_eq, firing, announced_fireAll now _ _ hnodup,
      h.flatMap_dueTimers hnumeric fun timer hmem => (htold timer hmem).2.1, flatMap_if]
  · rw [← (Timer.takeWhile_due now h.ordered hnumeric).2, ← flatMap_if,
      ← h.flatMap_dueTimers hnumeric fun timer hmem => (htold timer hmem).2.2.2,
      ← rearmed_fireAll now _ _ hnodup]
    exact timers_poll_perm now scheduler
  · have hsame := Timer.eq_of_ordered h.timers_nodup
      ((Timer.foldl_arm_perm armed []).trans (by rwa [List.append_nil])) h.ordered
      (Timer.ordered_foldl_arm armed .nil)
    rw [hsame]

/-! ## Polls in a run -/

namespace History

/-- Voices that end when they start take their places behind those that did so before. -/
theorem early_perform {history : History} (h : history.Booked)
    (hearly : history.scheduler.endedEarly.Pairwise (· < ·)) (request : Request) :
    (history.perform request).scheduler.endedEarly.Pairwise (· < ·) := by
  cases request with
  | start now voice tones looping announced =>
    rcases start_cases now voice tones looping announced history.scheduler with
      ⟨-, -, hstart⟩ | ⟨-, -, hstart⟩ | ⟨-, -, hstart⟩
    · simpa only [perform, hstart] using hearly
    · simp only [perform, hstart]
      refine List.pairwise_append.2 ⟨hearly, List.pairwise_singleton _ _, ?_⟩
      rintro handle hmem _ hnext
      exact List.mem_singleton.1 hnext ▸ h.coherent.early_below handle hmem
    · simpa only [perform, hstart] using hearly
  | cancel now handle =>
    rcases cancel_cases now handle history.scheduler with ⟨-, hcancel⟩ | ⟨task, -, hcancel⟩
    · simpa only [perform, hcancel] using hearly
    · simpa only [perform, hcancel] using hearly
  | cancelEvery now => exact .nil
  | poll now readings => exact .nil

theorem early_after {history : History} (h : history.Booked)
    (hearly : history.scheduler.endedEarly.Pairwise (· < ·)) (requests : List Request) :
    (history.after requests).scheduler.endedEarly.Pairwise (· < ·) := by
  induction requests generalizing history with
  | nil => exact hearly
  | cons request requests ih => exact ih (h.perform request) (early_perform h hearly request)

end History

/-- **A poll goes by the deadlines.**  Whatever has been asked of a scheduler, as long as no
deadline is undefined, a poll reports the voices that ended when they started, and then lets
those that are due begin again or end, one after the other in the order of their deadlines and
handles. -/
theorem polled_after (requests : List Request) (now : Seconds)
    (hnumeric : Timer.Numeric (History.fresh.after requests).scheduler.timers) :
    (History.fresh.after requests).scheduler.Polled now :=
  (History.booked_fresh.after requests).coherent.polled hnumeric
    (History.early_after History.booked_fresh .nil requests) now

/-- Two voices of one second, of which the first one loops; a voice without tones; and a voice
of half a second that is cancelled. -/
def mixedVoices : List Request :=
  [.start (.ofFloat 0) ⟨⟨1, 1, [1]⟩⟩ [⟨440, .ofFloat 1⟩] true false,
    .start (.ofFloat 0) ⟨⟨2, 2, [2]⟩⟩ [⟨220, .ofFloat 0.5⟩, ⟨110, .ofFloat 0.5⟩] false true,
    .start (.ofFloat 0) ⟨⟨3, 3, [3]⟩⟩ [] false true,
    .start (.ofFloat 0) ⟨⟨4, 4, [4]⟩⟩ [⟨330, .ofFloat 0.5⟩] false true,
    .cancel (.ofFloat 0.25) 3]

/-- The timer of the cancelled voice goes without effect, and the loop begins again before the
other voice ends, which is due at the same time. -/
theorem polled_mixedVoices :
    let scheduler := (History.fresh.after mixedVoices).scheduler
    Timer.Numeric scheduler.timers ∧ scheduler.Polled (.ofFloat 1) ∧
      (scheduler.poll (.ofFloat 1)).1.ended = [2, 1] ∧
      (scheduler.poll (.ofFloat 1)).1.signals =
        [.tune 1 440 (.ofFloat 1), .stop 2 (.ofFloat 1), .detach 2] ∧
      (scheduler.poll (.ofFloat 1)).2.timers = [⟨.ofFloat 2, 0, 0⟩] := by
  have hnumeric : Timer.Numeric (History.fresh.after mixedVoices).scheduler.timers := by
    decide +kernel
  exact ⟨hnumeric, polled_after mixedVoices (.ofFloat 1) hnumeric, by decide +kernel,
    by decide +kernel, by decide +kernel⟩

/-! ## Further polls -/

/-- What a poll brings about that finds nothing to do. -/
def Poll.quiet : Poll := ⟨[], [], []⟩

/-- Where no timer is due a poll reports the voices that ended when they started, and nothing
else happens. -/
theorem poll_of_none_due (h : ∀ timer ∈ scheduler.timers, ¬ timer.due ≤ now) :
    scheduler.poll now =
      (⟨scheduler.endedEarly, [], []⟩, { scheduler with endedEarly := [] }) := by
  have hnone : scheduler.dueTimers now = [] := by
    rw [dueTimers, List.takeWhile_eq_nil_iff]
    intro hpos
    simpa using h _ (List.getElem_mem hpos)
  have hall : scheduler.laterTimers now = scheduler.timers := by
    simpa [hnone] using dueTimers_append_laterTimers now scheduler
  rw [poll_eq, firing, hnone, hall, fireAll, List.append_nil, List.foldl_nil]

/-- Nothing is due after a poll if every voice that loops has its next deadline behind it. -/
theorem Coherent.none_due_poll (h : scheduler.Coherent) (hpolled : scheduler.Polled now)
    (hadvance : ∀ task ∈ scheduler.tasks, task.looping = true →
      isStuckLoop now task.total = false) :
    ∀ timer ∈ (scheduler.poll now).2.timers, ¬ timer.due ≤ now := by
  intro timer hmem
  rcases List.mem_append.1 (hpolled.timers.mem_iff.1 hmem) with hmem | hmem
  · obtain ⟨⟨_, task⟩, hvoice, rfl⟩ := List.mem_map.1 hmem
    obtain ⟨hvoice, hlooping⟩ := List.mem_filter.1 hvoice
    have hstuck := hadvance task (h.mem_dueVoices_iff.1 hvoice).2.1 hlooping
    rw [isStuckLoop, Bool.or_eq_false_iff] at hstuck
    exact of_decide_eq_false hstuck.2
  · simpa using (List.mem_filter.1 hmem).2

/-- Polls several times at one time. -/
def pollTimes (now : Seconds) : Nat → Scheduler → List Poll × Scheduler
  | 0, scheduler => ([], scheduler)
  | count + 1, scheduler =>
    let (first, scheduler) := scheduler.poll now
    let (others, scheduler) := pollTimes now count scheduler
    (first :: others, scheduler)

/-- A scheduler of which a poll makes nothing is left as it is by any number of polls. -/
theorem pollTimes_of_settled (h : scheduler.poll now = (.quiet, scheduler)) (count : Nat) :
    scheduler.pollTimes now count = (List.replicate count .quiet, scheduler) := by
  induction count with
  | zero => rfl
  | succ count ih =>
    simp only [pollTimes, h, ih]
    rfl

/-- **It is enough to poll once.**  Whatever has been asked of a scheduler, as long as no
deadline is undefined and the deadline of every loop moves on from this time, a second poll at
the time of the first one reports no voice, sends nothing, announces nothing and changes
nothing; nor does any number of polls. -/
theorem poll_settles (requests : List Request) (now : Seconds)
    (hnumeric : Timer.Numeric (History.fresh.after requests).scheduler.timers)
    (hadvance : ∀ task ∈ (History.fresh.after requests).scheduler.tasks,
      task.looping = true → isStuckLoop now task.total = false) :
    let scheduler := (History.fresh.after requests).scheduler
    (scheduler.poll now).2.poll now = (.quiet, (scheduler.poll now).2) ∧
      ∀ count, scheduler.pollTimes now (count + 1) =
        ((scheduler.poll now).1 :: List.replicate count .quiet, (scheduler.poll now).2) := by
  intro scheduler
  have hcoherent : scheduler.Coherent := (History.booked_fresh.after requests).coherent
  have hpolled : scheduler.Polled now :=
    hcoherent.polled hnumeric (History.early_after History.booked_fresh .nil requests) now
  have hsettled : (scheduler.poll now).2.poll now = (.quiet, (scheduler.poll now).2) :=
    poll_of_none_due (hcoherent.none_due_poll hpolled hadvance)
  refine ⟨hsettled, fun count => ?_⟩
  simp only [pollTimes, pollTimes_of_settled hsettled]

/-- A loop whose length is lost in the precision of the clock begins again at every poll. -/
example :
    let scheduler := (History.fresh.after
      [.start (.ofFloat 0) ⟨⟨1, 1, [1]⟩⟩ [⟨440, .ofFloat 1.5e-14⟩] true false]).scheduler
    (scheduler.pollTimes (.ofFloat 10000) 2).2.passes 0 = some 3 := by
  decide +kernel

/-- The loop of a second is polled late, and again at the same time. -/
theorem poll_settles_mixedVoices :
    let scheduler := (History.fresh.after mixedVoices).scheduler
    Timer.Numeric scheduler.timers ∧
      (∀ task ∈ scheduler.tasks, task.looping = true →
        isStuckLoop (.ofFloat 1.25) task.total = false) ∧
      (scheduler.poll (.ofFloat 1.25)).1.ended = [2, 1] ∧
      (scheduler.poll (.ofFloat 1.25)).2.poll (.ofFloat 1.25) =
        (.quiet, (scheduler.poll (.ofFloat 1.25)).2) := by
  have hnumeric : Timer.Numeric (History.fresh.after mixedVoices).scheduler.timers := by
    decide +kernel
  have hadvance : ∀ task ∈ (History.fresh.after mixedVoices).scheduler.tasks,
      task.looping = true → isStuckLoop (.ofFloat 1.25) task.total = false := by
    decide +kernel
  exact ⟨hnumeric, hadvance, by decide +kernel,
    (poll_settles mixedVoices (.ofFloat 1.25) hnumeric hadvance).1⟩

end Chiptune.Scheduler
