/-
  Loops in time.

  A voice that loops begins again when a poll finds it ended, from the time that this poll
  reads.  So its passes follow each other without running into each other, each of them
  late by no more than the polls are apart, and the steps of an oscillator that one voice
  drives never go back.
-/
import Mathlib.Tactic.MkIffOfInductiveProp
import Chiptune.Proofs.StepLog

set_option autoImplicit false

namespace Chiptune

open AudioGraph
open Scheduler (Pass passesOf)

namespace Scheduler

/-! ## What begins at a poll -/

variable {scheduler : Scheduler} {now : Seconds} {pass : Pass}

theorem anchor_of_mem_begun {epoch : Nat} {readings : Nat → Seconds} {timers : List Timer}
    {tasks : List Task} (h : pass ∈ begun epoch readings timers tasks) :
    ∃ count, pass.anchor = readings count := by
  induction timers generalizing readings tasks with
  | nil => cases h
  | cons timer timers ih =>
    rcases List.mem_append.1 h with h | h
    · obtain ⟨task, -, rfl⟩ := List.mem_map.1 h
      exact ⟨0, rfl⟩
    · obtain ⟨count, hcount⟩ := ih h
      exact ⟨count + 1, hcount⟩

/-- A timer begins one pass at most, of a voice that was playing. -/
theorem begunBy_of_mem {epoch : Nat} {timer : Timer} {tasks : List Task}
    (h : pass ∈ begunBy now epoch timer tasks) :
    begunBy now epoch timer tasks = [pass] ∧ pass.task ∈ tasks := by
  obtain ⟨task, htask, rfl⟩ := List.mem_map.1 h
  have hlive := Option.mem_toList.1 htask
  refine ⟨by rw [begunBy, hlive]; rfl, ?_⟩
  exact mem_of_task? (task?_of_liveTask? (Option.filter_eq_some_iff.1 hlive).1).1

/-- A pass that a poll begins is the only one of its voice, which was playing and due. -/
theorem Coherent.of_mem_begunAt (h : scheduler.Coherent) (hmem : pass ∈ scheduler.begunAt now) :
    pass.task ∈ scheduler.tasks ∧ pass.anchor = now ∧
      pass.task.handle ∈ (scheduler.dueTimers now).map (·.handle) ∧
      passesOf pass.task.handle (scheduler.begunAt now) = [pass] := by
  obtain ⟨-, hanchor⟩ := anchor_of_mem_begun hmem
  have hdue := handle_of_mem_begun hmem
  obtain ⟨timer, htimer, hhandle⟩ := List.mem_map.1 hdue
  obtain ⟨anchor, hpasses⟩ : ∃ anchor, passesOf timer.handle (scheduler.begunAt now) =
      begunBy anchor scheduler.epoch timer scheduler.tasks :=
    passesOf_begun_of_mem _ scheduler.tasks (h.dueTimers_nodup now) htimer
  have hown := mem_passesOf hmem
  rw [← hhandle, hpasses] at hown
  obtain ⟨honly, htask⟩ := begunBy_of_mem hown
  exact ⟨htask, hanchor, hdue, by rw [← hhandle, hpasses, honly]⟩

/-- A voice that plays after a poll has begun again, or was not due. -/
theorem Coherent.mem_poll_tasks (h : scheduler.Coherent) {task : Task}
    (hmem : task ∈ (scheduler.poll now).2.tasks) :
    (∃ pass ∈ scheduler.begunAt now, task = { pass.task with passes := pass.task.passes + 1 }) ∨
      (task ∈ scheduler.tasks ∧ task.handle ∉ (scheduler.dueTimers now).map (·.handle)) := by
  rw [← pollEach_const] at hmem
  rcases h.mem_pollEach_tasks hmem with ⟨before, -, anchor, rfl, -, hpasses⟩ | hkept
  · refine .inl ⟨⟨before, anchor⟩, ?_, rfl⟩
    exact (List.mem_filter.1 (hpasses ▸ List.mem_singleton_self _)).1
  · exact .inr hkept

theorem timers_poll {timer : Timer} (hmem : timer ∈ (scheduler.poll now).2.timers) :
    (∃ pass ∈ scheduler.begunAt now, timer = pass.deadline scheduler.epoch) ∨
      timer ∈ scheduler.laterTimers now := by
  rw [← pollEach_const] at hmem
  exact timers_pollEach hmem

end Scheduler

namespace Stage

/-! ## What a move does to the voices -/

/-- A move begins no pass, and no voice plays that did not before. -/
structure Quiet (move : Move) (stage : Stage Recorder) : Prop where
  isPoll : move.isPoll = false
  passes : move.passes stage = []
  tasks : (move.perform stage).scheduler.tasks ⊆ stage.scheduler.tasks
  timers : (move.perform stage).scheduler.timers = stage.scheduler.timers
  nextHandle : stage.scheduler.nextHandle ≤ (move.perform stage).scheduler.nextHandle

/-- A move starts a voice, whose first pass begins. -/
structure Starts (move : Move) (stage : Stage Recorder) (task : Task) : Prop where
  isPoll : move.isPoll = false
  reads : move.reads = true
  voice : move.voice? = some task.voice
  tones : move.tones = task.tones
  total : task.total = Tone.totalLength task.tones
  handle : task.handle = stage.scheduler.nextHandle
  passes : move.passes stage = [⟨task, now stage.graph⟩]
  tasks : (move.perform stage).scheduler.tasks = stage.scheduler.tasks ++ [task]
  timers : ∃ epoch, (move.perform stage).scheduler.timers.Perm
    (Pass.deadline epoch ⟨task, now stage.graph⟩ :: stage.scheduler.timers)
  nextHandle : (move.perform stage).scheduler.nextHandle = stage.scheduler.nextHandle + 1

variable {stage : Stage Recorder} {move : Move}

/-- A move is a poll, or it starts one voice at most. -/
theorem move_cases (move : Move) (stage : Stage Recorder) :
    Quiet move stage ∨ (∃ task, Starts move stage task) ∨ move = .take .poll := by
  cases move with
  | build | host =>
    exact .inl ⟨rfl, rfl, List.Subset.refl _, rfl, Nat.le_refl _⟩
  | take step =>
    have hnext : stage.scheduler.nextHandle ≤ _ := nextHandle_le_perform step stage
    cases step with
    | start voice tones looping announced =>
      rcases Scheduler.start_cases (now stage.graph) voice tones looping announced
        stage.scheduler with ⟨-, -, hstart⟩ | ⟨-, -, hstart⟩ | ⟨-, -, hstart⟩
      · left
        refine ⟨rfl, ?_, ?_, ?_, hnext⟩ <;>
          simp [Move.passes, Move.perform, perform, hstart]
      · left
        refine ⟨rfl, ?_, ?_, ?_, hnext⟩ <;>
          simp [Move.passes, Move.perform, perform, hstart]
      · refine .inr (.inl ⟨⟨stage.scheduler.nextHandle, voice, tones, looping,
          Tone.totalLength tones, stage.scheduler.epoch, 1, announced⟩, ?_⟩)
        refine ⟨rfl, rfl, rfl, rfl, rfl, rfl, ?_, ?_, ⟨stage.scheduler.epoch, ?_⟩, ?_⟩
        · simp only [Move.passes, hstart, List.drop_left]
          rfl
        · simp only [Move.perform, perform, hstart]
        · simp only [Move.perform, perform, hstart]
          exact Timer.arm_perm _ _
        · simp only [Move.perform, perform, hstart]
    | cancel handle =>
      left
      rcases Scheduler.cancel_cases (now stage.graph) handle stage.scheduler with
        ⟨-, hcancel⟩ | ⟨task, -, hcancel⟩
      · refine ⟨rfl, rfl, ?_, ?_, hnext⟩ <;> simp [Move.perform, perform, hcancel]
      · refine ⟨rfl, rfl, ?_, ?_, hnext⟩ <;>
          simp [Move.perform, perform, hcancel, Scheduler.withoutTask]
    | cancelEvery => exact .inl ⟨rfl, rfl, List.nil_subset _, rfl, hnext⟩
    | poll => exact .inr (.inr rfl)
    | setClock time => exact .inl ⟨rfl, rfl, List.Subset.refl _, rfl, hnext⟩

theorem coherent_move (move : Move) (h : stage.scheduler.Coherent) :
    (move.perform stage).scheduler.Coherent := by
  cases move with
  | build | host => exact h
  | take step => exact coherent_perform step h

/-- Every pass of a move begins when the clock is read. -/
theorem anchor_of_mem_passes {pass : Pass} (h : pass ∈ move.passes stage) :
    pass.anchor = now stage.graph := by
  rcases move_cases move stage with hquiet | ⟨task, hstarts⟩ | rfl
  · rw [hquiet.passes] at h
    cases h
  · rw [hstarts.passes] at h
    rw [List.mem_singleton.1 h]
  · obtain ⟨-, hanchor⟩ := Scheduler.anchor_of_mem_begun h
    exact hanchor

/-! ## Passes in time -/

/-- The passes in a log, in the order in which they began. -/
def passesIn (entries : List Entry) : List Pass := entries.flatMap (·.passes)

/-- A log that is kept while the clock, where it is read to step frequencies, does not go back,
with tones that have lengths and no deadline that is undefined. -/
@[mk_iff]
structure Steady (entries : List Entry) : Prop where
  numbers : ∀ entry ∈ entries, entry.move.reads = true → entry.reading.isNaN = false
  forward : entries.Pairwise fun entry later =>
    entry.move.reads = true → later.move.reads = true → entry.reading ≤ later.reading
  lengths : ∀ entry ∈ entries, Tone.HaveLengths entry.move.tones
  deadlines : ∀ entry ∈ entries, ∀ pass ∈ entry.passes, pass.finish.isNaN = false

instance (entries : List Entry) : Decidable (Steady entries) :=
  decidable_of_iff' _ (steady_iff entries)

/-- A pass is the last one of its voice in a log.  No poll since it began has found it ended, and
those before did not read a time behind its end either. -/
def Unfinished (entries : List Entry) (pass : Pass) : Prop :=
  ∃ earlier entry later, entries = earlier ++ entry :: later ∧ pass ∈ entry.passes ∧
    (∀ other ∈ passesIn later, other.task.handle ≠ pass.task.handle) ∧
    (∀ other ∈ later, other.move.isPoll = true → other.reading < pass.finish) ∧
    ∀ other ∈ entries, other.move.isPoll = true → other.reading ≤ pass.finish

/-- A pass begins when the last one of its voice has ended, and plays what that one played. -/
def Resumes (entries : List Entry) (pass : Pass) : Prop :=
  ∃ previous, Unfinished entries previous ∧
    pass.task = { previous.task with passes := pass.task.passes } ∧
    previous.finish ≤ pass.anchor

/-- A voice that plays waits for the end of its last pass. -/
structure Waits (entries : List Entry) (timers : List Timer) (task : Task) (pass : Pass) :
    Prop where
  unfinished : Unfinished entries pass
  same : task = { pass.task with passes := task.passes }
  due : ∀ timer ∈ timers, timer.handle = task.handle → timer.due = pass.finish
  ended : ∀ other ∈ passesOf task.handle (passesIn entries), other.finish ≤ pass.finish

/-- A pass of an entry is the only one of its voice there, and begins when those in the log
before have ended. -/
structure Behind (entries : List Entry) (entry : Entry) (pass : Pass) : Prop where
  timely : pass.Timely
  anchor : pass.anchor = entry.reading
  only : passesOf pass.task.handle entry.passes = [pass]
  ended : ∀ other ∈ passesOf pass.task.handle (passesIn entries), other.finish ≤ pass.anchor

/-- The voices that play and the passes they have begun, held against a log. -/
structure Timed (entries : List Entry) (scheduler : Scheduler) : Prop where
  coherent : scheduler.Coherent
  numeric : Timer.Numeric scheduler.timers
  below : ∀ pass ∈ passesIn entries, pass.task.handle < scheduler.nextHandle
  timely : ∀ pass ∈ passesIn entries, pass.Timely
  /-- The passes of a voice do not run into each other. -/
  apart : ∀ handle, (passesOf handle (passesIn entries)).Pairwise fun pass later =>
    pass.finish ≤ later.anchor
  waiting : ∀ task ∈ scheduler.tasks, ∃ pass, Waits entries scheduler.timers task pass
  resumed : ∀ before entry, before ++ [entry] <+: entries → entry.move.isPoll = true →
    ∀ pass ∈ entry.passes, Resumes before pass

variable {entries : List Entry} {entry : Entry} {scheduler next : Scheduler} {pass : Pass}
variable {timers timers' : List Timer} {task : Task}

theorem reads_of_isPoll (h : move.isPoll = true) : move.reads = true := by
  cases move with
  | build | host => cases h
  | take step =>
    cases step with
    | poll => rfl
    | _ => cases h

theorem passesIn_concat (entries : List Entry) (entry : Entry) :
    passesIn (entries ++ [entry]) = passesIn entries ++ entry.passes := by
  simp [passesIn]

theorem Unfinished.mem (h : Unfinished entries pass) : pass ∈ passesIn entries := by
  obtain ⟨earlier, entry, later, rfl, hmem, -⟩ := h
  exact List.mem_flatMap.2 ⟨entry, by simp, hmem⟩

/-- A pass stays unfinished when its voice does not begin again and no poll finds it ended. -/
theorem Unfinished.concat (h : Unfinished entries pass)
    (hpasses : ∀ other ∈ entry.passes, other.task.handle ≠ pass.task.handle)
    (hpoll : entry.move.isPoll = true → entry.reading < pass.finish) :
    Unfinished (entries ++ [entry]) pass := by
  obtain ⟨earlier, own, later, rfl, hmem, hlast, hsince, hall⟩ := h
  refine ⟨earlier, own, later ++ [entry], by simp, hmem, ?_, ?_, ?_⟩
  · rw [passesIn_concat]
    exact List.forall_mem_append.2 ⟨hlast, hpasses⟩
  · exact List.forall_mem_append.2 ⟨hsince, List.forall_mem_singleton.2 hpoll⟩
  · exact List.forall_mem_append.2 ⟨hall, List.forall_mem_singleton.2 fun hmove =>
      Seconds.le_of_lt (hpoll hmove)⟩

theorem Steady.front {others : List Entry} (h : Steady (entries ++ others)) : Steady entries where
  numbers := fun other hmem => h.numbers other (List.mem_append_left _ hmem)
  forward := (List.pairwise_append.1 h.forward).1
  lengths := fun other hmem => h.lengths other (List.mem_append_left _ hmem)
  deadlines := fun other hmem => h.deadlines other (List.mem_append_left _ hmem)

/-- A pass that has just begun is unfinished, since no poll has read a time behind its end. -/
theorem Behind.unfinished (h : Behind entries entry pass) (hsteady : Steady (entries ++ [entry]))
    (hreads : entry.move.reads = true) (hmem : pass ∈ entry.passes) :
    Unfinished (entries ++ [entry]) pass := by
  have hend := h.timely.anchor_le_finish
  rw [h.anchor] at hend
  refine ⟨entries, entry, [], rfl, hmem, nofun, nofun, ?_⟩
  refine List.forall_mem_append.2 ⟨fun other hother hpoll => ?_,
    List.forall_mem_singleton.2 fun _ => hend⟩
  have hforward := (List.pairwise_append.1 hsteady.forward).2.2 other hother entry
    (List.mem_singleton_self _) (reads_of_isPoll hpoll) hreads
  exact Seconds.le_trans hforward hend

/-- A voice goes on waiting when it does not begin again and no poll finds it ended. -/
theorem Waits.concat (h : Waits entries timers task pass)
    (hpasses : ∀ other ∈ entry.passes, other.task.handle ≠ task.handle)
    (hpoll : entry.move.isPoll = true → entry.reading < pass.finish)
    (htimers : ∀ timer ∈ timers', timer.handle = task.handle → timer ∈ timers) :
    Waits (entries ++ [entry]) timers' task pass := by
  have hhandle : task.handle = pass.task.handle := by rw [h.same]
  refine ⟨h.unfinished.concat (hhandle ▸ hpasses) hpoll, h.same,
    fun timer hmem heq => h.due timer (htimers timer hmem heq) heq, ?_⟩
  rw [passesIn_concat, Scheduler.passesOf_append]
  refine List.forall_mem_append.2 ⟨h.ended, fun other hmem => ?_⟩
  obtain ⟨hother, heq⟩ := List.mem_filter.1 hmem
  exact absurd (beq_iff_eq.1 heq) (hpasses other hother)

/-- A voice waits for the end of a pass that has just begun. -/
theorem Behind.waits (h : Behind entries entry pass) (hsteady : Steady (entries ++ [entry]))
    (hreads : entry.move.reads = true) (hmem : pass ∈ entry.passes)
    (hsame : task = { pass.task with passes := task.passes })
    (hdue : ∀ timer ∈ timers, timer.handle = task.handle → timer.due = pass.finish) :
    Waits (entries ++ [entry]) timers task pass := by
  have hhandle : task.handle = pass.task.handle := by rw [hsame]
  refine ⟨h.unfinished hsteady hreads hmem, hsame, hdue, ?_⟩
  rw [passesIn_concat, Scheduler.passesOf_append, hhandle, h.only]
  exact List.forall_mem_append.2
    ⟨fun other hother => Seconds.le_trans (h.ended other hother) h.timely.anchor_le_finish,
      List.forall_mem_singleton.2 (Seconds.le_refl h.timely.finish)⟩

namespace Timed

/-- The passes of a voice stay apart when one begins behind them. -/
theorem apart_concat (h : Timed entries scheduler)
    (hbehind : ∀ pass ∈ entry.passes, Behind entries entry pass) (handle : VoiceId) :
    (passesOf handle (passesIn (entries ++ [entry]))).Pairwise fun pass later =>
      pass.finish ≤ later.anchor := by
  rw [passesIn_concat, Scheduler.passesOf_append]
  refine List.pairwise_append.2 ⟨h.apart handle, ?_, fun pass hmem later hlater => ?_⟩
  · cases hown : passesOf handle entry.passes with
    | nil => exact .nil
    | cons pass others =>
      have hmem : pass ∈ passesOf handle entry.passes := hown ▸ List.mem_cons_self
      obtain ⟨hpass, hhandle⟩ := List.mem_filter.1 hmem
      rw [← hown, ← beq_iff_eq.1 hhandle, (hbehind pass hpass).only]
      exact List.pairwise_singleton _ _
  · obtain ⟨hpass, hhandle⟩ := List.mem_filter.1 hlater
    exact (hbehind later hpass).ended pass (beq_iff_eq.1 hhandle ▸ hmem)

/-- What holds of the entries so far holds with one more. -/
theorem concat (h : Timed entries scheduler) (hcoherent : next.Coherent)
    (hnumeric : Timer.Numeric next.timers) (hnext : scheduler.nextHandle ≤ next.nextHandle)
    (hbelow : ∀ pass ∈ entry.passes, pass.task.handle < next.nextHandle)
    (hbehind : ∀ pass ∈ entry.passes, Behind entries entry pass)
    (hwaiting : ∀ task ∈ next.tasks, ∃ pass, Waits (entries ++ [entry]) next.timers task pass)
    (hresumed : entry.move.isPoll = true → ∀ pass ∈ entry.passes, Resumes entries pass) :
    Timed (entries ++ [entry]) next where
  coherent := hcoherent
  numeric := hnumeric
  below := by
    rw [passesIn_concat]
    exact List.forall_mem_append.2
      ⟨fun pass hmem => Nat.lt_of_lt_of_le (h.below pass hmem) hnext, hbelow⟩
  timely := by
    rw [passesIn_concat]
    exact List.forall_mem_append.2 ⟨h.timely, fun pass hmem => (hbehind pass hmem).timely⟩
  apart := h.apart_concat hbehind
  waiting := hwaiting
  resumed := by
    intro before last hfront
    rcases List.prefix_concat_iff.1 hfront with heq | hfront
    · obtain ⟨rfl, hsame⟩ := List.append_inj' heq rfl
      rw [List.singleton_inj.1 hsame]
      exact hresumed
    · exact h.resumed before last hfront

/-- Whatever begins no pass leaves the voices that go on waiting. -/
theorem quiet (h : Timed entries stage.scheduler) (hquiet : Quiet move stage) :
    Timed (entries ++ [stage.entry move]) (move.perform stage).scheduler := by
  have hpasses : (stage.entry move).passes = [] := hquiet.passes
  have hpoll : (stage.entry move).move.isPoll ≠ true := Bool.eq_false_iff.1 hquiet.isPoll
  have hnone : ∀ {P : Pass → Prop}, ∀ pass ∈ (stage.entry move).passes, P pass := by
    rw [hpasses]
    exact nofun
  refine h.concat (coherent_move move h.coherent) (hquiet.timers ▸ h.numeric) hquiet.nextHandle
    hnone hnone (fun task hmem => ?_) fun hmove => absurd hmove hpoll
  obtain ⟨pass, hwaits⟩ := h.waiting task (hquiet.tasks hmem)
  exact ⟨pass, hwaits.concat hnone (fun hmove => absurd hmove hpoll)
    fun timer htimer _ => hquiet.timers ▸ htimer⟩

/-- The first pass of a voice is behind nothing, since no voice has had its handle before. -/
theorem behind_start (h : Timed entries stage.scheduler) (hstarts : Starts move stage task)
    (hsteady : Steady (entries ++ [stage.entry move])) :
    Behind entries (stage.entry move) ⟨task, now stage.graph⟩ := by
  have hentry : stage.entry move ∈ entries ++ [stage.entry move] := by simp
  have hpasses : (stage.entry move).passes = [⟨task, now stage.graph⟩] := hstarts.passes
  have hlengths : Tone.HaveLengths task.tones := by
    rw [← hstarts.tones]
    exact hsteady.lengths (stage.entry move) hentry
  refine ⟨⟨?_, hlengths, hstarts.total, ?_⟩, rfl, ?_, fun other hmem => ?_⟩
  · exact hsteady.numbers (stage.entry move) hentry hstarts.reads
  · refine hsteady.deadlines (stage.entry move) hentry _ ?_
    rw [hpasses]
    exact List.mem_singleton_self _
  · rw [hpasses]
    exact List.filter_eq_self.2 (List.forall_mem_singleton.2 (beq_self_eq_true _))
  · obtain ⟨hother, heq⟩ := List.mem_filter.1 hmem
    have hbelow := h.below other hother
    rw [beq_iff_eq.1 heq, hstarts.handle] at hbelow
    exact absurd hbelow (Nat.lt_irrefl _)

/-- A voice that is started waits for the end of its first pass. -/
theorem starts (h : Timed entries stage.scheduler) (hstarts : Starts move stage task)
    (hsteady : Steady (entries ++ [stage.entry move])) :
    Timed (entries ++ [stage.entry move]) (move.perform stage).scheduler := by
  have hbehind := h.behind_start hstarts hsteady
  have hpasses : (stage.entry move).passes = [⟨task, now stage.graph⟩] := hstarts.passes
  have hpoll : (stage.entry move).move.isPoll ≠ true := Bool.eq_false_iff.1 hstarts.isPoll
  have hnext := hstarts.nextHandle
  obtain ⟨epoch, htimers⟩ := hstarts.timers
  refine h.concat (coherent_move move h.coherent) (fun timer hmem => ?_)
    (hnext ▸ Nat.le_succ _) ?_ ?_ (fun other hmem => ?_) fun hmove => absurd hmove hpoll
  · rcases List.mem_cons.1 (htimers.mem_iff.1 hmem) with rfl | hmem
    · exact hbehind.timely.finish
    · exact h.numeric timer hmem
  · rw [hpasses]
    refine List.forall_mem_singleton.2 ?_
    rw [hnext, hstarts.handle]
    exact Nat.lt_succ_self _
  · rw [hpasses]
    exact List.forall_mem_singleton.2 hbehind
  · rw [hstarts.tasks] at hmem
    rcases List.mem_append.1 hmem with hmem | hmem
    · have hne : task.handle ≠ other.handle := by
        rw [hstarts.handle]
        exact Nat.ne_of_gt (h.coherent.tasks_below hmem)
      obtain ⟨pass, hwaits⟩ := h.waiting other hmem
      refine ⟨pass, hwaits.concat ?_ (fun hmove => absurd hmove hpoll) ?_⟩
      · rw [hpasses]
        exact List.forall_mem_singleton.2 hne
      · intro timer htimer heq
        rcases List.mem_cons.1 (htimers.mem_iff.1 htimer) with rfl | htimer
        · exact absurd heq hne
        · exact htimer
    · rw [List.mem_singleton.1 hmem]
      refine ⟨⟨task, now stage.graph⟩, hbehind.waits hsteady hstarts.reads ?_ rfl ?_⟩
      · rw [hpasses]
        exact List.mem_singleton_self _
      · intro timer htimer heq
        rcases List.mem_cons.1 (htimers.mem_iff.1 htimer) with rfl | htimer
        · rfl
        · have hbelow := h.coherent.timers_below timer htimer
          rw [heq, hstarts.handle] at hbelow
          exact absurd hbelow (Nat.lt_irrefl _)

/-- A pass that a poll begins follows one that has ended, and so have all before it. -/
theorem resumes (h : Timed entries scheduler) {now : Seconds}
    (hmem : pass ∈ scheduler.begunAt now) :
    Resumes entries pass ∧
      ∀ other ∈ passesOf pass.task.handle (passesIn entries), other.finish ≤ now := by
  obtain ⟨htask, hanchor, hhandles, -⟩ := h.coherent.of_mem_begunAt hmem
  obtain ⟨timer, hdue, hhandle⟩ := List.mem_map.1 hhandles
  obtain ⟨previous, hwaits⟩ := h.waiting pass.task htask
  have htimer : timer ∈ scheduler.timers := List.takeWhile_subset _ hdue
  have hended := (h.coherent.mem_dueTimers_iff h.numeric now htimer).1 hdue
  rw [hwaits.due timer htimer hhandle] at hended
  exact ⟨⟨previous, hwaits.unfinished, hwaits.same, hanchor ▸ hended⟩,
    fun other hother => Seconds.le_trans (hwaits.ended other hother) hended⟩

/-- What begins at a poll begins behind all that the voice has played. -/
theorem behind_poll (h : Timed entries scheduler) (hpoll : entry.move.isPoll = true)
    (hpasses : entry.passes = scheduler.begunAt entry.reading)
    (hsteady : Steady (entries ++ [entry])) (hmem : pass ∈ entry.passes) :
    Behind entries entry pass := by
  have hentry : entry ∈ entries ++ [entry] := by simp
  have hown : pass ∈ scheduler.begunAt entry.reading := hpasses ▸ hmem
  obtain ⟨⟨previous, hunfinished, hsame, -⟩, hended⟩ := h.resumes hown
  obtain ⟨-, hanchor, -, honly⟩ := h.coherent.of_mem_begunAt hown
  have htimely := h.timely previous hunfinished.mem
  refine ⟨⟨?_, ?_, ?_, hsteady.deadlines entry hentry pass hmem⟩, hanchor, hpasses ▸ honly,
    hanchor ▸ hended⟩
  · exact hanchor ▸ hsteady.numbers entry hentry (reads_of_isPoll hpoll)
  · rw [hsame]
    exact htimely.lengths
  · rw [hsame]
    exact htimely.total

/-- The timer of a voice that begins again at a poll is due at the end of its new pass. -/
theorem due_of_begun (h : Timed entries scheduler) {now : Seconds} {timer : Timer}
    (hmem : pass ∈ scheduler.begunAt now) (htimer : timer ∈ (scheduler.poll now).2.timers)
    (hhandle : timer.handle = pass.task.handle) : timer.due = pass.finish := by
  obtain ⟨-, -, hdue, honly⟩ := h.coherent.of_mem_begunAt hmem
  rcases Scheduler.timers_poll htimer with ⟨other, hother, rfl⟩ | hlater
  · have hsame : other.task.handle = pass.task.handle := hhandle
    have hown := Scheduler.mem_passesOf hother
    rw [hsame, honly] at hown
    rw [List.mem_singleton.1 hown]
    rfl
  · exact absurd (hhandle ▸ hdue) (h.coherent.not_due_of_later hlater)

/-- A voice that is not due at a poll goes on waiting, its timer left behind. -/
theorem waits_of_not_due (h : Timed entries scheduler)
    (hpasses : entry.passes = scheduler.begunAt entry.reading)
    (hnumber : entry.reading.isNaN = false) (hmem : task ∈ scheduler.tasks)
    (hnotdue : task.handle ∉ (scheduler.dueTimers entry.reading).map (·.handle)) :
    ∃ pass, Waits (entries ++ [entry]) (scheduler.poll entry.reading).2.timers task pass := by
  obtain ⟨pass, hwaits⟩ := h.waiting task hmem
  refine ⟨pass, hwaits.concat (fun other hother heq => ?_) (fun _ => ?_)
    fun timer htimer heq => ?_⟩
  · obtain ⟨-, -, hdue, -⟩ := h.coherent.of_mem_begunAt (hpasses ▸ hother)
    exact hnotdue (heq ▸ hdue)
  · obtain ⟨timer, htimer, hhandle, -⟩ := h.coherent.tasks_timer task hmem
    rw [← hwaits.due timer htimer hhandle]
    refine Seconds.lt_of_not_le hnumber (h.numeric timer htimer) fun hle => hnotdue ?_
    exact List.mem_map.2
      ⟨timer, (h.coherent.mem_dueTimers_iff h.numeric entry.reading htimer).2 hle, hhandle⟩
  · rcases Scheduler.timers_poll htimer with ⟨other, hother, rfl⟩ | hlater
    · have hsame : other.task.handle = task.handle := heq
      obtain ⟨-, -, hdue, -⟩ := h.coherent.of_mem_begunAt hother
      exact absurd (hsame ▸ hdue) hnotdue
    · exact List.dropWhile_subset _ hlater

/-- A poll lets the voices begin again that loop and have ended; the others go on waiting. -/
theorem poll (h : Timed entries scheduler) (hpoll : entry.move.isPoll = true)
    (hpasses : entry.passes = scheduler.begunAt entry.reading)
    (hsteady : Steady (entries ++ [entry])) :
    Timed (entries ++ [entry]) (scheduler.poll entry.reading).2 := by
  have hreads := reads_of_isPoll hpoll
  have hbehind : ∀ pass ∈ entry.passes, Behind entries entry pass :=
    fun pass hmem => h.behind_poll hpoll hpasses hsteady hmem
  refine h.concat (Scheduler.coherent_poll h.coherent entry.reading) (fun timer hmem => ?_)
    (Nat.le_refl _) (fun pass hmem => ?_) hbehind (fun task hmem => ?_)
    fun _ pass hmem => (h.resumes (hpasses ▸ hmem)).1
  · rcases Scheduler.timers_poll hmem with ⟨pass, hpass, rfl⟩ | hlater
    · exact (hbehind pass (hpasses ▸ hpass)).timely.finish
    · exact h.numeric timer (List.dropWhile_subset _ hlater)
  · exact h.coherent.tasks_below (h.coherent.of_mem_begunAt (hpasses ▸ hmem)).1
  · rcases h.coherent.mem_poll_tasks hmem with ⟨pass, hown, rfl⟩ | ⟨hbefore, hnotdue⟩
    · have hmem : pass ∈ entry.passes := hpasses ▸ hown
      exact ⟨pass, (hbehind pass hmem).waits hsteady hreads hmem rfl
        fun timer htimer heq => h.due_of_begun hown htimer heq⟩
    · exact h.waits_of_not_due hpasses (hsteady.numbers entry (by simp) hreads) hbefore hnotdue

/-- Every move keeps the voices waiting for the ends of their passes. -/
theorem perform (h : Timed entries stage.scheduler) (move : Move)
    (hsteady : Steady (entries ++ [stage.entry move])) :
    Timed (entries ++ [stage.entry move]) (move.perform stage).scheduler := by
  rcases move_cases move stage with hquiet | ⟨task, hstarts⟩ | rfl
  · exact h.quiet hquiet
  · exact h.starts hstarts hsteady
  · exact h.poll rfl rfl hsteady

theorem afterMoves (moves : List Move) (h : Timed entries stage.scheduler)
    (hsteady : Steady (entries ++ log moves stage)) :
    Timed (entries ++ log moves stage) (afterMoves moves stage).scheduler := by
  induction moves generalizing entries stage with
  | nil =>
    rw [log, List.append_nil]
    exact h
  | cons move moves ih =>
    rw [log, ← List.singleton_append, ← List.append_assoc] at hsteady ⊢
    exact ih (h.perform move hsteady.front) hsteady

end Timed

end Stage

end Chiptune
