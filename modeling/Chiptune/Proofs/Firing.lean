/-
  What the firing of timers does to each voice.

  A timer concerns the voice of its handle and no other.  So when several timers of
  different voices fire, each of them does what it would have done alone, and what they
  bring about together is told timer by timer from the voices at the beginning.
-/
import Chiptune.Playback.Scheduler
import Mathlib.Data.List.Basic

set_option autoImplicit false

namespace Chiptune.Scheduler

variable {tasks : List Task} {handle other : VoiceId} {task : Task}

/-! ## Looking up tasks -/

theorem mem_of_task? (h : task? tasks handle = some task) : task ∈ tasks :=
  List.mem_of_find?_eq_some h

theorem handle_of_task? (h : task? tasks handle = some task) : task.handle = handle := by
  simpa using List.find?_some h

theorem task?_eq_none_iff : task? tasks handle = none ↔ handle ∉ tasks.map (·.handle) := by
  simp [task?]

/-- Among tasks with different handles, each is found under its own. -/
theorem task?_eq_some_of_mem (hnodup : (tasks.map (·.handle)).Nodup) (h : task ∈ tasks) :
    task? tasks task.handle = some task := by
  induction tasks with
  | nil => cases h
  | cons first rest ih =>
    obtain ⟨hfirst, hrest⟩ := List.nodup_cons.1 hnodup
    unfold task?
    rcases List.mem_cons.1 h with rfl | h
    · simp
    · have hne : first.handle ≠ task.handle := by
        intro heq
        exact hfirst (List.mem_map.2 ⟨task, h, heq.symm⟩)
      rw [List.find?_cons_of_neg (by simpa using hne)]
      exact ih hrest h

theorem task?_append (tasks others : List Task) (handle : VoiceId) :
    task? (tasks ++ others) handle = (task? tasks handle).or (task? others handle) :=
  List.find?_append

/-- A task that is taken away is not found any more. -/
theorem task?_withoutTask_self (tasks : List Task) (handle : VoiceId) :
    task? (withoutTask tasks handle) handle = none := by
  rw [task?_eq_none_iff]
  simp [withoutTask]

/-- All others are still found. -/
theorem task?_withoutTask_of_ne (tasks : List Task) (h : other ≠ handle) :
    task? (withoutTask tasks handle) other = task? tasks other := by
  simp only [task?, withoutTask, List.find?_filter]
  congr 1
  funext task
  by_cases heq : task.handle = other
  · simp [heq, h]
  · simp [heq]

/-- Taking a task away takes its handle away. -/
theorem handles_withoutTask (tasks : List Task) (handle : VoiceId) :
    (withoutTask tasks handle).map (·.handle) =
      (tasks.map (·.handle)).filter fun other => other ∉ [handle] := by
  rw [List.filter_map]
  simp [withoutTask, Function.comp_def, bne, BEq.beq]

/-- The tasks when the tones of one of them have been programmed once more. -/
def nextPass (handle : VoiceId) (task : Task) : Task :=
  if task.handle == handle then { task with passes := task.passes + 1 } else task

@[simp] theorem handle_nextPass (handle : VoiceId) (task : Task) :
    (nextPass handle task).handle = task.handle := by
  unfold nextPass
  split <;> rfl

/-- Nothing but the number of passes is changed. -/
theorem nextPass_eq (handle : VoiceId) (task : Task) :
    nextPass handle task = { task with passes := (nextPass handle task).passes } := by
  unfold nextPass
  split <;> rfl

theorem task?_map_nextPass (tasks : List Task) (handle other : VoiceId) :
    task? (tasks.map (nextPass handle)) other = (task? tasks other).map (nextPass handle) := by
  have hsame : (fun task : Task => task.handle == other) ∘ nextPass handle =
      fun task => task.handle == other := by
    funext task
    simp
  rw [task?, task?, List.find?_map, hsame]

theorem handles_map_nextPass (tasks : List Task) (handle : VoiceId) :
    (tasks.map (nextPass handle)).map (·.handle) = tasks.map (·.handle) := by
  simp [Function.comp_def]

/-! ## One timer -/

variable {timer : Timer} {now : Seconds} {epoch : Nat}

/-- A timer that is not stale has a task. -/
theorem task?_of_liveTask? (h : liveTask? epoch tasks timer = some task) :
    task? tasks timer.handle = some task ∧ timer.epoch = epoch ∧ task.epoch = epoch := by
  obtain ⟨hfound, hepoch⟩ := Option.filter_eq_some_iff.1 h
  simp only [Bool.and_eq_true, beq_iff_eq] at hepoch
  exact ⟨hfound, hepoch.1, hepoch.2.trans hepoch.1⟩

/-- The timer of a voice that loops programs its tones once more. -/
theorem fire_of_looping (now : Seconds) (hlive : liveTask? epoch tasks timer = some task)
    (hlooping : task.looping = true) :
    fire now epoch timer tasks =
      ⟨programme task.voice.oscillator task.tones now, [], [],
        [⟨now + task.total, timer.handle, epoch⟩], tasks.map (nextPass timer.handle)⟩ := by
  have hhandle := handle_of_task? (task?_of_liveTask? hlive).1
  simp only [fire, hlive, hlooping, hhandle, if_true]
  rfl

/-- The timer of any other voice ends it. -/
theorem fire_of_not_looping (now : Seconds) (hlive : liveTask? epoch tasks timer = some task)
    (hlooping : task.looping = false) :
    fire now epoch timer tasks =
      ⟨task.voice.release now, if task.announced then [timer.handle] else [],
        [timer.handle], [], withoutTask tasks timer.handle⟩ := by
  have hhandle := handle_of_task? (task?_of_liveTask? hlive).1
  simp only [fire, hlive, hlooping, hhandle, Bool.false_eq_true, if_false]

/-- A timer is stale, or its voice begins once more, or its voice ends. -/
theorem fire_cases (now : Seconds) (epoch : Nat) (timer : Timer) (tasks : List Task) :
    (liveTask? epoch tasks timer = none ∧ fire now epoch timer tasks = ⟨[], [], [], [], tasks⟩) ∨
      (∃ task, liveTask? epoch tasks timer = some task ∧ task.handle = timer.handle ∧
        task.looping = true ∧
        fire now epoch timer tasks =
          ⟨programme task.voice.oscillator task.tones now, [], [],
            [⟨now + task.total, timer.handle, epoch⟩], tasks.map (nextPass timer.handle)⟩) ∨
      (∃ task, liveTask? epoch tasks timer = some task ∧ task.handle = timer.handle ∧
        task.looping = false ∧
        fire now epoch timer tasks =
          ⟨task.voice.release now, if task.announced then [timer.handle] else [],
            [timer.handle], [], withoutTask tasks timer.handle⟩) := by
  cases hlive : liveTask? epoch tasks timer with
  | none => exact Or.inl ⟨rfl, by rw [fire, hlive]⟩
  | some task =>
    have hhandle := handle_of_task? (task?_of_liveTask? hlive).1
    cases hlooping : task.looping with
    | true =>
      exact Or.inr (Or.inl ⟨task, rfl, hhandle, hlooping, fire_of_looping now hlive hlooping⟩)
    | false =>
      exact Or.inr (Or.inr ⟨task, rfl, hhandle, hlooping, fire_of_not_looping now hlive hlooping⟩)

/-- What a timer brings about depends on the task of its handle alone. -/
theorem fire_congr {tasks' : List Task}
    (h : task? tasks timer.handle = task? tasks' timer.handle) :
    { fire now epoch timer tasks with tasks := [] } =
      { fire now epoch timer tasks' with tasks := [] } := by
  unfold fire liveTask?
  rw [h]
  split
  · rfl
  · split <;> rfl

/-- A voice whose timer fires goes on with one pass more, or ends. -/
theorem task?_fire_self (now : Seconds) (epoch : Nat) (timer : Timer) (tasks : List Task) :
    task? (fire now epoch timer tasks).tasks timer.handle =
      match liveTask? epoch tasks timer with
      | none => task? tasks timer.handle
      | some task =>
        if task.looping then some { task with passes := task.passes + 1 } else none := by
  rcases fire_cases now epoch timer tasks with
    ⟨hlive, hfire⟩ | ⟨task, hlive, hhandle, hlooping, hfire⟩ | ⟨task, hlive, -, hlooping, hfire⟩
  · rw [hfire, hlive]
  · rw [hfire, hlive, task?_map_nextPass, (task?_of_liveTask? hlive).1]
    simp [nextPass, hhandle, hlooping]
  · rw [hfire, hlive, task?_withoutTask_self]
    simp [hlooping]

/-- A timer leaves the tasks of all other handles as they are. -/
theorem task?_fire_of_ne (now : Seconds) (epoch : Nat) (tasks : List Task)
    (h : handle ≠ timer.handle) :
    task? (fire now epoch timer tasks).tasks handle = task? tasks handle := by
  rcases fire_cases now epoch timer tasks with
    ⟨-, hfire⟩ | ⟨task, -, -, -, hfire⟩ | ⟨task, -, -, -, hfire⟩
  · rw [hfire]
  · rw [hfire, task?_map_nextPass]
    cases hfound : task? tasks handle with
    | none => rfl
    | some other =>
      have hother := handle_of_task? hfound
      simp [nextPass, hother, h]
  · rw [hfire, task?_withoutTask_of_ne tasks h]

/-- The handles of the voices that go on are those that did not end. -/
theorem handles_fire (now : Seconds) (epoch : Nat) (timer : Timer) (tasks : List Task) :
    (fire now epoch timer tasks).tasks.map (·.handle) =
      (tasks.map (·.handle)).filter fun handle =>
        handle ∉ (fire now epoch timer tasks).ended := by
  rcases fire_cases now epoch timer tasks with
    ⟨-, hfire⟩ | ⟨task, -, -, -, hfire⟩ | ⟨task, -, -, -, hfire⟩
  · rw [hfire]
    exact (List.filter_eq_self.2 (by simp)).symm
  · rw [hfire, handles_map_nextPass]
    exact (List.filter_eq_self.2 (by simp)).symm
  · rw [hfire, handles_withoutTask]

/-- Voices that go on are those that played before, but for the number of passes. -/
theorem mem_fire_tasks (h : task ∈ (fire now epoch timer tasks).tasks) :
    ∃ before ∈ tasks, task = { before with passes := task.passes } := by
  rcases fire_cases now epoch timer tasks with
    ⟨-, hfire⟩ | ⟨_, -, -, -, hfire⟩ | ⟨_, -, -, -, hfire⟩
  · rw [hfire] at h
    exact ⟨task, h, rfl⟩
  · rw [hfire] at h
    obtain ⟨before, hbefore, rfl⟩ := List.mem_map.1 h
    exact ⟨before, hbefore, nextPass_eq _ before⟩
  · rw [hfire] at h
    exact ⟨task, (List.mem_filter.1 h).1, rfl⟩

/-- Only the voice of the timer ends or begins once more. -/
theorem handles_of_fire (now : Seconds) (epoch : Nat) (timer : Timer) (tasks : List Task) :
    (fire now epoch timer tasks).ended.Sublist [timer.handle] ∧
      (fire now epoch timer tasks).announced.Sublist (fire now epoch timer tasks).ended ∧
      ((fire now epoch timer tasks).rearmed.map (·.handle)).Sublist [timer.handle] ∧
      ∀ again ∈ (fire now epoch timer tasks).rearmed, again.epoch = epoch := by
  rcases fire_cases now epoch timer tasks with
    ⟨-, hfire⟩ | ⟨task, -, -, -, hfire⟩ | ⟨task, -, -, -, hfire⟩
  · simp [hfire]
  · simp [hfire]
  · rw [hfire]
    refine ⟨.refl _, ?_, List.nil_sublist _, fun again h => absurd h List.not_mem_nil⟩
    split
    · exact .refl _
    · exact List.nil_sublist _

/-! ## Timers of different voices -/

variable {timers : List Timer}

/-- The first timer leaves the tasks of all others as they are. -/
theorem task?_fire_of_nodup (now : Seconds) (epoch : Nat) (tasks : List Task)
    (hnodup : ((timer :: timers).map (·.handle)).Nodup) {later : Timer} (h : later ∈ timers) :
    task? (fire now epoch timer tasks).tasks later.handle = task? tasks later.handle := by
  obtain ⟨hfirst, -⟩ := List.nodup_cons.1 hnodup
  refine task?_fire_of_ne now epoch tasks fun heq => hfirst ?_
  exact List.mem_map.2 ⟨later, h, heq⟩

/-- Timers of different voices bring about what each of them does alone. -/
theorem fireAll_eq_flatMap (now : Seconds) (epoch : Nat) (tasks : List Task)
    (hnodup : (timers.map (·.handle)).Nodup) :
    { fireAll now epoch timers tasks with tasks := [] } =
      (⟨timers.flatMap fun timer => (fire now epoch timer tasks).signals,
        timers.flatMap fun timer => (fire now epoch timer tasks).announced,
        timers.flatMap fun timer => (fire now epoch timer tasks).ended,
        timers.flatMap fun timer => (fire now epoch timer tasks).rearmed, []⟩ : Firing) := by
  induction timers generalizing tasks with
  | nil => rfl
  | cons timer timers ih =>
    have hrest := ih (fire now epoch timer tasks).tasks (List.nodup_cons.1 hnodup).2
    have hsame : ∀ later ∈ timers,
        { fire now epoch later (fire now epoch timer tasks).tasks with tasks := [] } =
          { fire now epoch later tasks with tasks := [] } := fun later h =>
      fire_congr (task?_fire_of_nodup now epoch tasks hnodup h)
    simp only [Firing.mk.injEq, and_true] at hrest hsame ⊢
    obtain ⟨hsignals, hannounced, hended, hrearmed⟩ := hrest
    refine ⟨?_, ?_, ?_, ?_⟩
    · rw [List.flatMap_cons, fireAll, hsignals]
      exact congrArg _ (List.flatMap_congr fun later h => (hsame later h).1)
    · rw [List.flatMap_cons, fireAll, hannounced]
      exact congrArg _ (List.flatMap_congr fun later h => (hsame later h).2.1)
    · rw [List.flatMap_cons, fireAll, hended]
      exact congrArg _ (List.flatMap_congr fun later h => (hsame later h).2.2.1)
    · rw [List.flatMap_cons, fireAll, hrearmed]
      exact congrArg _ (List.flatMap_congr fun later h => (hsame later h).2.2.2)

theorem signals_fireAll (now : Seconds) (epoch : Nat) (tasks : List Task)
    (hnodup : (timers.map (·.handle)).Nodup) :
    (fireAll now epoch timers tasks).signals =
      timers.flatMap fun timer => (fire now epoch timer tasks).signals :=
  congrArg Firing.signals (fireAll_eq_flatMap now epoch tasks hnodup)

theorem announced_fireAll (now : Seconds) (epoch : Nat) (tasks : List Task)
    (hnodup : (timers.map (·.handle)).Nodup) :
    (fireAll now epoch timers tasks).announced =
      timers.flatMap fun timer => (fire now epoch timer tasks).announced :=
  congrArg Firing.announced (fireAll_eq_flatMap now epoch tasks hnodup)

theorem ended_fireAll (now : Seconds) (epoch : Nat) (tasks : List Task)
    (hnodup : (timers.map (·.handle)).Nodup) :
    (fireAll now epoch timers tasks).ended =
      timers.flatMap fun timer => (fire now epoch timer tasks).ended :=
  congrArg Firing.ended (fireAll_eq_flatMap now epoch tasks hnodup)

theorem rearmed_fireAll (now : Seconds) (epoch : Nat) (tasks : List Task)
    (hnodup : (timers.map (·.handle)).Nodup) :
    (fireAll now epoch timers tasks).rearmed =
      timers.flatMap fun timer => (fire now epoch timer tasks).rearmed :=
  congrArg Firing.rearmed (fireAll_eq_flatMap now epoch tasks hnodup)

/-- A voice without a timer among those that fire stays as it is. -/
theorem task?_fireAll_of_not_mem (now : Seconds) (epoch : Nat) (tasks : List Task)
    (h : handle ∉ timers.map (·.handle)) :
    task? (fireAll now epoch timers tasks).tasks handle = task? tasks handle := by
  induction timers generalizing tasks with
  | nil => rfl
  | cons timer timers ih =>
    rw [List.map_cons, List.mem_cons, not_or] at h
    rw [fireAll, ih _ h.2, task?_fire_of_ne now epoch tasks h.1]

/-- A voice whose timer is among those that fire is left as this timer alone leaves it. -/
theorem task?_fireAll_of_mem (now : Seconds) (epoch : Nat) (tasks : List Task)
    (hnodup : (timers.map (·.handle)).Nodup) (h : timer ∈ timers) :
    task? (fireAll now epoch timers tasks).tasks timer.handle =
      task? (fire now epoch timer tasks).tasks timer.handle := by
  induction timers generalizing tasks with
  | nil => cases h
  | cons first timers ih =>
    obtain ⟨hfirst, hrest⟩ := List.nodup_cons.1 hnodup
    rw [fireAll]
    rcases List.mem_cons.1 h with rfl | hlater
    · exact task?_fireAll_of_not_mem now epoch _ hfirst
    · rw [ih _ hrest hlater]
      have hne : timer.handle ≠ first.handle := by
        intro heq
        exact hfirst (List.mem_map.2 ⟨timer, hlater, heq⟩)
      rw [task?_fire_self, task?_fire_self, liveTask?, liveTask?,
        task?_fire_of_ne now epoch tasks hne]

/-- The handles of the voices that go on are those that did not end. -/
theorem handles_fireAll (now : Seconds) (epoch : Nat) (timers : List Timer)
    (tasks : List Task) :
    (fireAll now epoch timers tasks).tasks.map (·.handle) =
      (tasks.map (·.handle)).filter fun handle =>
        handle ∉ (fireAll now epoch timers tasks).ended := by
  induction timers generalizing tasks with
  | nil => exact (List.filter_eq_self.2 (by simp [fireAll])).symm
  | cons timer timers ih =>
    rw [fireAll, ih, handles_fire, List.filter_filter]
    refine List.filter_congr fun handle _ => ?_
    simp only [List.mem_append, not_or, Bool.decide_and]
    exact Bool.and_comm _ _

/-- Voices that go on are those that played before, but for the number of passes. -/
theorem mem_fireAll_tasks (h : task ∈ (fireAll now epoch timers tasks).tasks) :
    ∃ before ∈ tasks, task = { before with passes := task.passes } := by
  induction timers generalizing tasks with
  | nil => exact ⟨task, h, rfl⟩
  | cons timer timers ih =>
    obtain ⟨between, hbetween, heq⟩ := ih h
    obtain ⟨before, hbefore, heq'⟩ := mem_fire_tasks hbetween
    exact ⟨before, hbefore, by rw [heq, heq']⟩

/-- Voices that end or begin once more do so in the order of the timers. -/
theorem handles_of_fireAll (now : Seconds) (epoch : Nat) (timers : List Timer)
    (tasks : List Task) :
    (fireAll now epoch timers tasks).ended.Sublist (timers.map (·.handle)) ∧
      (fireAll now epoch timers tasks).announced.Sublist (fireAll now epoch timers tasks).ended ∧
      ((fireAll now epoch timers tasks).rearmed.map (·.handle)).Sublist
        (timers.map (·.handle)) ∧
      ∀ again ∈ (fireAll now epoch timers tasks).rearmed, again.epoch = epoch := by
  induction timers generalizing tasks with
  | nil => simp [fireAll]
  | cons timer timers ih =>
    obtain ⟨hended, hannounced, hrearmed, hepoch⟩ := handles_of_fire now epoch timer tasks
    obtain ⟨hended', hannounced', hrearmed', hepoch'⟩ := ih (fire now epoch timer tasks).tasks
    rw [fireAll, List.map_append]
    refine ⟨hended.append hended', hannounced.append hannounced',
      hrearmed.append hrearmed', fun again h => ?_⟩
    rcases List.mem_append.1 h with h | h
    · exact hepoch again h
    · exact hepoch' again h

end Chiptune.Scheduler
