/-
  Where a pass ends.

  The tones of a voice are stepped through by a cursor that begins at zero, and their length is
  added up on its own, from negative zero.  Both add in the same order, so they agree to the
  bit as soon as one tone has been added, unless this is a negative zero.  A voice that is started,
  and one that begins again, is therefore due exactly when one more tone would begin.
-/
import Chiptune.Proofs.Bookkeeping
import Chiptune.Proofs.LoopTimes

set_option autoImplicit false

namespace Chiptune

/-! ## Sums from both zeros -/

namespace Tone

/-- The first tone, if there is one, has a length other than negative zero. -/
def BeginsForward (tones : List Tone) : Prop :=
  ∀ tone ∈ tones.head?, tone.seconds ≠ .negativeZero

instance (tones : List Tone) : Decidable (BeginsForward tones) :=
  inferInstanceAs (Decidable (∀ tone ∈ tones.head?, _))

variable {tones : List Tone}

/-- Tones end where their length says. -/
theorem elapsed_eq_totalLength (h : BeginsForward tones) (hsome : tones ≠ []) :
    elapsed tones = totalLength tones := by
  cases tones with
  | nil => exact absurd rfl hsome
  | cons tone tones =>
    rw [elapsed, totalLength, List.foldl_cons, List.foldl_cons,
      Seconds.zero_add_of_ne (h tone rfl)]

theorem BeginsForward.take (h : BeginsForward tones) (count : Nat) :
    BeginsForward (tones.take count) := by
  cases tones with
  | nil => rwa [List.take_nil]
  | cons tone tones =>
    cases count with
    | zero => exact nofun
    | succ count => exact h

end Tone

/-- The steps of tones from an anchor on: the first one at the anchor, and each of the others when
the tones before it are over, by their length. -/
def steps (oscillator : NodeId) (tones : List Tone) (anchor : Seconds) : List Signal :=
  tones.mapIdx fun index tone => .tune oscillator tone.hz
    (if index = 0 then anchor + 0 else anchor + Tone.totalLength (tones.take index))

theorem programme_eq_steps {tones : List Tone} (h : Tone.BeginsForward tones)
    (oscillator : NodeId) (anchor : Seconds) :
    programme oscillator tones anchor = steps oscillator tones anchor := by
  rw [programme_eq_tuning, tuning, steps]
  refine List.mapIdx_eq_mapIdx_iff.2 fun index hindex => ?_
  split
  · rename_i hfirst
    subst hfirst
    rfl
  · rename_i hlater
    rw [Tone.elapsed_eq_totalLength (h.take index) fun hnone => ?_]
    rcases List.take_eq_nil_iff.1 hnone with hzero | hempty
    · exact hlater hzero
    · rw [hempty] at hindex
      cases hindex

/-- One more tone is stepped to when the tones before it are over. -/
theorem programme_concat (oscillator : NodeId) (tones : List Tone) (tone : Tone)
    (anchor : Seconds) :
    programme oscillator (tones ++ [tone]) anchor =
      programme oscillator tones anchor ++
        [.tune oscillator tone.hz (anchor + elapsed tones)] := by
  rw [programme_eq_tuning, programme_eq_tuning, tuning, tuning, List.mapIdx_concat,
    List.take_left]
  congr 1
  refine List.mapIdx_eq_mapIdx_iff.2 fun index hindex => ?_
  rw [List.take_append_of_le_length (Nat.le_of_lt hindex)]

namespace Scheduler

/-! ## Passes without a gap -/

/-- The steps of a pass lead up to the timer at its end. -/
structure Pass.Gapless (pass : Pass) (scheduler : Scheduler) : Prop where
  /-- Each tone is stepped to behind the anchor by the length of the tones before it. -/
  steps : pass.signals = steps pass.task.voice.oscillator pass.task.tones pass.anchor
  /-- The voice waits for one timer, which is due behind the anchor by the length of all. -/
  due : scheduler.timers.filter (·.handle == pass.task.handle) =
    [⟨pass.anchor + Tone.totalLength pass.task.tones, pass.task.handle, scheduler.epoch⟩]
  /-- This is when one more tone would begin. -/
  next : ∀ tone, programme pass.task.voice.oscillator (pass.task.tones ++ [tone]) pass.anchor =
    pass.signals ++ [.tune pass.task.voice.oscillator tone.hz
      (pass.anchor + Tone.totalLength pass.task.tones)]

/-- The only pass of a voice among several is one of these. -/
theorem mem_of_passesOf {handle : VoiceId} {passes : List Pass} {pass : Pass}
    (h : passesOf handle passes = [pass]) : pass ∈ passes :=
  (List.mem_filter.1 (List.mem_of_mem_head? (congrArg List.head? h))).1

/-- A voice that loops and whose timer is due begins again at a poll, once, from a time that is
read. -/
theorem Coherent.begun_of_due {scheduler : Scheduler} (h : scheduler.Coherent) {now : Seconds}
    (readings : Nat → Seconds) {task : Task} (hmem : task ∈ scheduler.tasks)
    (hlooping : task.looping = true)
    (hdue : task.handle ∈ (scheduler.dueTimers now).map (·.handle)) :
    { task with passes := task.passes + 1 } ∈ (scheduler.pollEach now readings).2.tasks ∧
      ∃ count, passesOf task.handle
        (begun scheduler.epoch readings (scheduler.dueTimers now) scheduler.tasks) =
          [⟨task, readings count⟩] := by
  obtain ⟨timer, htimer, hhandle⟩ := List.mem_map.1 hdue
  have hlive : liveTask? scheduler.epoch scheduler.tasks timer = some task := by
    rw [h.liveTask?_eq (List.takeWhile_subset _ htimer), hhandle]
    exact task?_eq_some_of_mem h.tasks_nodup hmem
  constructor
  · have hafter := h.task?_poll_of_due now htimer
    rw [hlive] at hafter
    dsimp only at hafter
    rw [if_pos hlooping] at hafter
    rw [tasks_pollEach]
    exact mem_of_task? hafter
  · obtain ⟨anchor, hpasses⟩ := passesOf_begun_of_mem readings scheduler.tasks
      (h.dueTimers_nodup now) htimer
    rw [hhandle, begunBy, hlive, Option.filter_some, if_pos hlooping] at hpasses
    obtain ⟨count, hcount⟩ := anchor_of_mem_begun (mem_of_passesOf hpasses)
    exact ⟨count, hcount ▸ hpasses⟩

namespace History

variable {history next : History} {task : Task} {pass first : Pass} {handle : VoiceId}
variable {now : Seconds} {voice : Voice} {tones : List Tone} {looping announced : Bool}

/-- The books of a scheduler, in which every voice plays what it was started with. -/
structure Constant (history : History) : Prop extends Booked history where
  sounding : ∀ task ∈ history.scheduler.tasks, task.tones ≠ []
  same : ∀ task ∈ history.scheduler.tasks, ∃ first,
    (passesOf task.handle history.passes).head? = some first ∧
      task.voice = first.task.voice ∧ task.tones = first.task.tones

theorem head?_passesOf_append {passes : List Pass} (more : List Pass)
    (h : (passesOf handle passes).head? = some first) :
    (passesOf handle (passes ++ more)).head? = some first := by
  rw [passesOf_append, List.head?_append, h]
  rfl

/-- The pass with which a voice is started. -/
def firstPass (now : Seconds) (voice : Voice) (tones : List Tone) (looping announced : Bool)
    (history : History) : Pass :=
  ⟨⟨history.scheduler.nextHandle, voice, tones, looping, Tone.totalLength tones,
    history.scheduler.epoch, 1, announced⟩, now⟩

/-- A start that is refused, or that has no tones, leaves the voices as they are; any other one
begins a first pass. -/
theorem Booked.start_cases (h : history.Booked) (now : Seconds) (voice : Voice)
    (tones : List Tone) (looping announced : Bool) :
    let next := history.perform (.start now voice tones looping announced)
    let first := history.firstPass now voice tones looping announced
    (((looping && isStuckLoop now (Tone.totalLength tones)) = false → tones = []) ∧
      next.scheduler.tasks = history.scheduler.tasks ∧ next.passes = history.passes ∧
      ∃ signals, next.sent = history.sent ++ signals ∧ tuningsIn signals = []) ∨
    (tones ≠ [] ∧ next.scheduler.tasks = history.scheduler.tasks ++ [first.task] ∧
      next.passes = history.passes ++ [first] ∧
      next.sent = history.sent ++ .start voice.oscillator now :: first.signals) := by
  have hcoherent := coherent_start h.coherent now voice tones looping announced
  rcases Scheduler.start_cases now voice tones looping announced history.scheduler with
    ⟨hlooping, hstuck, hstart⟩ | ⟨-, hnone, hstart⟩ | ⟨-, htones, hstart⟩
  · refine .inl ⟨fun hfree => ?_, ?_⟩
    · rw [hlooping, hstuck] at hfree
      cases hfree
    · simp only [History.perform, hstart]
      exact ⟨trivial, List.append_nil _, _, rfl, voice.tuningsIn_discard⟩
  · have hunknown := task?_eq_none_iff.2 h.coherent.nextHandle_fresh.1
    refine .inl ⟨fun _ => hnone, ?_⟩
    simp only [History.perform, hstart, Except.toOption, Option.toList, List.filterMap_cons,
      hunknown]
    exact ⟨trivial, List.append_nil _, _, rfl, voice.tuningsIn_release now⟩
  · rw [hstart] at hcoherent
    have hfound := task?_eq_some_of_mem hcoherent.tasks_nodup
      (List.mem_append_right _ (List.mem_singleton_self _))
    refine .inr ⟨htones, ?_⟩
    simp only [History.perform, hstart, Except.toOption, Option.toList, List.filterMap_cons,
      hfound]
    exact ⟨rfl, rfl, rfl⟩

namespace Constant

theorem start (h : history.Constant) (now : Seconds) (voice : Voice) (tones : List Tone)
    (looping announced : Bool) :
    (history.perform (.start now voice tones looping announced)).Constant := by
  have hbooked := h.toBooked.start now voice tones looping announced
  rcases h.toBooked.start_cases now voice tones looping announced with
    ⟨-, htasks, hpasses, -⟩ | ⟨htones, htasks, hpasses, -⟩
  · refine ⟨hbooked, ?_, ?_⟩
    · rw [htasks]
      exact h.sounding
    · rw [htasks, hpasses]
      exact h.same
  · refine ⟨hbooked, ?_, ?_⟩
    · rw [htasks]
      exact List.forall_mem_append.2 ⟨h.sounding, List.forall_mem_singleton.2 htones⟩
    · rw [htasks, hpasses]
      refine List.forall_mem_append.2 ⟨fun task hmem => ?_, List.forall_mem_singleton.2 ?_⟩
      · obtain ⟨first, hfirst, hsame⟩ := h.same task hmem
        exact ⟨first, head?_passesOf_append _ hfirst, hsame⟩
      · exact ⟨_, congrArg List.head? (h.toBooked.passesOf_nextHandle rfl), rfl, rfl⟩

theorem poll (h : history.Constant) (now : Seconds) (readings : Nat → Seconds) :
    (history.perform (.poll now readings)).Constant := by
  have hkept : ∀ task ∈ (history.perform (.poll now readings)).scheduler.tasks,
      ∃ before ∈ history.scheduler.tasks, task = { before with passes := task.passes } := by
    intro task hmem
    rcases h.coherent.mem_pollEach_tasks hmem with ⟨before, hbefore, -, rfl, -⟩ | ⟨hmem, -⟩
    · exact ⟨before, hbefore, rfl⟩
    · exact ⟨task, hmem, rfl⟩
  refine ⟨h.toBooked.poll now readings, fun task hmem => ?_, fun task hmem => ?_⟩
  · obtain ⟨before, hbefore, hsame⟩ := hkept task hmem
    rw [hsame]
    exact h.sounding before hbefore
  · obtain ⟨before, hbefore, hsame⟩ := hkept task hmem
    obtain ⟨first, hfirst, hplayed⟩ := h.same before hbefore
    rw [hsame]
    exact ⟨first, head?_passesOf_append _ hfirst, hplayed⟩

theorem perform (h : history.Constant) (request : Request) :
    (history.perform request).Constant := by
  cases request with
  | start now voice tones looping announced => exact h.start now voice tones looping announced
  | poll now readings => exact h.poll now readings
  | cancelEvery now => exact ⟨h.toBooked.cancelEvery now, nofun, nofun⟩
  | cancel now handle =>
    have hbooked := h.toBooked.cancel now handle
    have hkept : (history.perform (.cancel now handle)).scheduler.tasks ⊆
        history.scheduler.tasks := by
      rcases cancel_cases now handle history.scheduler with ⟨-, hcancel⟩ | ⟨task, -, hcancel⟩
      · simp only [History.perform, hcancel, List.Subset.refl]
      · simp only [History.perform, hcancel]
        exact List.filter_sublist.subset
    exact ⟨hbooked, fun task hmem => h.sounding task (hkept hmem),
      fun task hmem => h.same task (hkept hmem)⟩

theorem after (h : history.Constant) (requests : List Request) :
    (history.after requests).Constant := by
  induction requests generalizing history with
  | nil => exact h
  | cons request requests ih => exact ih (h.perform request)

/-- The last pass of a voice that plays leads up to the timer of the voice. -/
theorem gapless (h : history.Constant) {anchor : Seconds} {passes : Nat}
    (hmem : { task with passes } ∈ history.scheduler.tasks)
    (hlast : (passesOf task.handle history.passes).getLast? = some ⟨task, anchor⟩)
    (hforward : Tone.BeginsForward task.tones) :
    (Pass.mk task anchor).Gapless history.scheduler := by
  have hsome : task.tones ≠ [] := h.sounding { task with passes } hmem
  have htotal : task.total = Tone.totalLength task.tones := h.totals { task with passes } hmem
  refine ⟨programme_eq_steps hforward _ _, ?_, fun tone => ?_⟩
  · obtain ⟨⟨due, handle, epoch⟩, pass, hfilter, hepoch, hpass, hdue⟩ := h.toBooked.waiting hmem
    obtain rfl := Option.some.inj (hlast.symm.trans hpass)
    have hin : ⟨due, handle, epoch⟩ ∈ history.scheduler.timers.filter (·.handle == task.handle) :=
      hfilter ▸ List.mem_singleton_self _
    have hhandle : handle = task.handle := beq_iff_eq.1 (List.mem_filter.1 hin).2
    have hend : due = anchor + Tone.totalLength task.tones := htotal ▸ hdue
    have hnow : epoch = history.scheduler.epoch := hepoch
    rw [hfilter, hhandle, hend, hnow]
  · rw [programme_concat, Tone.elapsed_eq_totalLength hforward hsome]
    rfl

end Constant

/-! ## Runs -/

/-- A voice begins one pass between two histories: it plays what its voice was started with, its
steps are sent, and they lead up to the timer at its end. -/
structure Begins (history next : History) (pass : Pass) : Prop where
  only : passesOf pass.task.handle next.passes =
    passesOf pass.task.handle history.passes ++ [pass]
  same : ∃ first, (passesOf pass.task.handle next.passes).head? = some first ∧
    pass.task.voice = first.task.voice ∧ pass.task.tones = first.task.tones
  sent : ∃ signals, next.sent = history.sent ++ signals ∧ pass.signals <:+: signals
  gapless : Tone.BeginsForward pass.task.tones → pass.Gapless next.scheduler

theorem Constant.begins (h : next.Constant) (anchor : Seconds) (passes : Nat)
    (hmem : { task with passes } ∈ next.scheduler.tasks)
    (honly : passesOf task.handle next.passes =
      passesOf task.handle history.passes ++ [⟨task, anchor⟩])
    (hsent : ∃ signals, next.sent = history.sent ++ signals ∧
      (Pass.mk task anchor).signals <:+: signals) :
    Begins history next ⟨task, anchor⟩ where
  only := honly
  same := h.same { task with passes } hmem
  sent := hsent
  gapless := h.gapless hmem (by rw [honly, List.getLast?_concat])

theorem constant_fresh : fresh.Constant := ⟨booked_fresh, nofun, nofun⟩

/-- A voice that is started begins its first pass. -/
theorem Constant.begins_start (h : history.Constant) (hsome : tones ≠ [])
    (hfree : (looping && isStuckLoop now (Tone.totalLength tones)) = false) :
    let next := history.perform (.start now voice tones looping announced)
    let first := history.firstPass now voice tones looping announced
    Begins history next first ∧
      next.sent = history.sent ++ .start voice.oscillator now :: first.signals := by
  have hnext := h.start now voice tones looping announced
  rcases h.toBooked.start_cases now voice tones looping announced with
    ⟨hnone, -⟩ | ⟨-, htasks, hpasses, hsent⟩
  · exact absurd (hnone hfree) hsome
  · refine ⟨hnext.begins now 1 ?_ ?_ ⟨_, hsent, ?_⟩, hsent⟩
    · rw [htasks]
      exact List.mem_append_right _ (List.mem_singleton_self _)
    · rw [hpasses]
      exact passesOf_concat _ rfl
    · exact (List.suffix_cons _ _).isInfix

/-- A voice that loops begins again when its timer fires, from the time that is read then. -/
theorem Constant.begins_poll (h : history.Constant) (readings : Nat → Seconds)
    (hmem : task ∈ history.scheduler.tasks) (hlooping : task.looping = true)
    (hdue : task.handle ∈ (history.scheduler.dueTimers now).map (·.handle)) :
    ∃ count, Begins history (history.perform (.poll now readings)) ⟨task, readings count⟩ := by
  obtain ⟨hafter, count, hpasses⟩ := h.coherent.begun_of_due readings hmem hlooping hdue
  refine ⟨count, (h.poll now readings).begins _ _ hafter ?_ ⟨_, rfl, ?_⟩⟩
  · exact (passesOf_append ..).trans (congrArg _ hpasses)
  · exact signals_fireEach _ readings _ _ _ (mem_of_passesOf hpasses)

/-- Whatever is asked, the steps that are sent are those of the passes that begin. -/
theorem Constant.steps_perform (h : history.Constant) (request : Request) :
    ∃ passes signals, (history.perform request).passes = history.passes ++ passes ∧
      (history.perform request).sent = history.sent ++ signals ∧
      tuningsIn signals = passes.flatMap Pass.tunings := by
  cases request with
  | start now voice tones looping announced =>
    rcases h.toBooked.start_cases now voice tones looping announced with
      ⟨-, -, hpasses, signals, hsent, hnone⟩ | ⟨-, -, hpasses, hsent⟩
    · exact ⟨[], signals, by rw [hpasses, List.append_nil], hsent, hnone⟩
    · exact ⟨_, _, hpasses, hsent,
        (Pass.tuningsIn_signals _).trans (List.append_nil _).symm⟩
  | cancel now handle =>
    rcases cancel_cases now handle history.scheduler with ⟨-, hcancel⟩ | ⟨task, -, hcancel⟩
    · simp only [History.perform, hcancel]
      exact ⟨[], _, (List.append_nil _).symm, rfl, rfl⟩
    · simp only [History.perform, hcancel]
      exact ⟨[], _, (List.append_nil _).symm, rfl, task.voice.tuningsIn_release now⟩
  | cancelEvery now =>
    exact ⟨[], _, (List.append_nil _).symm, rfl, tuningsIn_cancelEvery now history.scheduler⟩
  | poll now readings => exact ⟨_, _, rfl, rfl, tuningsIn_fireEach ..⟩

/-- **A pass ends where one more tone would begin.**  Whatever has been asked of a scheduler, and at
whatever times, a voice that is started with tones, and any voice that begins again at a poll, steps
through the tones it was started with: through the first at the anchor, and through each of the
others behind the anchor by the length of those before it.  Its one timer is due behind the anchor
by the length of all tones, which is to the bit when one more tone would begin.  This holds as
soon as the first tone has a length that is not negative zero; and nothing else is stepped. -/
theorem gapless_after (requests : List Request) :
    let history := fresh.after requests
    (∀ now voice tones looping announced, tones ≠ [] →
      (looping && isStuckLoop now (Tone.totalLength tones)) = false →
      let next := history.perform (.start now voice tones looping announced)
      ∃ task, task.voice = voice ∧ task.tones = tones ∧ Begins history next ⟨task, now⟩ ∧
        next.sent = history.sent ++ .start voice.oscillator now :: (Pass.mk task now).signals) ∧
    (∀ now readings, ∀ task ∈ history.scheduler.tasks, task.looping = true →
      task.handle ∈ (history.scheduler.dueTimers now).map (·.handle) →
      ∃ count, Begins history (history.perform (.poll now readings)) ⟨task, readings count⟩) ∧
    ∀ request, ∃ passes signals, (history.perform request).passes = history.passes ++ passes ∧
      (history.perform request).sent = history.sent ++ signals ∧
      tuningsIn signals = passes.flatMap Pass.tunings := by
  have h := constant_fresh.after requests
  refine ⟨fun now voice tones looping announced hsome hfree => ?_,
    fun now readings task hmem hlooping hdue => h.begins_poll readings hmem hlooping hdue,
    h.steps_perform⟩
  exact ⟨_, rfl, rfl, h.begins_start hsome hfree⟩

/-- Tones whose lengths add up to more from the left than from the right. -/
def unevenTones : List Tone := [⟨440, .ofFloat 0.1⟩, ⟨220, .ofFloat 0.2⟩, ⟨330, .ofFloat 0.3⟩]

/-- These tones in a loop. -/
def unevenLoop : Request := .start (.ofFloat 0.7) ⟨⟨1, 1, [1]⟩⟩ unevenTones true false

/-- The loop begins again when it is polled late and read later still. -/
theorem gapless_after_unevenLoop :
    (∃ task, (Pass.mk task (.ofFloat 0.7)).Gapless (fresh.after [unevenLoop]).scheduler) ∧
    let next := (fresh.after [unevenLoop]).perform
      (.poll (.ofFloat 1.5) fun _ => .ofFloat 1.625)
    (∃ task, (Pass.mk task (.ofFloat 1.625)).Gapless next.scheduler) ∧
      next.scheduler.timers = [⟨.ofFloat (1.625 + (0.1 + 0.2 + 0.3)), 0, 0⟩] := by
  have hforward : Tone.BeginsForward unevenTones := by decide +kernel
  refine ⟨?_, ?_, by decide +kernel⟩
  · obtain ⟨task, -, htones, hstarted, -⟩ := (gapless_after []).1 (.ofFloat 0.7) ⟨⟨1, 1, [1]⟩⟩
      unevenTones true false (by decide) (by decide +kernel)
    rw [← htones] at hforward
    rw [after_cons, after_nil, unevenLoop]
    exact ⟨task, hstarted.gapless hforward⟩
  · obtain ⟨task, hmem, hlooping, htones, hdue⟩ :
        ∃ task ∈ (fresh.after [unevenLoop]).scheduler.tasks, task.looping = true ∧
          task.tones = unevenTones ∧ task.handle ∈
            ((fresh.after [unevenLoop]).scheduler.dueTimers (.ofFloat 1.5)).map (·.handle) := by
      decide +kernel
    obtain ⟨-, hpolled⟩ := (gapless_after [unevenLoop]).2.1 (.ofFloat 1.5)
      (fun _ => .ofFloat 1.625) task hmem hlooping hdue
    rw [← htones] at hforward
    exact ⟨task, hpolled.gapless hforward⟩

/-- After a tone of negative zero, the next one does not begin at the same zero as the deadline. -/
example :
    let tones : List Tone := [⟨440, .negativeZero⟩]
    programme 1 (tones ++ [⟨220, 0⟩]) .negativeZero = [.tune 1 440 0, .tune 1 220 0] ∧
      Seconds.negativeZero + Tone.totalLength tones = .negativeZero := by
  decide +kernel

end History

end Scheduler

end Chiptune
