/-
  The scheduler: which voices are playing and when they end.

  Each voice has one timer, due at the end of its tones.  When the timer fires, the
  voice is released, or programmed once more from the time at which the firing
  was observed if it loops.  A timer is stale when its voice is gone or when the
  scheduler has moved on to a later epoch; stale timers fire without effect.

  The scheduler makes no calls: each operation is told the time, and gives the
  signals that are to be sent.
-/
import Chiptune.Playback.Voice
import Chiptune.Playback.Timer

set_option autoImplicit false

namespace Chiptune

/-- A voice that is playing. -/
structure Task where
  handle : VoiceId
  voice : Voice
  tones : List Tone
  looping : Bool
  /-- The length of the tones together. -/
  total : Seconds
  /-- The epoch of the scheduler in which the voice was started. -/
  epoch : Nat
  /-- How often the tones have been programmed. -/
  passes : Nat
  /-- Whether the end of the voice is announced. -/
  announced : Bool
  deriving DecidableEq

/-- The voices that are playing, with their timers. -/
structure Scheduler where
  epoch : Nat
  nextHandle : VoiceId
  /-- The voices in the order of their handles. -/
  tasks : List Task
  /-- The timers in the order in which they fire. -/
  timers : List Timer
  /-- Voices that ended when they started and have not been reported. -/
  endedEarly : List VoiceId
  deriving DecidableEq

namespace Scheduler

/-- The scheduler without voices. -/
def empty : Scheduler := ⟨0, 0, [], [], []⟩

instance : Inhabited Scheduler := ⟨empty⟩

/-- The task of a handle. -/
def task? (tasks : List Task) (handle : VoiceId) : Option Task :=
  tasks.find? fun task => task.handle == handle

/-- The tasks without that of a handle. -/
def withoutTask (tasks : List Task) (handle : VoiceId) : List Task :=
  tasks.filter fun task => task.handle != handle

/-! ## Starting and cancelling -/

/-- What becomes of a voice that is to be started. -/
structure Start where
  result : Except MusicError VoiceId
  signals : List Signal
  /-- The voices whose end is announced. -/
  announced : List VoiceId

/-- Starts a voice at the given time.  A loop that is stuck is refused and its nodes are
detached.  A voice without tones ends at once, and is reported by the next poll. -/
def start (now : Seconds) (voice : Voice) (tones : List Tone) (looping announced : Bool)
    (scheduler : Scheduler) : Start × Scheduler :=
  let total := Tone.totalLength tones
  if looping && isStuckLoop now total then
    (⟨.error .stuckLoop, voice.discard, []⟩, scheduler)
  else
    let handle := scheduler.nextHandle
    let begun := .start voice.oscillator now :: programme voice.oscillator tones now
    if tones.isEmpty then
      (⟨.ok handle, begun ++ voice.release now, if announced then [handle] else []⟩,
        { scheduler with
          nextHandle := handle + 1
          endedEarly := scheduler.endedEarly ++ [handle] })
    else
      (⟨.ok handle, begun, []⟩,
        { scheduler with
          nextHandle := handle + 1
          tasks := scheduler.tasks ++
            [⟨handle, voice, tones, looping, total, scheduler.epoch, 1, announced⟩]
          timers := Timer.arm ⟨now + total, handle, scheduler.epoch⟩ scheduler.timers })

/-- Releases a voice; the answer says whether it was still playing. -/
def cancel (now : Seconds) (handle : VoiceId) (scheduler : Scheduler) :
    (Bool × List Signal) × Scheduler :=
  match task? scheduler.tasks handle with
  | some task =>
    ((true, task.voice.release now),
      { scheduler with tasks := withoutTask scheduler.tasks handle })
  | none => ((false, []), scheduler)

/-- Releases every voice and makes every timer stale. -/
def cancelEvery (now : Seconds) (scheduler : Scheduler) : List Signal × Scheduler :=
  (scheduler.tasks.flatMap fun task => task.voice.release now,
    { scheduler with epoch := scheduler.epoch + 1, tasks := [], endedEarly := [] })

/-- Releases some voices in order. -/
def cancelEach (now : Seconds) : List VoiceId → Scheduler → List Signal × Scheduler
  | [], scheduler => ([], scheduler)
  | handle :: handles, scheduler =>
    let ((_, signals), scheduler) := scheduler.cancel now handle
    let (others, scheduler) := cancelEach now handles scheduler
    (signals ++ others, scheduler)

/-! ## Firing timers -/

/-- What the firing of timers brings about. -/
structure Firing where
  signals : List Signal
  /-- The voices whose end is announced. -/
  announced : List VoiceId
  ended : List VoiceId
  /-- The timers of the voices that began again. -/
  rearmed : List Timer
  /-- The voices that go on playing. -/
  tasks : List Task

/-- The voice of a timer, unless the timer is stale. -/
def liveTask? (epoch : Nat) (tasks : List Task) (timer : Timer) : Option Task :=
  (task? tasks timer.handle).filter fun task =>
    timer.epoch == epoch && task.epoch == timer.epoch

/-- Fires one timer. -/
def fire (now : Seconds) (epoch : Nat) (timer : Timer) (tasks : List Task) : Firing :=
  match liveTask? epoch tasks timer with
  | none => ⟨[], [], [], [], tasks⟩
  | some task =>
    if task.looping then
      { signals := programme task.voice.oscillator task.tones now
        announced := []
        ended := []
        rearmed := [⟨now + task.total, task.handle, epoch⟩]
        tasks := tasks.map fun other =>
          if other.handle == task.handle then { other with passes := other.passes + 1 }
          else other }
    else
      { signals := task.voice.release now
        announced := if task.announced then [task.handle] else []
        ended := [task.handle]
        rearmed := []
        tasks := withoutTask tasks task.handle }

/-- Fires timers in order. -/
def fireAll (now : Seconds) (epoch : Nat) : List Timer → List Task → Firing
  | [], tasks => ⟨[], [], [], [], tasks⟩
  | timer :: timers, tasks =>
    let first := fire now epoch timer tasks
    let others := fireAll now epoch timers first.tasks
    { signals := first.signals ++ others.signals
      announced := first.announced ++ others.announced
      ended := first.ended ++ others.ended
      rearmed := first.rearmed ++ others.rearmed
      tasks := others.tasks }

/-- What a poll brings about. -/
structure Poll where
  /-- The voices that ended since the last poll. -/
  ended : List VoiceId
  signals : List Signal
  /-- The voices whose end is announced. -/
  announced : List VoiceId

/-- Fires every timer that is due.  The timers of voices that begin again are armed
when all of these have fired, so that a voice begins again at most once. -/
def poll (now : Seconds) (scheduler : Scheduler) : Poll × Scheduler :=
  let isDue (timer : Timer) : Bool := timer.due ≤ now
  let firing := fireAll now scheduler.epoch (scheduler.timers.takeWhile isDue) scheduler.tasks
  (⟨scheduler.endedEarly ++ firing.ended, firing.signals, firing.announced⟩,
    { scheduler with
      tasks := firing.tasks
      timers := firing.rearmed.foldl (fun timers timer => timer.arm timers)
        (scheduler.timers.dropWhile isDue)
      endedEarly := [] })

/-! ## Looking -/

/-- Whether a voice is playing. -/
def plays (scheduler : Scheduler) (handle : VoiceId) : Bool :=
  (task? scheduler.tasks handle).isSome

/-- How many voices are playing. -/
def playingCount (scheduler : Scheduler) : Nat := scheduler.tasks.length

/-- How often the tones of a voice have been programmed. -/
def passes (scheduler : Scheduler) (handle : VoiceId) : Option Nat :=
  (task? scheduler.tasks handle).map (·.passes)

/-- The time at which the next timer is due, stale or not. -/
def nextDue (scheduler : Scheduler) : Option Seconds :=
  scheduler.timers.head?.map (·.due)

end Scheduler

end Chiptune
