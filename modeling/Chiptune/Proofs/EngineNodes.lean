/-
  The nodes of an engine live one life each.

  Whatever an engine is asked for, and whatever its host refuses, the nodes that are in use
  between two requests are those of the voices that play.  All others are gone, and what
  was done to each of them was done in order.
-/
import Chiptune.Proofs.Coherent
import Chiptune.Proofs.EngineRun
import Chiptune.Proofs.Tended

set_option autoImplicit false

namespace Chiptune

open AudioGraph

namespace Scheduler

/-- The voices that play. -/
def voices (scheduler : Scheduler) : List Voice := scheduler.tasks.map (·.voice)

/-- Taking one task away leaves the others. -/
theorem perm_withoutTask {tasks : List Task} {handle : VoiceId} {task : Task}
    (hnodup : (tasks.map (·.handle)).Nodup) (hfound : task? tasks handle = some task) :
    tasks.Perm (task :: withoutTask tasks handle) := by
  induction tasks with
  | nil => cases hfound
  | cons first tasks ih =>
    obtain ⟨hfirst, hnodup⟩ := List.nodup_cons.1 hnodup
    unfold task? at hfound
    unfold withoutTask
    by_cases heq : first.handle = handle
    · rw [List.find?_cons_of_pos (by simpa using heq)] at hfound
      cases hfound
      have hothers : tasks.filter (fun task => task.handle != handle) = tasks := by
        refine List.filter_eq_self.2 fun other hmem => bne_iff_ne.2 fun hother => hfirst ?_
        exact List.mem_map.2 ⟨other, hmem, hother.trans heq.symm⟩
      rw [List.filter_cons_of_neg (by simp [heq]), hothers]
    · rw [List.find?_cons_of_neg (by simpa using heq)] at hfound
      rw [List.filter_cons_of_pos (by simpa using heq)]
      exact ((ih hnodup hfound).cons first).trans (.swap task first _)

end Scheduler

namespace Stage

open Scheduler Recorder

/-- The nodes in use are those of the voices that play. -/
structure Tidy (stage : Stage Recorder) : Prop where
  coherent : stage.scheduler.Coherent
  tended : Tended stage.scheduler.voices [] stage.graph

variable {scheduler : Scheduler} {recorder : Recorder}

theorem tidy_cancel (h : Tidy ⟨scheduler, recorder⟩) (now : Seconds) (handle : VoiceId) :
    Tidy ⟨(scheduler.cancel now handle).2,
      signalAll (scheduler.cancel now handle).1.2 recorder⟩ := by
  refine ⟨coherent_cancel h.coherent now handle, ?_⟩
  rcases cancel_cases now handle scheduler with ⟨-, hcancel⟩ | ⟨task, hfound, hcancel⟩
  · rw [hcancel]
    exact h.tended
  · rw [hcancel]
    have hperm := (perm_withoutTask h.coherent.tasks_nodup hfound).map (·.voice)
    exact (h.tended.perm hperm).release now

theorem tidy_cancelEach (now : Seconds) (handles : List VoiceId) :
    ∀ {scheduler : Scheduler} {recorder : Recorder}, Tidy ⟨scheduler, recorder⟩ →
      Tidy ⟨(scheduler.cancelEach now handles).2,
        signalAll (scheduler.cancelEach now handles).1 recorder⟩ := by
  induction handles with
  | nil => exact fun h => h
  | cons handle handles ih =>
    intro scheduler recorder h
    have hrest := ih (tidy_cancel h now handle)
    rw [← signalAll_append] at hrest
    exact hrest

/-- Releasing every voice leaves no node in use. -/
theorem tended_releaseAll (now : Seconds) (voices : List Voice) :
    ∀ {recorder : Recorder}, Tended voices [] recorder →
      Tended [] [] (signalAll (voices.flatMap (·.release now)) recorder) := by
  induction voices with
  | nil => exact fun h => h
  | cons voice voices ih =>
    intro recorder h
    rw [List.flatMap_cons, signalAll_append]
    exact ih (h.release now)

theorem tidy_cancelEvery (h : Tidy ⟨scheduler, recorder⟩) (now : Seconds) :
    Tidy ⟨(scheduler.cancelEvery now).2,
      signalAll (scheduler.cancelEvery now).1 recorder⟩ := by
  refine ⟨coherent_cancelEvery h.coherent now, ?_⟩
  have hreleased := tended_releaseAll now scheduler.voices h.tended
  rw [voices, List.flatMap_map] at hreleased
  exact hreleased

/-- Each timer that fires leaves the nodes of the voices that go on. -/
theorem tended_fireAll (now : Seconds) (epoch : Nat) (timers : List Timer) :
    ∀ {tasks : List Task} {recorder : Recorder}, (tasks.map (·.handle)).Nodup →
      Tended (tasks.map (·.voice)) [] recorder →
      Tended ((fireAll now epoch timers tasks).tasks.map (·.voice)) []
        (signalAll (fireAll now epoch timers tasks).signals recorder) := by
  induction timers with
  | nil => exact fun _ h => h
  | cons timer timers ih =>
    intro tasks recorder hnodup h
    rw [fireAll, signalAll_append]
    refine ih ?_ ?_
    · rw [handles_fire]
      exact hnodup.sublist List.filter_sublist
    · rcases fire_cases now epoch timer tasks with
        ⟨-, hfire⟩ | ⟨task, hlive, -, -, hfire⟩ | ⟨task, hlive, -, -, hfire⟩
      · rw [hfire]
        exact h
      · rw [hfire, List.map_map]
        have hsame : (·.voice) ∘ nextPass timer.handle = (·.voice) := by
          funext other
          rw [Function.comp_apply, nextPass_eq]
        rw [hsame]
        have hmem := mem_of_task? (task?_of_liveTask? hlive).1
        exact h.again (List.mem_map_of_mem hmem) task.tones now
      · rw [hfire]
        have hperm := perm_withoutTask hnodup (task?_of_liveTask? hlive).1
        exact (h.perm (hperm.map _)).release now

theorem tidy_poll {stage : Stage Recorder} (h : Tidy stage) : Tidy stage.poll.2 :=
  ⟨Scheduler.coherent_poll h.coherent _, tended_fireAll _ _ _ h.coherent.tasks_nodup h.tended⟩

theorem tidy_retire (handles : List VoiceId) {stage : Stage Recorder} (h : Tidy stage) :
    Tidy (stage.retire handles) := by
  have hcancelled := tidy_cancelEvery (tidy_cancelEach stage.graph.now handles h) stage.graph.now
  rw [← signalAll_append] at hcancelled
  exact hcancelled

/-- A voice that starts takes over the nodes of its chain, unless it has none left to keep. -/
theorem tidy_start {chain : NodeChain} (hcoherent : scheduler.Coherent)
    (h : Tended scheduler.voices chain.nodes recorder)
    (hchain : chain.nodes.head? = some chain.entry) (now : Seconds) (tones : List Tone)
    (looping announced : Bool) :
    Tidy ⟨(scheduler.start now ⟨chain⟩ tones looping announced).2,
      signalAll (scheduler.start now ⟨chain⟩ tones looping announced).1.signals recorder⟩ := by
  refine ⟨coherent_start hcoherent now ⟨chain⟩ tones looping announced, ?_⟩
  rcases start_cases now ⟨chain⟩ tones looping announced scheduler with
    ⟨-, -, hstart⟩ | ⟨-, -, hstart⟩ | ⟨-, -, hstart⟩
  · rw [hstart]
    exact h.discard
  · rw [hstart]
    exact (h.start hchain [] now).release now
  · rw [hstart]
    refine (h.start hchain tones now).perm ?_
    change List.Perm _ ((scheduler.tasks ++ [_]).map Task.voice)
    rw [List.map_append]
    exact (List.perm_append_singleton _ _).symm

theorem tidy_startPart (looping : Bool) (part : PlannedPart) {stage : Stage Recorder}
    (h : Tidy stage) : Tidy (stage.startPart looping part).2 := by
  unfold startPart
  rcases h.tended.build part.instrument with
    ⟨chain, built, heq, htended, hchain⟩ | ⟨fault, left, heq, htended⟩
  · rw [heq]
    exact tidy_start h.coherent htended hchain built.now part.tones looping false
  · rw [heq]
    exact ⟨h.coherent, htended⟩

/-- Whatever an engine does leaves no node in use but those of the voices that play. -/
theorem kept_tidy : Kept Tidy where
  retire := tidy_retire
  startPart := fun looping part _ _ h => tidy_startPart looping part h
  poll := tidy_poll

end Stage

namespace Engine

open Recorder

theorem tidy_after (book : Songbook) (unsupported : List Setting) (events : List Event) :
    ((fresh book unsupported).after events).toStage.Tidy := by
  refine kept_after Stage.kept_tidy (fun change stage h => ⟨h.coherent, ?_⟩) events
    ⟨Scheduler.coherent_empty, tended_withoutEffects unsupported⟩
  obtain ⟨hcalls, hnext⟩ := calls_apply change stage.graph
  exact h.tended.congr hcalls hnext

/-- The phase of every node that has been created tells whether it is in use. -/
theorem phase_cases {voices : List Voice} {recorder : Recorder} (h : Tended voices [] recorder)
    {node : NodeId} (hnode : node ≠ destination) :
    recorder.phase node = some .unborn ∨
      (∃ voice ∈ voices, node ∈ voice.owned ∧
        ∃ phase, recorder.phase node = some phase ∧ phase ≠ .gone) ∨
      ((∀ voice ∈ voices, node ∉ voice.owned) ∧ recorder.phase node = some .gone) := by
  rcases Nat.lt_or_ge node recorder.nextNode with hlt | hle
  · by_cases hin : ∃ voice ∈ voices, node ∈ voice.chain.nodes
    · obtain ⟨voice, hvoice, hmem⟩ := hin
      refine Or.inr (Or.inl ⟨voice, hvoice, List.mem_cons_of_mem _ hmem, _,
        h.playing voice hvoice node hmem, ?_⟩)
      split <;> decide
    · have hout : ∀ voice ∈ voices, node ∉ voice.owned := by
        intro voice hvoice hmem
        exact hin ⟨voice, hvoice, h.mem_nodes_of_owned hvoice hmem⟩
      refine Or.inr (Or.inr ⟨hout, h.gone node hnode hlt fun hused => hin ?_⟩)
      exact List.mem_flatMap.1 hused
  · exact Or.inl (h.unborn node hle)

/-- **Every node lives one life.**  Take any run of an engine over a recorder, with any
requests, and with any changes of the clock and of what is refused between them.  The calls
that mention a node form a life cycle; and a node that has been created has been
detached unless it belongs to a voice that is playing. -/
theorem lifeCycle_after (book : Songbook) (unsupported : List Setting) (events : List Event)
    (node : NodeId) (hnode : node ≠ destination) :
    let engine := (fresh book unsupported).after events
    LifeCycle (history node engine.graph.calls) ∧
      ((∃ role ∈ history node engine.graph.calls, role.isCreation = true) →
        (.detached ∈ history node engine.graph.calls ↔
          ∀ task ∈ engine.scheduler.tasks, node ∉ task.voice.owned)) := by
  intro engine
  have htended := (tidy_after book unsupported events).tended
  rcases phase_cases htended hnode with hphase | ⟨voice, hvoice, hmem, phase, hphase, hlives⟩ |
    ⟨hout, hphase⟩
  · refine ⟨lifeCycle_of_follow? hphase, ?_⟩
    rintro ⟨role, hrole, -⟩
    rw [(past_of_follow? hphase).unborn.1 rfl] at hrole
    cases hrole
  · refine ⟨lifeCycle_of_follow? hphase, fun _ => ⟨fun hdetached => ?_, fun hout => ?_⟩⟩
    · exact absurd ((past_of_follow? hphase).gone.2 hdetached) hlives
    · obtain ⟨task, htask, rfl⟩ := List.mem_map.1 hvoice
      exact absurd hmem (hout task htask)
  · refine ⟨lifeCycle_of_follow? hphase, fun _ => ⟨fun _ task htask => ?_, fun _ => ?_⟩⟩
    · exact hout task.voice (List.mem_map_of_mem htask)
    · exact (past_of_follow? hphase).gone.1 rfl

/-- A songbook with one tone of one second. -/
def oneToneBook : Songbook :=
  ⟨Table.empty.insert "ABC" (.plain .sine), Table.empty.insert "song" ⟨60, false, ["ABCC44"]⟩⟩

/-- The tone is heard to its end. -/
def oneToneRun : List Event :=
  [.ask (.play "song"), .host (.setClock (.ofFloat 1)), .ask .tick]

/-- The oscillator of the tone has lived its life. -/
theorem lifeCycle_oneToneRun :
    history 1 ((fresh oneToneBook []).after oneToneRun).graph.calls =
        [.madeOscillator, .wired, .started, .tuned, .stopped, .detached] ∧
      LifeCycle (history 1 ((fresh oneToneBook []).after oneToneRun).graph.calls) ∧
      (.detached ∈ history 1 ((fresh oneToneBook []).after oneToneRun).graph.calls ↔
        ∀ task ∈ ((fresh oneToneBook []).after oneToneRun).scheduler.tasks,
          1 ∉ task.voice.owned) := by
  obtain ⟨hlife, hdetached⟩ := lifeCycle_after oneToneBook [] oneToneRun 1 (by decide)
  exact ⟨by decide +kernel, hlife, hdetached ⟨.madeOscillator, by decide +kernel, rfl⟩⟩

end Engine

end Chiptune
