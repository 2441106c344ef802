/-
  A log of the steps of frequency.

  Voices are built on a recorder, and started, cancelled and polled in any order while the
  host sets the clock and refuses what it likes.  Every move has an entry in the log: the clock
  as it was read, the passes that began and the steps of frequency that were recorded, which are
  those of the passes.
-/
import Chiptune.Proofs.PassTimes
import Chiptune.Proofs.SchedulerRun
import Chiptune.Proofs.Score

set_option autoImplicit false

namespace Chiptune

open AudioGraph
open Scheduler (Pass)

/-! ## Steps of frequency -/

/-- The step of frequency that a signal is, if it is one. -/
def Signal.tuning? : Signal → Option (NodeId × Float × Seconds)
  | tune oscillator hz time => some (oscillator, hz, time)
  | _ => none

/-- The steps of frequency among signals, in order. -/
def tuningsIn (signals : List Signal) : List (NodeId × Float × Seconds) :=
  signals.filterMap Signal.tuning?

theorem tuningsIn_append (first second : List Signal) :
    tuningsIn (first ++ second) = tuningsIn first ++ tuningsIn second :=
  List.filterMap_append

/-- Detaching nodes steps no frequency. -/
theorem tuningsIn_detach (nodes : List NodeId) : tuningsIn (nodes.map .detach) = [] := by
  simp [tuningsIn, Signal.tuning?]

theorem Voice.tuningsIn_discard (voice : Voice) : tuningsIn voice.discard = [] :=
  tuningsIn_detach voice.chain.nodes

theorem Voice.tuningsIn_release (voice : Voice) (now : Seconds) :
    tuningsIn (voice.release now) = [] :=
  voice.tuningsIn_discard

/-- The steps of a pass are those that are sent for it. -/
theorem Scheduler.Pass.tuningsIn_signals (pass : Pass) : tuningsIn pass.signals = pass.tunings := by
  have hsignals : pass.signals = pass.tunings.map fun (oscillator, hz, time) =>
      .tune oscillator hz time := by
    rw [tunings, List.map_zipWith]
    rfl
  rw [hsignals, tuningsIn, List.filterMap_map]
  exact List.filterMap_some

namespace Scheduler

/-- The passes that a poll begins. -/
def begunAt (now : Seconds) (scheduler : Scheduler) : List Pass :=
  begun scheduler.epoch (fun _ => now) (scheduler.dueTimers now) scheduler.tasks

/-- The steps of frequency of a firing are those of the passes that begin. -/
theorem tuningsIn_fire (now : Seconds) (epoch : Nat) (timer : Timer) (tasks : List Task) :
    tuningsIn (fire now epoch timer tasks).signals =
      (begunBy now epoch timer tasks).flatMap Pass.tunings := by
  unfold begunBy
  rcases fire_cases now epoch timer tasks with
    ⟨hlive, hfire⟩ | ⟨task, hlive, -, hlooping, hfire⟩ | ⟨task, hlive, -, hlooping, hfire⟩
  · rw [hfire, hlive]
    rfl
  · rw [hfire, hlive, Option.filter_some, if_pos hlooping]
    exact ((Pass.mk task now).tuningsIn_signals).trans (List.append_nil _).symm
  · rw [hfire, hlive, Option.filter_some, hlooping]
    exact task.voice.tuningsIn_release now

theorem tuningsIn_fireEach (epoch : Nat) (readings : Nat → Seconds) (timers : List Timer)
    (tasks : List Task) :
    tuningsIn (fireEach epoch readings timers tasks).signals =
      (begun epoch readings timers tasks).flatMap Pass.tunings := by
  induction timers generalizing readings tasks with
  | nil => rfl
  | cons timer timers ih =>
    rw [fireEach, begun, tuningsIn_append, List.flatMap_append, tuningsIn_fire, ih]

/-- Releasing every voice steps no frequency. -/
theorem tuningsIn_cancelEvery (now : Seconds) (scheduler : Scheduler) :
    tuningsIn (scheduler.cancelEvery now).1 = [] := by
  rw [cancelEvery, tuningsIn, List.filterMap_flatMap]
  exact List.flatMap_eq_nil_iff.2 fun task _ => task.voice.tuningsIn_release now

end Scheduler

namespace Recorder

/-- A recorder adds the steps of frequency among the signals it is given. -/
theorem tunings_signalAll (signals : List Signal) (recorder : Recorder) :
    (signalAll signals recorder).tunings = recorder.tunings ++ tuningsIn signals := by
  rw [tunings, calls_signalAll, List.filterMap_append, List.filterMap_map]
  congr 1
  refine congrArg (List.filterMap · signals) (funext fun given => ?_)
  cases given <;> rfl

/-- Calls that are no signals step no frequency. -/
theorem tunings_append (output : NodeId) (effects : List Effect) (tail : NodeId)
    (nodes : List NodeId) (recorder : Recorder) :
    (NodeChain.append output effects tail nodes recorder).2.tunings = recorder.tunings := by
  induction effects generalizing tail nodes recorder with
  | nil =>
    unfold NodeChain.append
    rcases wire_cases tail output recorder with ⟨fault, heq⟩ | heq
    · rw [heq]
    · rw [heq]
      simp [tunings]
  | cons effect effects ih =>
    unfold NodeChain.append
    split
    · rcases newEffect_cases effect recorder with heq | heq
      · rw [heq]
      · rw [heq]
        generalize hmade : { recorder with
          calls := recorder.calls ++ [Call.newEffect recorder.nextNode effect]
          nextNode := recorder.nextNode + 1 } = made
        have hsame : made.tunings = recorder.tunings := by
          rw [← hmade]
          simp [tunings]
        simp only
        rcases wire_cases tail recorder.nextNode made with ⟨fault, heq⟩ | heq
        · rw [heq]
          exact hsame
        · rw [heq]
          refine (ih _ _ _).trans ?_
          rw [← hsame]
          simp [tunings]
    · exact ih tail nodes recorder

/-- Building a chain steps no frequency, whether it is completed or not. -/
theorem tunings_build (instrument : Instrument) (output : NodeId) (recorder : Recorder) :
    (NodeChain.build instrument output recorder).2.tunings = recorder.tunings := by
  unfold NodeChain.build
  obtain ⟨refuses, allowance, heq | heq⟩ := newOscillator_cases instrument.waveform recorder
  · rw [heq]
    rfl
  · rw [heq]
    generalize hmade : { recorder with
      refusesOscillators := refuses
      allowance := allowance
      calls := recorder.calls ++ [Call.newOscillator recorder.nextNode instrument.waveform]
      nextNode := recorder.nextNode + 1 } = made
    have hsame : made.tunings = recorder.tunings := by
      rw [← hmade]
      simp [tunings]
    have hgrown := tunings_append output instrument.effects recorder.nextNode
      [recorder.nextNode] made
    simp only
    split
    · rename_i heq
      rw [heq] at hgrown
      exact hgrown.trans hsame
    · rename_i heq
      rw [heq] at hgrown
      rw [tunings_signalAll, tuningsIn_detach, List.append_nil]
      exact hgrown.trans hsame

/-- A chain that is built has a new oscillator. -/
theorem entry_build {instrument : Instrument} {output : NodeId} {recorder built : Recorder}
    {chain : NodeChain} (h : NodeChain.build instrument output recorder = (.ok chain, built)) :
    chain.entry = recorder.nextNode ∧ recorder.nextNode < built.nextNode := by
  unfold NodeChain.build at h
  split at h
  · cases h
  · rename_i entry created hcreate
    obtain ⟨hentry, -, hnext, -⟩ := newOscillator_ok hcreate
    have hgrown := (kept_nextNode created.nextNode).append output instrument.effects entry [entry]
      (Nat.le_refl _)
    split at h
    · rename_i happend
      rw [happend, hnext] at hgrown
      cases h
      exact ⟨hentry, hgrown⟩
    · cases h

end Recorder

namespace Stage

/-! ## Moves -/

/-- What is done on a stage: a voice is built on its graph, or its scheduler is asked for
something, or the host changes the clock or what is refused. -/
inductive Move where
  | build (instrument : Instrument) (output : NodeId)
  | take (step : Step)
  | host (change : Engine.Change)

namespace Move

/-- Makes a move. -/
def perform (move : Move) (stage : Stage Recorder) : Stage Recorder :=
  match move with
  | build instrument output =>
    { stage with graph := (NodeChain.build instrument output stage.graph).2 }
  | take step => (stage.perform step).2
  | host change => { stage with graph := change.apply stage.graph }

/-- The voice that a move builds. -/
def built? (stage : Stage Recorder) : Move → Option Voice
  | build instrument output =>
    (NodeChain.build instrument output stage.graph).1.toOption.map Voice.mk
  | _ => none

/-- The voice that a move hands over to be started. -/
def voice? : Move → Option Voice
  | take step => step.voice?
  | _ => none

/-- The tones that a move hands over. -/
def tones : Move → List Tone
  | take (.start _ tones _ _) => tones
  | _ => []

def isPoll : Move → Bool
  | take .poll => true
  | _ => false

/-- Whether a move reads the clock to step frequencies by it. -/
def reads : Move → Bool
  | take (.start _ _ _ _) => true
  | move => move.isPoll

/-- The passes that begin with a move. -/
def passes (stage : Stage Recorder) : Move → List Pass
  | take (.start voice tones looping announced) =>
    let (_, scheduler) := stage.scheduler.start (now stage.graph) voice tones looping announced
    (scheduler.tasks.drop stage.scheduler.tasks.length).map (⟨·, now stage.graph⟩)
  | take .poll =>
    stage.scheduler.begunAt (now stage.graph)
  | _ => []

end Move

/-- What is known of a move. -/
structure Entry where
  move : Move
  /-- The time on the clock when the move is made. -/
  reading : Seconds
  passes : List Pass
  /-- The steps of frequency that are recorded. -/
  tunings : List (NodeId × Float × Seconds)

/-- The entry of a move. -/
def entry (move : Move) (stage : Stage Recorder) : Entry :=
  ⟨move, now stage.graph, move.passes stage,
    (move.perform stage).graph.tunings.drop stage.graph.tunings.length⟩

/-- The entries of moves in order. -/
def log : List Move → Stage Recorder → List Entry
  | [], _ => []
  | move :: moves, stage => stage.entry move :: log moves (move.perform stage)

/-- Makes moves in order. -/
def afterMoves (moves : List Move) (stage : Stage Recorder) : Stage Recorder :=
  moves.foldl (fun stage move => move.perform stage) stage

/-- The voices that moves build, in order. -/
def built : List Move → Stage Recorder → List Voice
  | [], _ => []
  | move :: moves, stage => (move.built? stage).toList ++ built moves (move.perform stage)

variable {stage : Stage Recorder}

/-- The passes of a move make up what is recorded. -/
theorem tunings_perform (move : Move) (stage : Stage Recorder) :
    (move.perform stage).graph.tunings =
      stage.graph.tunings ++ (move.passes stage).flatMap Pass.tunings := by
  cases move with
  | build instrument output =>
    exact (Recorder.tunings_build instrument output stage.graph).trans (List.append_nil _).symm
  | host change =>
    have hcalls := (Engine.calls_apply change stage.graph).1
    simp [Move.perform, Move.passes, Recorder.tunings, hcalls]
  | take step =>
    cases step with
    | start voice tones looping announced =>
      simp only [Move.perform, perform, Move.passes, Recorder.tunings_signalAll]
      rcases Scheduler.start_cases (now stage.graph) voice tones looping announced
        stage.scheduler with ⟨-, -, hstart⟩ | ⟨-, -, hstart⟩ | ⟨-, -, hstart⟩
      · rw [hstart, voice.tuningsIn_discard, List.drop_length]
        rfl
      · rw [hstart, List.drop_length]
        exact congrArg _ (voice.tuningsIn_release (now stage.graph))
      · have hpass := (Pass.mk ⟨stage.scheduler.nextHandle, voice, tones, looping,
          Tone.totalLength tones, stage.scheduler.epoch, 1, announced⟩
          (now stage.graph)).tuningsIn_signals
        rw [hstart, List.drop_left]
        exact congrArg _ (hpass.trans (List.append_nil _).symm)
    | cancel handle =>
      rcases Scheduler.cancel_cases (now stage.graph) handle stage.scheduler with
        ⟨-, hcancel⟩ | ⟨task, -, hcancel⟩
      · simp only [Move.perform, perform, hcancel, Recorder.tunings_signalAll]
        rfl
      · simp only [Move.perform, perform, hcancel, Recorder.tunings_signalAll,
          task.voice.tuningsIn_release]
        rfl
    | cancelEvery =>
      simp only [Move.perform, perform, Recorder.tunings_signalAll]
      exact congrArg _ (Scheduler.tuningsIn_cancelEvery (now stage.graph) stage.scheduler)
    | poll =>
      simp only [Move.perform, perform, Move.passes, Recorder.tunings_signalAll]
      rw [Scheduler.begunAt, ← Scheduler.tuningsIn_fireEach, Scheduler.fireEach_const]
      rfl
    | setClock time => exact (List.append_nil _).symm

/-- The entry of a move holds what its passes step. -/
theorem tunings_entry (move : Move) (stage : Stage Recorder) :
    (stage.entry move).tunings = (stage.entry move).passes.flatMap Pass.tunings := by
  simp only [entry, tunings_perform, List.drop_left]

/-- The entries hold all that is recorded. -/
theorem tunings_afterMoves (moves : List Move) (stage : Stage Recorder) :
    (afterMoves moves stage).graph.tunings =
      stage.graph.tunings ++ (log moves stage).flatMap (·.tunings) := by
  induction moves generalizing stage with
  | nil => exact (List.append_nil _).symm
  | cons move moves ih =>
    rw [log, List.flatMap_cons, tunings_entry, ← List.append_assoc]
    exact (ih (move.perform stage)).trans (congrArg (· ++ _) (tunings_perform move stage))

/-! ## Voices that are built -/

/-- A move forgets no nodes, and a voice that is built drives a new one. -/
theorem nextNode_perform (move : Move) (stage : Stage Recorder) :
    stage.graph.nextNode ≤ (move.perform stage).graph.nextNode ∧
      ∀ voice, move.built? stage = some voice →
        voice.oscillator = stage.graph.nextNode ∧
          stage.graph.nextNode < (move.perform stage).graph.nextNode := by
  cases move with
  | build instrument output =>
    refine ⟨(Recorder.kept_nextNode _).build instrument output (Nat.le_refl _), ?_⟩
    intro voice hbuilt
    simp only [Move.built?, Move.perform] at hbuilt ⊢
    cases hbuild : NodeChain.build instrument output stage.graph with
    | mk outcome graph =>
      rw [hbuild] at hbuilt
      cases outcome with
      | error fault => cases hbuilt
      | ok chain =>
        cases hbuilt
        exact Recorder.entry_build hbuild
  | take step =>
    refine ⟨?_, nofun⟩
    cases step with
    | setClock time => exact Nat.le_refl _
    | _ => exact (Recorder.kept_nextNode _).signalAll _ (Nat.le_refl _)
  | host change => exact ⟨Nat.le_of_eq (Engine.calls_apply change stage.graph).2.symm, nofun⟩

/-- No two voices that are built share an oscillator. -/
theorem built_apart (moves : List Move) (stage : Stage Recorder) :
    ((built moves stage).map (·.oscillator)).Nodup ∧
      ∀ voice ∈ built moves stage, stage.graph.nextNode ≤ voice.oscillator := by
  induction moves generalizing stage with
  | nil => exact ⟨List.nodup_nil, nofun⟩
  | cons move moves ih =>
    obtain ⟨hnodup, hlater⟩ := ih (move.perform stage)
    obtain ⟨hgrown, hnew⟩ := nextNode_perform move stage
    rw [built]
    cases hbuilt : move.built? stage with
    | none => exact ⟨hnodup, fun voice hmem => Nat.le_trans hgrown (hlater voice hmem)⟩
    | some voice =>
      obtain ⟨hoscillator, hnext⟩ := hnew voice hbuilt
      refine ⟨List.nodup_cons.2 ⟨fun hmem => ?_, hnodup⟩, fun other hmem => ?_⟩
      · obtain ⟨other, hother, heq⟩ := List.mem_map.1 hmem
        have hsame : other.oscillator = stage.graph.nextNode := heq.trans hoscillator
        exact Nat.not_lt_of_le (hlater other hother) (hsame ▸ hnext)
      · rcases List.mem_cons.1 hmem with rfl | hmem
        · exact Nat.le_of_eq hoscillator.symm
        · exact Nat.le_trans hgrown (hlater other hmem)

end Stage

end Chiptune
