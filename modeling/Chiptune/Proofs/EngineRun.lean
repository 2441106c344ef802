/-
  Runs of an engine.

  Requests come in any order, and between them the host may set its clock and change what
  it refuses.  What is kept by the few things an engine does to its scheduler and its
  graph is kept by every run.
-/
import Chiptune.Playback.Engine
import Chiptune.Graph.Recorder
import Mathlib.Data.List.Basic

set_option autoImplicit false

namespace Chiptune

namespace Stage

open AudioGraph

variable {G : Type} [AudioGraph G]

/-- Polls the scheduler and passes its signals on. -/
def poll (stage : Stage G) : Scheduler.Poll × Stage G :=
  let (poll, scheduler) := stage.scheduler.poll (now stage.graph)
  (poll, ⟨scheduler, signalAll poll.signals stage.graph⟩)

/-- A part whose chain is built starts its voice on the graph that is left. -/
theorem startPart_of_build {looping : Bool} {part : PlannedPart} {stage : Stage G}
    {chain : NodeChain} {graph : G}
    (h : NodeChain.build part.instrument destination stage.graph = (.ok chain, graph)) :
    stage.startPart looping part =
      ((stage.scheduler.start (now graph) ⟨chain⟩ part.tones looping false).1.result.mapError
          .tune,
        ⟨(stage.scheduler.start (now graph) ⟨chain⟩ part.tones looping false).2,
          signalAll (stage.scheduler.start (now graph) ⟨chain⟩ part.tones looping
            false).1.signals graph⟩) := by
  unfold startPart
  rw [h]

/-- What an engine does to its stage keeps a property, as long as it starts no parts but
those that are allowed. -/
structure KeptFor (allowed : PlannedPart → Prop) (P : Stage G → Prop) : Prop where
  retire : ∀ (handles : List VoiceId) {stage : Stage G}, P stage → P (stage.retire handles)
  startPart : ∀ (looping : Bool) {part : PlannedPart}, allowed part → ∀ {stage : Stage G},
    P stage → P (stage.startPart looping part).2
  poll : ∀ {stage : Stage G}, P stage → P stage.poll.2

/-- What an engine does to its stage keeps a property, whatever parts it starts. -/
abbrev Kept (P : Stage G → Prop) : Prop := KeptFor (fun _ => True) P

/-- What every one of some parts keeps is kept when they start in order. -/
theorem startParts_keep_of_mem {P : Stage G → Prop} {looping : Bool} {parts : List PlannedPart}
    (h : ∀ part ∈ parts, ∀ {stage : Stage G}, P stage → P (stage.startPart looping part).2)
    (handles : List VoiceId) {stage : Stage G} (hstage : P stage) :
    P (stage.startParts looping parts handles).2 := by
  induction parts generalizing handles stage with
  | nil => exact hstage
  | cons part parts ih =>
    have hnext := h part List.mem_cons_self hstage
    unfold Stage.startParts
    split
    · rename_i heq
      rwa [heq] at hnext
    · rename_i heq
      rw [heq] at hnext
      exact ih (fun other hmem => h other (List.mem_cons_of_mem _ hmem)) _ hnext

/-- What every part that starts keeps is kept when parts start in order. -/
theorem startParts_keep {P : Stage G → Prop} {looping : Bool}
    (h : ∀ (part : PlannedPart) {stage : Stage G}, P stage → P (stage.startPart looping part).2)
    (parts : List PlannedPart) (handles : List VoiceId) {stage : Stage G} (hstage : P stage) :
    P (stage.startParts looping parts handles).2 :=
  startParts_keep_of_mem (fun part _ => h part) handles hstage

theorem Kept.startParts {P : Stage G → Prop} (h : Kept P) (looping : Bool)
    (parts : List PlannedPart) (handles : List VoiceId) {stage : Stage G} (hstage : P stage) :
    P (stage.startParts looping parts handles).2 :=
  startParts_keep (fun _ => h.startPart looping trivial) parts handles hstage

end Stage

/-! ## Calls on the graph -/

namespace AudioGraph

variable {G : Type} [AudioGraph G]

/-- What every call on a graph keeps, accepted or not, as long as no effects are asked for but
those that are allowed. -/
structure KeptFor (allowed : Effect → Prop) (P : G → Prop) : Prop where
  newOscillator : ∀ (waveform : Waveform) {graph : G}, P graph → P (newOscillator waveform graph).2
  newEffect : ∀ {effect : Effect}, allowed effect → ∀ {graph : G},
    P graph → P (newEffect effect graph).2
  wire : ∀ (source target : NodeId) {graph : G}, P graph → P (wire source target graph).2
  signal : ∀ (given : Signal) {graph : G}, P graph → P (signal given graph)

/-- What every call on a graph keeps, accepted or not. -/
abbrev Kept (P : G → Prop) : Prop := KeptFor (fun _ => True) P

namespace KeptFor

variable {allowed : Effect → Prop} {P : G → Prop}

theorem signalAll (h : KeptFor allowed P) (signals : List Signal) {graph : G}
    (hgraph : P graph) : P (signalAll signals graph) := by
  induction signals generalizing graph with
  | nil => exact hgraph
  | cons given signals ih => exact ih (h.signal given hgraph)

theorem append (h : KeptFor allowed P) (output : NodeId) {effects : List Effect}
    (hallowed : ∀ effect ∈ effects, allowed effect) (tail : NodeId) (nodes : List NodeId)
    {graph : G} (hgraph : P graph) :
    P (NodeChain.append output effects tail nodes graph).2 := by
  induction effects generalizing tail nodes graph with
  | nil =>
    have hwired := h.wire tail output hgraph
    unfold NodeChain.append
    split
    · rename_i heq
      rwa [heq] at hwired
    · rename_i heq
      rwa [heq] at hwired
  | cons effect effects ih =>
    obtain ⟨heffect, hothers⟩ := List.forall_mem_cons.1 hallowed
    unfold NodeChain.append
    split
    · have hmade := h.newEffect heffect hgraph
      split
      · rename_i heq
        rwa [heq] at hmade
      · rename_i node made heq
        rw [heq] at hmade
        have hwired := h.wire tail node hmade
        split
        · rename_i heq
          rwa [heq] at hwired
        · rename_i heq
          rw [heq] at hwired
          exact ih hothers node (nodes ++ [node]) hwired
    · exact ih hothers tail nodes hgraph

theorem build (h : KeptFor allowed P) {instrument : Instrument}
    (hallowed : ∀ effect ∈ instrument.effects, allowed effect) (output : NodeId) {graph : G}
    (hgraph : P graph) : P (NodeChain.build instrument output graph).2 := by
  have hmade := h.newOscillator instrument.waveform hgraph
  unfold NodeChain.build
  split
  · rename_i heq
    rwa [heq] at hmade
  · rename_i entry made heq
    rw [heq] at hmade
    have hgrown := h.append output hallowed entry [entry] hmade
    split
    · rename_i heq
      rwa [heq] at hgrown
    · rename_i heq
      rw [heq] at hgrown
      exact h.signalAll _ hgrown

/-- What the calls on the graph keep is kept by whatever an engine does with instruments that
ask for allowed effects. -/
theorem stage (h : KeptFor allowed P) :
    Stage.KeptFor (fun part => ∀ effect ∈ part.instrument.effects, allowed effect)
      fun stage : Stage G => P stage.graph where
  retire := fun _ _ hgraph => h.signalAll _ hgraph
  startPart := by
    intro looping part hallowed stage hgraph
    have hbuilt := h.build hallowed destination hgraph
    unfold Stage.startPart
    split
    · rename_i heq
      rwa [heq] at hbuilt
    · rename_i heq
      rw [heq] at hbuilt
      exact h.signalAll _ hbuilt
  poll := fun hgraph => h.signalAll _ hgraph

end KeptFor

namespace Kept

variable {P : G → Prop}

theorem append (h : Kept P) (output : NodeId) (effects : List Effect) (tail : NodeId)
    (nodes : List NodeId) {graph : G} (hgraph : P graph) :
    P (NodeChain.append output effects tail nodes graph).2 :=
  KeptFor.append h output (fun _ _ => trivial) tail nodes hgraph

theorem build (h : Kept P) (instrument : Instrument) (output : NodeId) {graph : G}
    (hgraph : P graph) : P (NodeChain.build instrument output graph).2 :=
  KeptFor.build h (fun _ _ => trivial) output hgraph

/-- What every call on the graph keeps is kept by whatever an engine does. -/
theorem stage (h : Kept P) : Stage.Kept fun stage : Stage G => P stage.graph where
  retire := (KeptFor.stage h).retire
  startPart := fun looping _ _ => (KeptFor.stage h).startPart looping fun _ _ => trivial
  poll := (KeptFor.stage h).poll

end Kept

end AudioGraph

namespace Engine

open AudioGraph

/-! ## Requests -/

/-- What an engine is asked for. -/
inductive Request where
  | play (name : String)
  | stop
  | tick
  | replaceBook (book : Songbook)
  | listen (label : String)

/-- What an engine answers. -/
inductive Answer where
  | played (outcome : Except PlayError Unit)
  | ticked (tick : Tick)
  | done
  deriving DecidableEq

/-- Whether a track begins to play. -/
def Answer.begins : Answer → Bool
  | played (.ok ()) => true
  | _ => false

section

variable {G : Type} [AudioGraph G]

/-- Meets a request. -/
def serve (request : Request) (engine : Engine G) : Answer × Engine G :=
  match request with
  | .play name =>
    let (outcome, engine) := engine.play name
    (.played outcome, engine)
  | .stop => (.done, engine.stop)
  | .tick =>
    let (tick, engine) := engine.tick
    (.ticked tick, engine)
  | .replaceBook book => (.done, engine.replaceBook book)
  | .listen label => (.done, engine.listen label)

/-- A tick polls the scheduler, whatever becomes of the session. -/
theorem toStage_tick (engine : Engine G) : engine.tick.2.toStage = engine.toStage.poll.2 := by
  unfold tick
  simp only
  split
  · rfl
  · split
    · rfl
    · split <;> rfl

section

variable {allowed : PlannedPart → Prop} {P : Stage G → Prop} {engine : Engine G}

theorem kept_stop (h : Stage.KeptFor allowed P) (hengine : P engine.toStage) :
    P engine.stop.toStage := by
  unfold stop
  split
  · exact hengine
  · exact h.retire _ hengine

/-- A request that fails early touches nothing; otherwise the old session is ended before
the parts start, and ended again if one of them fails. -/
theorem keptFor_play (h : Stage.KeptFor allowed P) (name : String)
    (hparts : ∀ track parts, engine.plan name = .ok (track, parts) → ∀ part ∈ parts, allowed part)
    (hengine : P engine.toStage) : P (engine.play name).2.toStage := by
  unfold play
  split
  · exact hengine
  · rename_i track parts hplan
    have hstarted := Stage.startParts_keep_of_mem
      (fun part hmem => h.startPart track.looping (hparts track parts hplan part hmem)) []
      (kept_stop h hengine)
    simp only
    split
    · rename_i heq
      rwa [heq] at hstarted
    · rename_i heq
      rw [heq] at hstarted
      exact h.retire _ hstarted

/-- What an engine does to its stage with allowed parts keeps, every request keeps while all
that is planned is allowed. -/
theorem keptFor_serve (h : Stage.KeptFor allowed P) (request : Request)
    (hparts : ∀ name track parts, engine.plan name = .ok (track, parts) →
      ∀ part ∈ parts, allowed part)
    (hengine : P engine.toStage) : P (engine.serve request).2.toStage := by
  cases request with
  | play name => exact keptFor_play h name (hparts name) hengine
  | stop => exact kept_stop h hengine
  | tick =>
    have hpoll := h.poll hengine
    rwa [← toStage_tick] at hpoll
  | replaceBook book => exact kept_stop h hengine
  | listen label => exact hengine

theorem kept_play (h : Stage.Kept P) (name : String) (hengine : P engine.toStage) :
    P (engine.play name).2.toStage :=
  keptFor_play h name (fun _ _ _ _ _ => trivial) hengine

/-- What an engine does to its stage keeps, every request keeps. -/
theorem kept_serve (h : Stage.Kept P) (request : Request) (hengine : P engine.toStage) :
    P (engine.serve request).2.toStage :=
  keptFor_serve h request (fun _ _ _ _ _ _ => trivial) hengine

end

end

/-! ## Runs over a recorder -/

/-- What the host may do between requests. -/
inductive Change where
  | setClock (now : Seconds)
  /-- Refuses oscillators from now on, or no longer. -/
  | setRefusal (refuse : Bool)
  /-- Creates so many oscillators more. -/
  | setAllowance (allowance : Option Nat)
  /-- Refuses these effects and no others, and may keep silent about it. -/
  | setEffects (unsupported : List Setting) (overpromises : Bool)

/-- Makes a change. -/
def Change.apply : Change → Recorder → Recorder
  | setClock now, recorder => recorder.atTime now
  | setRefusal refuse, recorder => recorder.setRefusal refuse
  | setAllowance allowance, recorder => recorder.setAllowance allowance
  | setEffects unsupported overpromises, recorder =>
    { recorder with unsupported, overpromises }

/-- A change makes no calls and no nodes. -/
theorem calls_apply (change : Change) (recorder : Recorder) :
    (change.apply recorder).calls = recorder.calls ∧
      (change.apply recorder).nextNode = recorder.nextNode := by
  cases change <;> exact ⟨rfl, rfl⟩

/-- What happens to an engine over a recorder. -/
inductive Event where
  | ask (request : Request)
  | host (change : Change)

/-- Lets one thing happen. -/
def happen (event : Event) (engine : Engine Recorder) : Answer × Engine Recorder :=
  match event with
  | .ask request => engine.serve request
  | .host change => (.done, { engine with graph := change.apply engine.graph })

/-- Lets one thing happen after the other. -/
def after (events : List Event) (engine : Engine Recorder) : Engine Recorder :=
  events.foldl (fun engine event => (engine.happen event).2) engine

/-- What an engine answers in a run. -/
def answers : List Event → Engine Recorder → List Answer
  | [], _ => []
  | event :: events, engine =>
    let (answer, engine) := engine.happen event
    answer :: answers events engine

/-- An engine as it is made, over a record without calls. -/
def fresh (book : Songbook) (unsupported : List Setting) : Engine Recorder :=
  ofBook book (.withoutEffects unsupported)

@[simp] theorem after_nil (engine : Engine Recorder) : engine.after [] = engine := rfl

@[simp] theorem after_cons (event : Event) (events : List Event) (engine : Engine Recorder) :
    engine.after (event :: events) = (engine.happen event).2.after events := rfl

/-- What every event keeps, a run keeps. -/
theorem after_induction {P : Engine Recorder → Prop}
    (h : ∀ (event : Event) {engine : Engine Recorder}, P engine → P (engine.happen event).2)
    (events : List Event) {engine : Engine Recorder} (hengine : P engine) :
    P (engine.after events) := by
  induction events generalizing engine with
  | nil => exact hengine
  | cons event events ih => exact ih (h event hengine)

/-- What is kept on the stage and does not depend on the clock and the refusals of the
host is kept by a run. -/
theorem kept_after {P : Stage Recorder → Prop} (h : Stage.Kept P)
    (hhost : ∀ (change : Change) {stage : Stage Recorder},
      P stage → P { stage with graph := change.apply stage.graph })
    (events : List Event) {engine : Engine Recorder} (hengine : P engine.toStage) :
    P (engine.after events).toStage := by
  induction events generalizing engine with
  | nil => exact hengine
  | cons event events ih =>
    refine ih ?_
    cases event with
    | ask request => exact kept_serve h request hengine
    | host change => exact hhost change hengine

end Engine

end Chiptune
