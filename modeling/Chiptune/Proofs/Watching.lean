/-
  Hosts that are watched.

  Whatever an engine asks of its host can be noted on the way without making a difference to
  anyone: a map between graphs that meets every call on both sides alike takes a run over
  the one graph to the run over the other.  A watched host is one that notes the
  effects it is asked for, those that it refuses among them.
-/
import Chiptune.Proofs.Turns

set_option autoImplicit false

namespace Chiptune

variable {G H : Type} [AudioGraph G] [AudioGraph H]

/-! ## Maps between graphs -/

namespace AudioGraph

/-- A map that every call goes along with. -/
structure Projects (f : G → H) : Prop where
  now_eq : ∀ graph, now (f graph) = now graph
  supports_eq : ∀ graph, supports (f graph) = supports graph
  newOscillator_eq : ∀ waveform graph,
    newOscillator waveform (f graph) = Prod.map id f (newOscillator waveform graph)
  newEffect_eq : ∀ effect graph, newEffect effect (f graph) = Prod.map id f (newEffect effect graph)
  wire_eq : ∀ source target graph,
    wire source target (f graph) = Prod.map id f (wire source target graph)
  signal_eq : ∀ given graph, signal given (f graph) = f (signal given graph)

namespace Projects

variable {f : G → H}

theorem signalAll (h : Projects f) (signals : List Signal) (graph : G) :
    signalAll signals (f graph) = f (signalAll signals graph) := by
  induction signals generalizing graph with
  | nil => rfl
  | cons given signals ih => rw [signalAll_cons, signalAll_cons, h.signal_eq, ih]

theorem append (h : Projects f) (output : NodeId) (effects : List Effect) (tail : NodeId)
    (nodes : List NodeId) (graph : G) :
    NodeChain.append output effects tail nodes (f graph) =
      Prod.map id f (NodeChain.append output effects tail nodes graph) := by
  induction effects generalizing tail nodes graph with
  | nil =>
    rw [NodeChain.append, NodeChain.append, h.wire_eq]
    obtain ⟨_ | _, wired⟩ := wire tail output graph <;> rfl
  | cons effect effects ih =>
    rw [NodeChain.append, NodeChain.append, h.supports_eq, h.newEffect_eq]
    split
    · obtain ⟨_ | node, made⟩ := newEffect effect graph
      · rfl
      · simp only [Prod.map, id, h.wire_eq]
        obtain ⟨_ | _, wired⟩ := wire tail node made
        · rfl
        · exact ih node (nodes ++ [node]) wired
    · exact ih tail nodes graph

theorem build (h : Projects f) (instrument : Instrument) (output : NodeId) (graph : G) :
    NodeChain.build instrument output (f graph) =
      Prod.map id f (NodeChain.build instrument output graph) := by
  rw [NodeChain.build, NodeChain.build, h.newOscillator_eq]
  obtain ⟨_ | entry, made⟩ := newOscillator instrument.waveform graph
  · rfl
  · simp only [Prod.map, id, h.append]
    obtain ⟨⟨_ | terminal, nodes⟩, grown⟩ :=
      NodeChain.append output instrument.effects entry [entry] made
    · exact congrArg (Prod.mk _) (h.signalAll _ grown)
    · rfl

end Projects

end AudioGraph

open AudioGraph

namespace Stage

/-- A stage with another graph in the place of its own. -/
def onto (f : G → H) (stage : Stage G) : Stage H := ⟨stage.scheduler, f stage.graph⟩

variable {f : G → H}

theorem retire_onto (h : Projects f) (handles : List VoiceId) (stage : Stage G) :
    (stage.onto f).retire handles = (stage.retire handles).onto f := by
  simp only [retire, onto, h.now_eq, h.signalAll]

theorem startPart_onto (h : Projects f) (looping : Bool) (part : PlannedPart) (stage : Stage G) :
    (stage.onto f).startPart looping part =
      Prod.map id (onto f) (stage.startPart looping part) := by
  simp only [startPart, onto, h.build]
  obtain ⟨_ | chain, built⟩ := NodeChain.build part.instrument destination stage.graph
  · rfl
  · simp only [Prod.map, id, h.now_eq, h.signalAll]
    rfl

theorem startParts_onto (h : Projects f) (looping : Bool) (parts : List PlannedPart)
    (handles : List VoiceId) (stage : Stage G) :
    (stage.onto f).startParts looping parts handles =
      Prod.map id (onto f) (stage.startParts looping parts handles) := by
  induction parts generalizing handles stage with
  | nil => rfl
  | cons part parts ih =>
    rw [startParts, startParts, startPart_onto h]
    obtain ⟨_ | handle, next⟩ := stage.startPart looping part
    · rfl
    · exact ih (handles ++ [handle]) next

end Stage

namespace Engine

/-- An engine with another graph in the place of its own. -/
def onto (f : G → H) (engine : Engine G) : Engine H :=
  { engine with toStage := engine.toStage.onto f }

variable {f : G → H}

theorem stop_onto (h : Projects f) (engine : Engine G) :
    (engine.onto f).stop = engine.stop.onto f := by
  obtain ⟨stage, book, session, listener⟩ := engine
  cases session with
  | none => rfl
  | some session => simp only [stop, onto, Stage.retire_onto h]

theorem plan_onto (h : Projects f) (name : String) (engine : Engine G) :
    (engine.onto f).plan name = engine.plan name := by
  simp only [plan, onto, Stage.onto, h.now_eq]

theorem play_onto (h : Projects f) (name : String) (engine : Engine G) :
    (engine.onto f).play name = Prod.map id (onto f) (engine.play name) := by
  rw [play, play, plan_onto h]
  obtain error | ⟨track, parts⟩ := engine.plan name
  · rfl
  · simp only [stop_onto h]
    rw [show (engine.stop.onto f).toStage = engine.stop.toStage.onto f from rfl,
      Stage.startParts_onto h]
    obtain ⟨⟨_ | _, handles⟩, stage⟩ :=
      engine.stop.toStage.startParts track.looping parts []
    · simp only [Prod.map, id, Stage.retire_onto h]
      rfl
    · rfl

theorem tick_onto (h : Projects f) (engine : Engine G) :
    (engine.onto f).tick = Prod.map id (onto f) engine.tick := by
  simp only [tick, onto, Stage.onto, h.now_eq, h.signalAll]
  split
  · rfl
  · split
    · rfl
    · split <;> rfl

/-- Requests are met alike over both graphs. -/
theorem serve_onto (h : Projects f) (request : Request) (engine : Engine G) :
    (engine.onto f).serve request = Prod.map id (onto f) (engine.serve request) := by
  cases request with
  | play name =>
    simp only [serve, play_onto h]
    rfl
  | stop =>
    simp only [serve, stop_onto h]
    rfl
  | tick =>
    simp only [serve, tick_onto h]
    rfl
  | replaceBook book =>
    simp only [serve, replaceBook, stop_onto h]
    rfl
  | listen label => rfl

end Engine

/-! ## Watched hosts -/

/-- A host with a note of what it has been asked for. -/
structure Watched (G : Type) where
  host : G
  /-- The effects that were asked for, refused or not, in order. -/
  asked : List Effect

/-- A watched host leaves the answers to its host. -/
instance : AudioGraph (Watched G) where
  now watched := now watched.host
  supports watched := supports watched.host
  newOscillator waveform watched :=
    let (answer, host) := newOscillator waveform watched.host
    (answer, { watched with host })
  newEffect effect watched :=
    let (answer, host) := newEffect effect watched.host
    (answer, ⟨host, watched.asked ++ [effect]⟩)
  wire source target watched :=
    let (answer, host) := wire source target watched.host
    (answer, { watched with host })
  signal given watched := { watched with host := signal given watched.host }

theorem Watched.projects_host : Projects (Watched.host : Watched G → G) where
  now_eq _ := rfl
  supports_eq _ := rfl
  newOscillator_eq _ _ := rfl
  newEffect_eq _ _ := rfl
  wire_eq _ _ _ := rfl
  signal_eq _ _ := rfl

namespace Engine

/-- A turn over a host, taken over the watched host. -/
def Turn.watched : Turn G → Turn (Watched G)
  | .ask request => .ask request
  | .host change => .host fun watched => { watched with host := change watched.host }

/-- An engine whose host is watched from now on. -/
def watched (engine : Engine G) : Engine (Watched G) := engine.onto fun host => ⟨host, []⟩

/-- **Watching makes no difference.**  What is seen of a run over a watched host, apart from the
notes, is the run over the host. -/
theorem afterTurns_watched (turns : List (Turn G)) (engine : Engine (Watched G)) :
    (engine.afterTurns (turns.map Turn.watched)).onto Watched.host =
      (engine.onto Watched.host).afterTurns turns := by
  induction turns generalizing engine with
  | nil => rfl
  | cons turn turns ih =>
    have hturn : (engine.take turn.watched).2.onto Watched.host =
        ((engine.onto Watched.host).take turn).2 := by
      cases turn with
      | ask request =>
        exact (congrArg Prod.snd (serve_onto Watched.projects_host request engine)).symm
      | host change => rfl
    rw [List.map_cons, afterTurns_cons, afterTurns_cons, ih, hturn]

end Engine

end Chiptune
