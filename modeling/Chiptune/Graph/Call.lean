/-
  The calls that are made on an audio graph.

  A graph consists of numbered nodes, wired one to the next and in the end to the
  destination.  Creating and wiring nodes may be refused; the other calls are
  signals, which are given without an answer.
-/
import Chiptune.Music.Instrument
import Chiptune.Music.Seconds

set_option autoImplicit false

namespace Chiptune

/-- The number of a node. -/
abbrev NodeId := Nat

/-- The node whose sound is heard. -/
def destination : NodeId := 0

/-- A call that has no answer.  Times are those of the clock of the graph. -/
inductive Signal where
  /-- Detaches a node from everything behind it. -/
  | detach (node : NodeId)
  | start (oscillator : NodeId) (time : Seconds)
  | stop (oscillator : NodeId) (time : Seconds)
  /-- Steps an oscillator to a frequency; 0 Hz is silence. -/
  | tune (oscillator : NodeId) (hz : Float) (time : Seconds)
  deriving DecidableEq

/-- A call that was accepted, with the number of the node it created. -/
inductive Call where
  | newOscillator (node : NodeId) (waveform : Waveform)
  | newEffect (node : NodeId) (effect : Effect)
  | wire (source target : NodeId)
  | signal (signal : Signal)
  deriving DecidableEq

/-- The node a signal is for. -/
def Signal.node : Signal → NodeId
  | detach node => node
  | start oscillator _ => oscillator
  | stop oscillator _ => oscillator
  | tune oscillator _ _ => oscillator

/-- The nodes a call mentions. -/
def Call.nodes : Call → List NodeId
  | newOscillator node _ => [node]
  | newEffect node _ => [node]
  | wire source target => [source, target]
  | signal given => [given.node]

/-- The kinds of node there are. -/
inductive NodeKind where
  | oscillator
  | effect (setting : Setting)
  deriving DecidableEq, Repr, Inhabited

/-- Why a graph refuses a call. -/
inductive GraphFault where
  /-- No node of this kind is created. -/
  | nodeRefused (kind : NodeKind)
  | unknownNode (node : NodeId)
  /-- Nobody listens to the graph any more. -/
  | streamClosed
  deriving DecidableEq, Repr, Inhabited

/-- The word for a kind of node. -/
def NodeKind.name : NodeKind → String
  | oscillator => "oscillator"
  | effect .gain => "gain"
  | effect .pan => "stereo panner"

/-- Why a graph refuses a call, in words. -/
def GraphFault.message : GraphFault → String
  | nodeRefused kind => s!"audio graph refused to create {kind.name} node"
  | unknownNode node => s!"unknown audio node #{node}"
  | streamClosed => "audio device error: audio stream closed"

end Chiptune
