/-
  What is asked of an audio graph.
-/
import Chiptune.Graph.Call

set_option autoImplicit false

namespace Chiptune

/-- A graph on which nodes can be created, wired and driven against its clock. -/
class AudioGraph (G : Type) where
  /-- The time on the clock of the graph. -/
  now : G → Seconds
  /-- Whether effects for a setting can be created, as far as the graph says. -/
  supports : G → Setting → Bool
  newOscillator : Waveform → G → Except GraphFault NodeId × G
  newEffect : Effect → G → Except GraphFault NodeId × G
  wire : (source target : NodeId) → G → Except GraphFault Unit × G
  signal : Signal → G → G

namespace AudioGraph

variable {G : Type} [AudioGraph G]

/-- Gives signals in order. -/
def signalAll (signals : List Signal) (graph : G) : G :=
  signals.foldl (fun graph given => signal given graph) graph

/-- No signals change nothing. -/
@[simp] theorem signalAll_nil (graph : G) : signalAll [] graph = graph := rfl

/-- The first signal is given first. -/
@[simp] theorem signalAll_cons (given : Signal) (signals : List Signal) (graph : G) :
    signalAll (given :: signals) graph = signalAll signals (signal given graph) := rfl

/-- Signals may be given in two portions. -/
theorem signalAll_append (first second : List Signal) (graph : G) :
    signalAll (first ++ second) graph = signalAll second (signalAll first graph) :=
  List.foldl_append

end AudioGraph

end Chiptune
