/-
  The nodes of one voice: an oscillator, its effects, and the wires between them.
-/
import Chiptune.Graph.Host

set_option autoImplicit false

namespace Chiptune

/-- The nodes of one voice, wired in order. -/
structure NodeChain where
  /-- The oscillator. -/
  entry : NodeId
  /-- The last node, wired to the output. -/
  terminal : NodeId
  /-- Every node, the oscillator first. -/
  nodes : List NodeId
  deriving DecidableEq, Repr, Inhabited

namespace NodeChain

open AudioGraph

variable {G : Type} [AudioGraph G]

/-- Creates and wires effects behind `tail` and wires the last node to the output.
Effects that are not supported are passed over.  Besides the last node or the
error, the nodes built so far are given in order. -/
def append (output : NodeId) :
    List Effect → (tail : NodeId) → (nodes : List NodeId) → G →
      (Except GraphFault NodeId × List NodeId) × G
  | [], tail, nodes, graph =>
    match wire tail output graph with
    | (.ok (), graph) => ((.ok tail, nodes), graph)
    | (.error error, graph) => ((.error error, nodes), graph)
  | effect :: effects, tail, nodes, graph =>
    if supports graph effect.setting then
      match newEffect effect graph with
      | (.error error, graph) => ((.error error, nodes), graph)
      | (.ok node, graph) =>
        match wire tail node graph with
        | (.error error, graph) => ((.error error, nodes ++ [node]), graph)
        | (.ok (), graph) => append output effects node (nodes ++ [node]) graph
    else append output effects tail nodes graph

/-- Builds the chain of an instrument.  When the graph refuses a call, whatever has
been created is disconnected again. -/
def build (instrument : Instrument) (output : NodeId) (graph : G) :
    Except GraphFault NodeChain × G :=
  match newOscillator instrument.waveform graph with
  | (.error error, graph) => (.error error, graph)
  | (.ok entry, graph) =>
    match append output instrument.effects entry [entry] graph with
    | ((.ok terminal, nodes), graph) => (.ok ⟨entry, terminal, nodes⟩, graph)
    | ((.error error, nodes), graph) => (.error error, signalAll (nodes.map .detach) graph)

end NodeChain

end Chiptune
