/-
  Voices: chains of nodes that play tones one after another.

  A voice is told everything it will play at once, against the clock of the graph,
  and so what happens to it is a list of signals.
-/
import Chiptune.Graph.Chain
import Chiptune.Music.Tone

set_option autoImplicit false

namespace Chiptune

/-- The nodes a voice owns. -/
structure Voice where
  chain : NodeChain
  deriving DecidableEq, Repr, Inhabited

namespace Voice

/-- The node whose frequency is stepped. -/
def oscillator (voice : Voice) : NodeId := voice.chain.entry

/-- Detaches every node of a voice that never started. -/
def discard (voice : Voice) : List Signal := voice.chain.nodes.map .detach

/-- Stops a voice and detaches every node of it. -/
def release (voice : Voice) (now : Seconds) : List Signal :=
  .stop voice.oscillator now :: voice.discard

end Voice

/-- The times at which tones begin, back to back from `cursor` behind the anchor on. -/
def onsets (anchor cursor : Seconds) : List Tone → List Seconds
  | [] => []
  | tone :: tones => (anchor + cursor) :: onsets anchor (cursor + tone.seconds) tones

/-- Steps an oscillator through tones back to back, the first one at the anchor. -/
def programme (oscillator : NodeId) (tones : List Tone) (anchor : Seconds) : List Signal :=
  List.zipWith (fun tone time => .tune oscillator tone.hz time) tones
    (onsets anchor 0 tones)

/-- A loop is stuck when its end does not lie behind its beginning: it has no
length, or its length is lost in the precision of the clock. -/
def isStuckLoop (anchor total : Seconds) : Bool :=
  total ≤ 0 || anchor + total ≤ anchor

end Chiptune
