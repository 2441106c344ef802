/-
  Rendering: from calls to samples.

  Calls wait until the next block of samples is wanted and are carried out before
  it.  In each frame every oscillator gives a sample, and what is heard of them is
  summed, lowered to leave room for several voices, and kept within -1 and 1.  The
  samples are written over those that the block holds.
-/
import Chiptune.Sound.NodeTable

set_option autoImplicit false

namespace Chiptune

/-- The nodes, the calls that wait, and the clock. -/
structure Renderer where
  nodes : NodeTable
  /-- The calls that have not been carried out, in order. -/
  queue : List Call
  /-- How many frames have been rendered. -/
  frames : UInt64
  /-- How many frames there are in a second. -/
  rate : Float
  deriving DecidableEq

namespace Renderer

/-- A renderer without nodes. -/
def silent (rate : Float) (frames : UInt64) : Renderer := ⟨[], [], frames, rate⟩

/-- Lets a call wait. -/
def send (call : Call) (renderer : Renderer) : Renderer :=
  { renderer with queue := renderer.queue ++ [call] }

/-- Carries out the calls that wait. -/
def applyQueue (renderer : Renderer) : Renderer :=
  { renderer with
    nodes := renderer.nodes.applyAll renderer.rate.toFloat32 renderer.queue
    queue := [] }

/-- The time of a frame. -/
def timeOf (renderer : Renderer) (frame : UInt64) : Seconds :=
  .ofResult (Float.ofNat frame.toNat / renderer.rate)

/-- Takes a sample from every oscillator among `nodes` and adds what is heard of it by
way of `table`. -/
def sampleNodes (table : NodeTable) (time : Float) : NodeTable → Stereo → Stereo × NodeTable
  | [], sum => (sum, [])
  | (id, ⟨.oscillator tone, output⟩) :: rest, sum =>
    let (sample, tone) := tone.sampleAt time
    let heard := if sample == 0 then none else table.route id sample
    let sum :=
      match heard with
      | some sound => ⟨sum.left + sound.left, sum.right + sound.right⟩
      | none => sum
    let (total, nodes) := sampleNodes table time rest sum
    (total, (id, ⟨.oscillator tone, output⟩) :: nodes)
  | other :: rest, sum =>
    let (total, nodes) := sampleNodes table time rest sum
    (total, other :: nodes)

/-- The level of a single voice. -/
def headroom : Float32 := 0.25

/-- Writes a frame over what its places hold: both sides together on a single channel,
otherwise left and right on the first two channels and silence on the others. -/
def writeFrame (sum : Stereo) : (frame : List Float32) → List Float32
  | [] => []
  | [_] => [0.5 * (clampUnit (sum.left * headroom) + clampUnit (sum.right * headroom))]
  | _ :: _ :: others =>
    clampUnit (sum.left * headroom) :: clampUnit (sum.right * headroom) ::
      others.map fun _ => 0

/-- Renders over one frame, behind the samples that are done. -/
def renderFrame (done : Array Float32 × Renderer) (frame : List Float32) :
    Array Float32 × Renderer :=
  let (samples, renderer) := done
  let (sum, nodes) :=
    sampleNodes renderer.nodes (renderer.timeOf renderer.frames).toFloat renderer.nodes
      ⟨0, 0⟩
  (samples ++ writeFrame sum frame, { renderer with nodes, frames := renderer.frames + 1 })

/-- The sizes of the frames of a block: as many samples as there are channels, and the
rest in the last one. -/
def frameSizes (samples channels : Nat) : List Nat :=
  let channels := max channels 1
  List.replicate (samples / channels) channels ++
    (if samples % channels = 0 then [] else [samples % channels])

/-- Cuts a block into frames of these sizes. -/
def cut : (sizes : List Nat) → (block : List Float32) → List (List Float32)
  | [], _ => []
  | size :: sizes, block => block.take size :: cut sizes (block.drop size)

/-- Renders over a block. -/
def renderOver (block : Array Float32) (channels : Nat) (renderer : Renderer) :
    Array Float32 × Renderer :=
  (cut (frameSizes block.size channels) block.toList).foldl renderFrame
    (#[], renderer.applyQueue)

/-- Renders a new block of samples. -/
def render (samples channels : Nat) (renderer : Renderer) : Array Float32 × Renderer :=
  renderer.renderOver (Array.replicate samples 0) channels

end Renderer

end Chiptune
