/-
  A graph that is heard: a renderer behind an output device.

  The graph hands its calls to a renderer, which the device asks for samples.  It
  remembers the nodes that have not been disconnected.  When the renderer is gone,
  creating and wiring nodes fails, and signals are lost.
-/
import Chiptune.Graph.Host
import Chiptune.Sound.Renderer

set_option autoImplicit false

namespace Chiptune

/-- How a device wants its samples. -/
inductive SampleEncoding where
  | f32
  | i16
  | u16
  | i8
  | f64
  deriving DecidableEq, Repr, Inhabited

/-- The name of a format. -/
def SampleEncoding.name : SampleEncoding → String
  | f32 => "F32"
  | i16 => "I16"
  | u16 => "U16"
  | i8 => "I8"
  | f64 => "F64"

/-- Samples as a device takes them. -/
inductive Sample where
  | real (value : Float32)
  | whole (value : Int)
  deriving DecidableEq

/-- A sample as a whole number of 16 bits with a sign. -/
def signedSample (x : Float32) : Int := (x * 32768).toInt16.toInt

/-- A sample in a format; only three of them are made. -/
def SampleEncoding.convert? : SampleEncoding → Option (Float32 → Sample)
  | f32 => some .real
  | i16 => some fun x => .whole (signedSample x)
  | u16 => some fun x => .whole (signedSample x + 32768)
  | i8 => none
  | f64 => none

/-- What an output device does when it is opened, with its reason. -/
inductive OutputFault where
  | missing
  | configRefused (reason : String)
  | buildRefused (reason : String)
  | playRefused (reason : String)
  deriving DecidableEq, Repr, Inhabited

/-- An output device. -/
structure Output where
  format : SampleEncoding
  channels : Nat
  /-- Frames in a second. -/
  rate : Nat
  fault : Option OutputFault
  deriving DecidableEq, Repr, Inhabited

/-- Why an output device cannot be opened. -/
inductive OpenError where
  | output (fault : OutputFault)
  | unsupportedFormat (format : SampleEncoding)
  deriving DecidableEq, Repr, Inhabited

/-- Why an output device cannot be opened, in words. -/
def OpenError.message : OpenError → String
  | output .missing => "No output device available"
  | output (.configRefused reason) => reason
  | output (.buildRefused reason) => s!"Failed to build output stream: {reason}"
  | output (.playRefused reason) => s!"Failed to play stream: {reason}"
  | unsupportedFormat format => s!"Unsupported sample format: {format.name}"

/-- A graph behind an output device. -/
structure Device where
  renderer : Renderer
  /-- Whether the renderer is still there. -/
  isOpen : Bool
  /-- The number of the next node. -/
  nextNode : NodeId
  /-- The destination and the nodes that have not been disconnected. -/
  live : List NodeId
  channels : Nat
  convert : Float32 → Sample

namespace Device

/-- Opens an output device.  A device that is missing or says nothing of itself fails
first, then a format that is not made, then the device once more. -/
def openOutput (output : Output) : Except OpenError Device := do
  match output.fault with
  | some .missing => .error (.output .missing)
  | some (.configRefused reason) => .error (.output (.configRefused reason))
  | fault =>
    match output.format.convert? with
    | none => .error (.unsupportedFormat output.format)
    | some convert =>
      match fault with
      | some fault => .error (.output fault)
      | none =>
        .ok ⟨.silent (Float.ofNat output.rate) 0, true, 1, [destination], output.channels,
          convert⟩

/-- Hands a call to the renderer. -/
def send (call : Call) (device : Device) : Except GraphFault Unit × Device :=
  if device.isOpen then (.ok (), { device with renderer := device.renderer.send call })
  else (.error .streamClosed, device)

/-- Numbers a node and hands on its creation; the number is used up in any case. -/
def create (call : NodeId → Call) (device : Device) : Except GraphFault NodeId × Device :=
  let node := device.nextNode
  let device := { device with nextNode := node + 1, live := device.live ++ [node] }
  match device.send (call node) with
  | (.ok (), device) => (.ok node, device)
  | (.error error, device) => (.error error, device)

/-- Wires two nodes; the first of them that is not live is named. -/
def wire (source target : NodeId) (device : Device) : Except GraphFault Unit × Device :=
  if !device.live.contains source then (.error (.unknownNode source), device)
  else if !device.live.contains target then (.error (.unknownNode target), device)
  else device.send (.wire source target)

/-- Hands on a signal.  A node is disconnected only once. -/
def signal (given : Signal) (device : Device) : Device :=
  match given with
  | .detach node =>
    if device.live.contains node then
      ({ device with live := device.live.erase node }.send (.signal given)).2
    else device
  | _ => (device.send (.signal given)).2

instance : AudioGraph Device where
  now device := device.renderer.timeOf device.renderer.frames
  supports _ _ := true
  newOscillator waveform := create fun node => .newOscillator node waveform
  newEffect effect := create fun node => .newEffect node effect
  wire := Device.wire
  signal := Device.signal

/-- The device asks for samples; without a renderer there are none. -/
def pump (count : Nat) (device : Device) : Option (List Sample) × Device :=
  if device.isOpen then
    let (samples, renderer) := device.renderer.render count device.channels
    (some (samples.toList.map device.convert), { device with renderer })
  else (none, device)

/-- The renderer goes away; the clock stands still. -/
def unplug (device : Device) : Device := { device with isOpen := false }

end Device

end Chiptune
