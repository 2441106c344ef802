/-
  The nodes that make sound, and the way of a sound through them.

  Each node passes its sound on to one other node at most.  The way of a sound
  leads through effects; if it comes to the destination the sound is heard.
-/
import Chiptune.Graph.Call
import Chiptune.Sound.Oscillator

set_option autoImplicit false

namespace Chiptune

/-- What a node does. -/
inductive SoundNode where
  | oscillator (tone : Oscillator)
  | effect (effect : Effect)
  deriving DecidableEq

/-- A node and where its sound goes. -/
structure WiredNode where
  node : SoundNode
  output : Option NodeId
  deriving DecidableEq

/-- Nodes by number, in the order of their creation. -/
abbrev NodeTable := List (NodeId × WiredNode)

namespace NodeTable

/-- Adds a node without a wire, or puts it in the place of a node of its number. -/
def insert (id : NodeId) (node : SoundNode) : NodeTable → NodeTable
  | [] => [(id, ⟨node, none⟩)]
  | (other, wired) :: rest =>
    if other = id then (id, ⟨node, none⟩) :: rest else (other, wired) :: insert id node rest

/-- Changes a node. -/
def modify (id : NodeId) (change : WiredNode → WiredNode) (table : NodeTable) : NodeTable :=
  table.map fun (other, wired) => (other, if other = id then change wired else wired)

/-- Removes a node. -/
def erase (id : NodeId) (table : NodeTable) : NodeTable :=
  table.filter fun (other, _) => other != id

/-- Changes a node that is an oscillator. -/
def modifyTone (id : NodeId) (change : Oscillator → Oscillator) (table : NodeTable) :
    NodeTable :=
  table.modify id fun wired =>
    match wired.node with
    | .oscillator tone => { wired with node := .oscillator (change tone) }
    | .effect _ => wired

/-- Carries out a call.  A node that is disconnected is never heard again, and is removed. -/
def apply (sampleRate : Float32) (call : Call) (table : NodeTable) : NodeTable :=
  match call with
  | .newOscillator id waveform =>
    table.insert id (.oscillator (.silent waveform sampleRate))
  | .newEffect id effect => table.insert id (.effect effect)
  | .wire source target => table.modify source fun wired => { wired with output := some target }
  | .signal (.detach id) => table.erase id
  | .signal (.start id time) => table.modifyTone id (·.start time.toFloat)
  | .signal (.stop id time) => table.modifyTone id (·.stop time.toFloat)
  | .signal (.tune id hz time) => table.modifyTone id (·.tune hz.toFloat32 time.toFloat)

/-- Carries out calls in order. -/
def applyAll (sampleRate : Float32) (calls : List Call) (table : NodeTable) : NodeTable :=
  calls.foldl (fun table call => table.apply sampleRate call) table

end NodeTable

/-! ## The way of a sound -/

/-- What is heard on the left and on the right. -/
structure Stereo where
  left : Float32
  right : Float32
  deriving DecidableEq

/-- The nearest value from -1 to 1. -/
def clampUnit (x : Float32) : Float32 :=
  if x < -1 then -1 else if 1 < x then 1 else x

/-- A quarter of the circumference of the unit circle. -/
def quarterTurn : Float32 := Float32.ofBits 0x3FC90FDB

/-- What an effect makes of a sound.  A place between left and right keeps the power
of the sound, and takes both sides of it together first. -/
def Effect.transform (effect : Effect) (sound : Stereo) : Stereo :=
  match effect.setting with
  | .gain => ⟨sound.left * effect.value, sound.right * effect.value⟩
  | .pan =>
    let mono := 0.5 * (sound.left + sound.right)
    let share := (clampUnit effect.value + 1) * 0.5
    ⟨mono * (share * quarterTurn).cos, mono * (share * quarterTurn).sin⟩

/-- A gain takes both sides to its level. -/
theorem Effect.transform_gain (level : Float32) (sound : Stereo) :
    (Effect.mk .gain level).transform sound = ⟨sound.left * level, sound.right * level⟩ := rfl

/-- The angle of a place, which grows from zero at -1, on the left, to a quarter of a turn at 1, on
the right.  A place beyond these has the angle of the one that is nearer. -/
def angleOf (place : Float32) : Float32 :=
  if place < -1 then 0
  else if 1 < place then 1.57079632679489661923
  else (place + 1) * 0.5 * 1.57079632679489661923

theorem quarterTurn_eq : quarterTurn = 1.57079632679489661923 := by decide +kernel

theorem angle_clampUnit (place : Float32) :
    (clampUnit place + 1) * 0.5 * quarterTurn = angleOf place := by
  unfold clampUnit angleOf
  split
  · decide +kernel
  · split
    · decide +kernel
    · rw [quarterTurn_eq]

/-- A pan hands the middle of both sides to the left by the cosine of the angle of its place, and
to the right by the sine. -/
theorem Effect.transform_pan (place : Float32) (sound : Stereo) :
    (Effect.mk .pan place).transform sound =
      ⟨0.5 * (sound.left + sound.right) * (angleOf place).cos,
        0.5 * (sound.left + sound.right) * (angleOf place).sin⟩ := by
  rw [← angle_clampUnit]
  rfl

namespace NodeTable

/-- Follows a sound for at most `fuel` nodes; nothing is heard if it does not come to
the destination by then. -/
def follow (table : NodeTable) : Nat → NodeId → Stereo → Option Stereo
  | 0, _, _ => none
  | fuel + 1, id, sound =>
    if id = destination then some sound
    else
      match table.lookup id with
      | some ⟨.effect effect, some next⟩ => follow table fuel next (effect.transform sound)
      | _ => none

/-- What is heard of a sample of a node.  A way longer than the table has nodes goes in
a circle. -/
def route (table : NodeTable) (source : NodeId) (sample : Float32) : Option Stereo := do
  let wired ← table.lookup source
  let next ← wired.output
  table.follow (table.length + 1) next ⟨sample, sample⟩

end NodeTable

end Chiptune
