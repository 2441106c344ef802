/-
  A graph that makes no sound and keeps a record of its calls.

  Its clock is set by hand, and it can be told to refuse.  Nodes are numbered from
  1 and are never forgotten, so the nodes it knows are the destination and those
  below the next number.
-/
import Chiptune.Graph.Host

set_option autoImplicit false

namespace Chiptune

/-- A record of calls, with a clock and what is refused. -/
structure Recorder where
  now : Seconds
  /-- The number of the next node. -/
  nextNode : NodeId
  /-- Every call that was accepted, in order. -/
  calls : List Call
  /-- The effects that are not created. -/
  unsupported : List Setting
  refusesOscillators : Bool
  /-- How many more oscillators are created before they are refused for good. -/
  allowance : Option Nat
  /-- Says that every effect can be created, even those that are not. -/
  overpromises : Bool
  deriving DecidableEq

namespace Recorder

/-- A record without calls that refuses nothing but some effects. -/
def withoutEffects (unsupported : List Setting) : Recorder :=
  ⟨0, 1, [], unsupported, false, none, false⟩

/-- A record without calls that refuses nothing. -/
def fresh : Recorder := withoutEffects []

instance : Inhabited Recorder := ⟨fresh⟩

/-- Whether a node is the destination or has been created. -/
def knows (recorder : Recorder) (node : NodeId) : Bool := node < recorder.nextNode

/-- Adds a call to the record. -/
def note (call : Call) (recorder : Recorder) : Recorder :=
  { recorder with calls := recorder.calls ++ [call] }

/-- Numbers a new node and records its creation. -/
def create (call : NodeId → Call) (recorder : Recorder) : Except GraphFault NodeId × Recorder :=
  (.ok recorder.nextNode,
    { recorder.note (call recorder.nextNode) with nextNode := recorder.nextNode + 1 })

/-- Uses up one oscillator of the allowance; without one left oscillators are refused. -/
def spendAllowance (recorder : Recorder) : Recorder :=
  match recorder.allowance with
  | none => recorder
  | some 0 => { recorder with refusesOscillators := true }
  | some (left + 1) => { recorder with allowance := some left }

/-- Creates an oscillator unless they are refused. -/
def newOscillator (waveform : Waveform) (recorder : Recorder) :
    Except GraphFault NodeId × Recorder :=
  let recorder := recorder.spendAllowance
  if recorder.refusesOscillators then (.error (.nodeRefused .oscillator), recorder)
  else recorder.create fun node => .newOscillator node waveform

/-- Creates an effect unless its setting is not supported. -/
def newEffect (effect : Effect) (recorder : Recorder) :
    Except GraphFault NodeId × Recorder :=
  if recorder.unsupported.contains effect.setting then
    (.error (.nodeRefused (.effect effect.setting)), recorder)
  else recorder.create fun node => .newEffect node effect

/-- Wires two nodes; the first of them that is not known is named. -/
def wire (source target : NodeId) (recorder : Recorder) : Except GraphFault Unit × Recorder :=
  if !recorder.knows source then (.error (.unknownNode source), recorder)
  else if !recorder.knows target then (.error (.unknownNode target), recorder)
  else (.ok (), recorder.note (.wire source target))

instance : AudioGraph Recorder where
  now := Recorder.now
  supports recorder setting :=
    recorder.overpromises || !recorder.unsupported.contains setting
  newOscillator := Recorder.newOscillator
  newEffect := Recorder.newEffect
  wire := Recorder.wire
  signal given recorder := recorder.note (.signal given)

/-! ## Setting the stage -/

/-- Sets the clock. -/
def atTime (now : Seconds) (recorder : Recorder) : Recorder := { recorder with now }

/-- Refuses oscillators from now on, or no longer. -/
def setRefusal (refuse : Bool) (recorder : Recorder) : Recorder :=
  { recorder with refusesOscillators := refuse }

/-- Creates as many oscillators as `allowance` says, and then no more. -/
def setAllowance (allowance : Option Nat) (recorder : Recorder) : Recorder :=
  { recorder with allowance, refusesOscillators := false }

/-- Forgets the calls, but not the nodes. -/
def clear (recorder : Recorder) : Recorder := { recorder with calls := [] }

/-! ## Reading the record -/

/-- The steps of frequency, in order. -/
def tunings (recorder : Recorder) : List (NodeId × Float × Seconds) :=
  recorder.calls.filterMap fun
    | .signal (.tune oscillator hz time) => some (oscillator, hz, time)
    | _ => none

/-- The oscillators that were created, in order. -/
def oscillators (recorder : Recorder) : List NodeId :=
  recorder.calls.filterMap fun
    | .newOscillator node _ => some node
    | _ => none

/-- How often a node was disconnected. -/
def timesDetached (recorder : Recorder) (node : NodeId) : Nat :=
  recorder.calls.countP fun
    | .signal (.detach other) => other == node
    | _ => false

/-- How often an oscillator was stopped. -/
def timesStopped (recorder : Recorder) (node : NodeId) : Nat :=
  recorder.calls.countP fun
    | .signal (.stop other _) => other == node
    | _ => false

end Recorder

end Chiptune
