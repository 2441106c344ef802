/-
  What the calls made on a recorder leave behind.

  A recorder takes down every signal and does nothing else: its clock, its numbers of
  nodes and what it refuses stay as they are.  Nodes that it creates get the next number,
  and a call that it refuses is not taken down.
-/
import Chiptune.Proofs.EngineRun

set_option autoImplicit false

namespace Chiptune.Recorder

open AudioGraph

/-- Signals are taken down in order. -/
theorem signalAll_eq (signals : List Signal) (recorder : Recorder) :
    signalAll signals recorder =
      { recorder with calls := recorder.calls ++ signals.map .signal } := by
  induction signals generalizing recorder with
  | nil => rw [signalAll_nil, List.map_nil, List.append_nil]
  | cons given signals ih =>
    have hnote : signal given recorder = recorder.note (.signal given) := rfl
    rw [signalAll_cons, ih, hnote]
    simp [note]

@[simp] theorem now_signalAll (signals : List Signal) (recorder : Recorder) :
    (signalAll signals recorder).now = recorder.now := by
  rw [signalAll_eq]

@[simp] theorem calls_signalAll (signals : List Signal) (recorder : Recorder) :
    (signalAll signals recorder).calls = recorder.calls ++ signals.map .signal := by
  rw [signalAll_eq]

/-- Using up the allowance changes nothing but what is refused. -/
theorem spendAllowance_eq (recorder : Recorder) :
    ∃ refuses allowance, recorder.spendAllowance =
      { recorder with refusesOscillators := refuses, allowance := allowance } := by
  unfold spendAllowance
  split
  · exact ⟨recorder.refusesOscillators, recorder.allowance, rfl⟩
  · exact ⟨true, recorder.allowance, rfl⟩
  · exact ⟨recorder.refusesOscillators, _, rfl⟩

/-- An oscillator is refused, or it gets the next number. -/
theorem newOscillator_cases (waveform : Waveform) (recorder : Recorder) :
    ∃ refuses allowance,
      AudioGraph.newOscillator waveform recorder =
          (.error (.nodeRefused .oscillator),
            { recorder with refusesOscillators := refuses, allowance := allowance }) ∨
        AudioGraph.newOscillator waveform recorder =
          (.ok recorder.nextNode,
            { recorder with
              refusesOscillators := refuses
              allowance := allowance
              calls := recorder.calls ++ [.newOscillator recorder.nextNode waveform]
              nextNode := recorder.nextNode + 1 }) := by
  obtain ⟨refuses, allowance, heq⟩ := spendAllowance_eq recorder
  refine ⟨refuses, allowance, ?_⟩
  change Recorder.newOscillator waveform recorder = _ ∨ Recorder.newOscillator waveform recorder = _
  unfold Recorder.newOscillator
  rw [heq]
  cases refuses with
  | true => exact Or.inl rfl
  | false => exact Or.inr rfl

/-- An effect is refused, or it gets the next number. -/
theorem newEffect_cases (effect : Effect) (recorder : Recorder) :
    AudioGraph.newEffect effect recorder =
        (.error (.nodeRefused (.effect effect.setting)), recorder) ∨
      AudioGraph.newEffect effect recorder =
        (.ok recorder.nextNode,
          { recorder with
            calls := recorder.calls ++ [.newEffect recorder.nextNode effect]
            nextNode := recorder.nextNode + 1 }) := by
  change Recorder.newEffect effect recorder = _ ∨ Recorder.newEffect effect recorder = _
  unfold Recorder.newEffect
  split
  · exact Or.inl rfl
  · exact Or.inr rfl

/-- A wire is refused, or it is taken down. -/
theorem wire_cases (source target : NodeId) (recorder : Recorder) :
    (∃ fault, AudioGraph.wire source target recorder = (.error fault, recorder)) ∨
      AudioGraph.wire source target recorder =
        (.ok (), { recorder with calls := recorder.calls ++ [.wire source target] }) := by
  change (∃ fault, Recorder.wire source target recorder = _) ∨
    Recorder.wire source target recorder = _
  unfold Recorder.wire
  split
  · exact Or.inl ⟨_, rfl⟩
  · split
    · exact Or.inl ⟨_, rfl⟩
    · exact Or.inr rfl

/-- What a call may make of a recorder: calls and nodes are added, and its clock and what it
supports stay. -/
structure Grown (before after : Recorder) : Prop where
  now : after.now = before.now
  supports : AudioGraph.supports after = AudioGraph.supports before
  nextNode : before.nextNode ≤ after.nextNode
  calls : before.calls <+: after.calls

/-- What a recorder keeps when it grows, it keeps at every call, accepted or not. -/
theorem kept_of_grown {P : Recorder → Prop}
    (h : ∀ before after : Recorder, Grown before after → P before → P after) :
    AudioGraph.Kept P where
  newOscillator := by
    intro waveform recorder hrecorder
    obtain ⟨_, _, heq | heq⟩ := newOscillator_cases waveform recorder
    · rw [heq]
      exact h recorder _ ⟨rfl, rfl, Nat.le_refl _, List.prefix_refl _⟩ hrecorder
    · rw [heq]
      exact h recorder _ ⟨rfl, rfl, Nat.le_succ _, List.prefix_append _ _⟩ hrecorder
  newEffect := by
    intro effect _ recorder hrecorder
    rcases newEffect_cases effect recorder with heq | heq
    · rwa [heq]
    · rw [heq]
      exact h recorder _ ⟨rfl, rfl, Nat.le_succ _, List.prefix_append _ _⟩ hrecorder
  wire := by
    intro source target recorder hrecorder
    rcases wire_cases source target recorder with ⟨_, heq⟩ | heq
    · rwa [heq]
    · rw [heq]
      exact h recorder _ ⟨rfl, rfl, Nat.le_refl _, List.prefix_append _ _⟩ hrecorder
  signal := by
    intro given recorder hrecorder
    exact h recorder _ ⟨rfl, rfl, Nat.le_refl _, List.prefix_append _ _⟩ hrecorder

/-- No call takes time. -/
theorem kept_now (time : Seconds) :
    AudioGraph.Kept fun recorder : Recorder => recorder.now = time :=
  kept_of_grown fun _ _ hgrown h => hgrown.now.trans h

/-- No call changes what is supported. -/
theorem kept_supports (supported : Setting → Bool) :
    AudioGraph.Kept fun recorder : Recorder => supports recorder = supported :=
  kept_of_grown fun _ _ hgrown h => hgrown.supports.trans h

/-- Nodes are never forgotten. -/
theorem kept_nextNode (bound : NodeId) :
    AudioGraph.Kept fun recorder : Recorder => bound ≤ recorder.nextNode :=
  kept_of_grown fun _ _ hgrown h => Nat.le_trans h hgrown.nextNode

/-- Calls are never taken back. -/
theorem kept_calls (calls : List Call) :
    AudioGraph.Kept fun recorder : Recorder => calls <+: recorder.calls :=
  kept_of_grown fun _ _ hgrown h => h.trans hgrown.calls

end Chiptune.Recorder
