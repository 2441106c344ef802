/-
  Chains that are built, and chains that are given up.

  A chain asks its host for an oscillator, for the effects that the host says it supports, and
  in the end for a wire to its output.  The first of these things that is refused is the
  fault of the chain.  Without a fault the chain is complete; with one, every node
  that was created for it is detached.  What was there before is left alone.
-/
import Chiptune.Proofs.Casting
import Chiptune.Proofs.LawfulRecord
import Chiptune.Proofs.Watching
import Mathlib.Data.List.TakeWhile

set_option autoImplicit false

namespace Chiptune

open AudioGraph

/-! ## Calls by kind -/

/-- The calls that create nodes. -/
def creations (calls : List Call) : List Call := calls.filter (·.role.isCreation)

/-- The calls that lay wires. -/
def wires (calls : List Call) : List Call := calls.filter (·.role == .wired)

/-- The signals that are given. -/
def signals (calls : List Call) : List Signal :=
  calls.filterMap fun
    | .signal given => some given
    | _ => none

section

variable (first second : List Call)

@[simp] theorem creations_append :
    creations (first ++ second) = creations first ++ creations second :=
  List.filter_append ..

@[simp] theorem wires_append : wires (first ++ second) = wires first ++ wires second :=
  List.filter_append ..

@[simp] theorem signals_append : signals (first ++ second) = signals first ++ signals second :=
  List.filterMap_append

end

theorem signals_map_signal (given : List Signal) : signals (given.map .signal) = given := by
  rw [signals, List.filterMap_map]
  exact List.filterMap_some

theorem creations_map_signal (given : List Signal) : creations (given.map .signal) = [] := by
  rw [creations, List.filter_map, List.filter_eq_nil_iff.2 fun given _ => ?_]
  · rfl
  · cases given <;> simp [Call.role, Signal.role, Role.isCreation]

/-! ## Hosts that promise -/

/-- A recorder with a word of its own on what it supports, which it need not keep. -/
structure Promiser where
  recorder : Recorder
  promises : Setting → Bool

/-- What it promises is all that a promiser says of itself. -/
instance : AudioGraph Promiser where
  now host := host.recorder.now
  supports host := host.promises
  newOscillator waveform host :=
    (newOscillator waveform host.recorder).map id fun recorder => { host with recorder }
  newEffect effect host :=
    (newEffect effect host.recorder).map id fun recorder => { host with recorder }
  wire source target host :=
    (wire source target host.recorder).map id fun recorder => { host with recorder }
  signal given host := { host with recorder := signal given host.recorder }

/-- A recorder promises what it says it supports. -/
def Recorder.promiser (recorder : Recorder) : Promiser := ⟨recorder, supports recorder⟩

/-- As long as it supports the same effects it promises the same. -/
theorem Recorder.promiser_eq {recorder after : Recorder} (h : supports after = supports recorder) :
    after.promiser = ⟨after, supports recorder⟩ :=
  congrArg (Promiser.mk after) h

theorem projects_promiser : Projects Recorder.promiser where
  now_eq _ := rfl
  supports_eq _ := rfl
  newOscillator_eq waveform recorder := by
    have hkept := Recorder.kept_supports (supports recorder)
    exact Prod.ext rfl (Recorder.promiser_eq (hkept.newOscillator waveform rfl)).symm
  newEffect_eq effect recorder := by
    have hkept := Recorder.kept_supports (supports recorder)
    exact Prod.ext rfl (Recorder.promiser_eq (hkept.newEffect trivial rfl)).symm
  wire_eq source target recorder := by
    have hkept := Recorder.kept_supports (supports recorder)
    exact Prod.ext rfl (Recorder.promiser_eq (hkept.wire source target rfl)).symm
  signal_eq _ _ := rfl

/-! ## What becomes of a chain -/

/-- Whether an effect is refused, whatever was promised. -/
def Recorder.refuses (recorder : Recorder) (effect : Effect) : Bool :=
  recorder.unsupported.contains effect.setting

/-- The effects that are created one after the other: those in front of the first that is
refused. -/
def Recorder.granted (recorder : Recorder) (effects : List Effect) : List Effect :=
  effects.takeWhile fun effect => !recorder.refuses effect

/-- The first thing that is refused to a chain: its oscillator, then an effect that was
promised, in order, and then a wire to its output, if this is not a node when all the others
have been created. -/
def Instrument.fault? (instrument : Instrument) (promises : Setting → Bool) (output : NodeId)
    (recorder : Recorder) : Option GraphFault :=
  if recorder.spendAllowance.refusesOscillators then some (.nodeRefused .oscillator)
  else
    match (instrument.heard promises).find? recorder.refuses with
    | some effect => some (.nodeRefused (.effect effect.setting))
    | none =>
      if output < recorder.nextNode + (instrument.heard promises).length + 1 then none
      else some (.unknownNode output)

/-- Calls create an oscillator and effects behind it, as new nodes, and they leave the nodes
alone that were there before. -/
structure Creates (recorder : Recorder) (waveform : Waveform) (effects : List Effect)
    (entry : NodeId) (others : List NodeId) (made : List Call) (after : Recorder) : Prop where
  calls : after.calls = recorder.calls ++ made
  known : after.nextNode = recorder.nextNode + (entry :: others).length
  fresh : ∀ node ∈ entry :: others, recorder.knows node = false
  distinct : (entry :: others).Nodup
  creations : creations made =
    .newOscillator entry waveform :: List.zipWith Call.newEffect others effects
  count : others.length = effects.length
  spared : ∀ node, recorder.knows node = true →
    (∀ target, .wire node target ∉ made) ∧ ∀ given ∈ signals made, given.node ≠ node

/-- A chain is complete: it has the effects that are heard, each node is wired to the next one,
the last one is wired to the output, and nothing is detached. -/
structure Complete (recorder : Recorder) (instrument : Instrument) (promises : Setting → Bool)
    (output : NodeId) (chain : NodeChain) (after : Recorder) : Prop where
  nodes : ∃ others made, chain.nodes = chain.entry :: others ∧
    Creates recorder instrument.waveform (instrument.heard promises) chain.entry others made
      after ∧
    wires made = List.zipWith Call.wire chain.nodes (others ++ [output]) ∧ signals made = []
  terminal : chain.nodes.getLast? = some chain.terminal

/-- A chain is given up: unless not even the oscillator was created, the nodes that were
created are detached in the end, each of them once and nothing else. -/
structure GivenUp (recorder : Recorder) (instrument : Instrument) (promises : Setting → Bool)
    (fault : GraphFault) (after : Recorder) : Prop where
  nothing : fault = .nodeRefused .oscillator →
    after.calls = recorder.calls ∧ after.nextNode = recorder.nextNode
  nodes : fault ≠ .nodeRefused .oscillator → ∃ entry others made,
    Creates recorder instrument.waveform (recorder.granted (instrument.heard promises)) entry others
      (made ++ ((entry :: others).map .detach).map .signal) after ∧
    wires made = List.zipWith Call.wire (entry :: others) others ∧ signals made = []

/-- What becomes of a chain: it has the first fault that there is and is given up, or it has
none and is complete. -/
structure Settles (recorder : Recorder) (instrument : Instrument) (promises : Setting → Bool)
    (output : NodeId) (outcome : Except GraphFault NodeChain) (after : Recorder) : Prop where
  fault : ∀ fault, outcome = .error fault ↔
    instrument.fault? promises output recorder = some fault
  complete : ∀ chain, outcome = .ok chain →
    Complete recorder instrument promises output chain after
  givenUp : ∀ fault, outcome = .error fault → GivenUp recorder instrument promises fault after

/-! ## Node by node -/

/-- The nodes of a chain with some effects, when the first of them has a given number. -/
def numbered (first : NodeId) (effects : List Effect) : List NodeId :=
  List.range' first (effects.length + 1)

section

variable (first : NodeId) (effects : List Effect)

/-- The first node is the oscillator. -/
theorem numbered_eq_cons :
    numbered first effects = first :: List.range' (first + 1) effects.length :=
  List.range'_succ

/-- The last node is the tail. -/
theorem numbered_eq_concat :
    numbered first effects = List.range' first effects.length ++ [first + effects.length] :=
  List.range'_1_concat

theorem numbered_concat (effect : Effect) :
    numbered first (effects ++ [effect]) =
      numbered first effects ++ [first + (effects ++ [effect]).length] := by
  rw [numbered_eq_concat, numbered, List.length_append]
  rfl

end

/-- A chain with some effects has been laid, and not yet wired to its output. -/
structure Laid (before : Recorder) (waveform : Waveform) (effects : List Effect)
    (made : List Call) (current : Recorder) : Prop where
  calls : current.calls = before.calls ++ made
  known : current.nextNode = before.nextNode + effects.length + 1
  unsupported : current.unsupported = before.unsupported
  creations : creations made = .newOscillator before.nextNode waveform ::
    List.zipWith Call.newEffect (List.range' (before.nextNode + 1) effects.length) effects
  wires : wires made = List.zipWith Call.wire (List.range' before.nextNode effects.length)
    (List.range' (before.nextNode + 1) effects.length)
  signals : signals made = []

namespace Laid

variable {before current : Recorder} {waveform : Waveform} {effects : List Effect}
  {made : List Call}

/-- The oscillator comes first. -/
theorem ofOscillator
    (hcalls : current.calls = before.calls ++ [.newOscillator before.nextNode waveform])
    (hknown : current.nextNode = before.nextNode + 1)
    (hunsupported : current.unsupported = before.unsupported) :
    Laid before waveform [] [.newOscillator before.nextNode waveform] current where
  calls := hcalls
  known := hknown
  unsupported := hunsupported
  creations := rfl
  wires := rfl
  signals := rfl

/-- An effect that is created and wired continues the chain. -/
theorem concat (h : Laid before waveform effects made current) (effect : Effect) :
    Laid before waveform (effects ++ [effect])
      (made ++ [.newEffect current.nextNode effect] ++
        [.wire (before.nextNode + effects.length) current.nextNode])
      (current.withEffect (before.nextNode + effects.length) effect) where
  calls := by rw [Recorder.withEffect, h.calls, List.append_assoc, List.append_assoc]; simp
  known := by
    change current.nextNode + 1 = before.nextNode + (effects ++ [effect]).length + 1
    rw [h.known, List.length_append, List.length_singleton]
    rfl
  unsupported := h.unsupported
  creations := by
    have hlength : (List.range' (before.nextNode + 1) effects.length).length = effects.length :=
      List.length_range'
    rw [creations_append, creations_append, h.creations, List.length_append,
      List.length_singleton, ← List.range'_append_1, List.zipWith_append hlength, h.known]
    simp [Chiptune.creations, Call.role, Role.isCreation, Nat.add_right_comm]
  wires := by
    rw [wires_append, wires_append, h.wires, List.length_append, List.length_singleton,
      ← List.range'_append_1, ← List.range'_append_1,
      List.zipWith_append (by rw [List.length_range', List.length_range']), h.known]
    simp [Chiptune.wires, Call.role, Nat.add_right_comm]
  signals := by
    rw [signals_append, signals_append, h.signals]
    rfl

end Laid

section

variable {before current : Recorder} {waveform : Waveform} {done effects : List Effect}
  {made : List Call} {promises : Setting → Bool} {output tail : NodeId} {nodes : List NodeId}
  {effect : Effect}

/-- An effect that is not promised is passed over. -/
theorem append_of_not_promised (h : promises effect.setting = false) :
    NodeChain.append output (effect :: effects) tail nodes (Promiser.mk current promises) =
      NodeChain.append output effects tail nodes ⟨current, promises⟩ := by
  have hsupports : supports (Promiser.mk current promises) effect.setting = false := h
  rw [NodeChain.append, hsupports]
  rfl

/-- An effect that is promised and refused ends it. -/
theorem append_of_refused (h : promises effect.setting = true)
    (hrefused : current.refuses effect = true) :
    NodeChain.append output (effect :: effects) tail nodes (Promiser.mk current promises) =
      ((.error (.nodeRefused (.effect effect.setting)), nodes), ⟨current, promises⟩) := by
  have hsupports : supports (Promiser.mk current promises) effect.setting = true := h
  have heffect : newEffect effect (Promiser.mk current promises) =
      (.error (.nodeRefused (.effect effect.setting)), ⟨current, promises⟩) :=
    congrArg (Prod.map id _) (if_pos hrefused)
  rw [NodeChain.append, hsupports, heffect]
  rfl

/-- An effect that is created is wired, and the chain goes on from there. -/
theorem append_of_created (h : promises effect.setting = true)
    (hcreated : current.refuses effect = false) (htail : tail < current.nextNode) :
    NodeChain.append output (effect :: effects) tail nodes (Promiser.mk current promises) =
      NodeChain.append output effects current.nextNode (nodes ++ [current.nextNode])
        ⟨current.withEffect tail effect, promises⟩ := by
  have hsupports : supports (Promiser.mk current promises) effect.setting = true := h
  have hcreate : Recorder.newEffect effect current =
      current.create fun node => .newEffect node effect :=
    if_neg (Bool.eq_false_iff.1 hcreated)
  have heffect : newEffect effect (Promiser.mk current promises) =
      (.ok current.nextNode, ⟨(current.create fun node => .newEffect node effect).2, promises⟩) :=
    congrArg (Prod.map id _) hcreate
  have hwire : wire tail current.nextNode
      (Promiser.mk (current.create fun node => .newEffect node effect).2 promises) =
        (.ok (), ⟨current.withEffect tail effect, promises⟩) :=
    congrArg (Prod.map id _)
      (Recorder.wire_eq (Nat.lt_succ_of_lt htail) (Nat.lt_succ_self current.nextNode))
  rw [NodeChain.append, hsupports, heffect]
  simp only [if_true, hwire]

/-- How a chain ends when some effects have been laid: with the effect that is refused, or with
the wire to the output. -/
def closing (output first : NodeId) (laid : List Effect) (refused : Option Effect)
    (after : Promiser) : (Except GraphFault NodeId × List NodeId) × Promiser :=
  match refused with
  | some effect =>
    ((.error (.nodeRefused (.effect effect.setting)), numbered first laid), after)
  | none => NodeChain.append output [] (first + laid.length) (numbered first laid) after

/-- The last node is wired to an output that is known. -/
theorem closing_of_known (h : Laid before waveform effects made current)
    (hknown : output < before.nextNode + effects.length + 1) :
    closing output before.nextNode effects none ⟨current, promises⟩ =
      ((.ok (before.nextNode + effects.length), numbered before.nextNode effects),
        ⟨current.note (.wire (before.nextNode + effects.length) output), promises⟩) := by
  rw [← h.known] at hknown
  have htail : before.nextNode + effects.length < current.nextNode := h.known ▸ Nat.lt_succ_self _
  have hwire : wire (before.nextNode + effects.length) output (Promiser.mk current promises) =
      (.ok (), ⟨current.note (.wire (before.nextNode + effects.length) output), promises⟩) :=
    congrArg (Prod.map id _) (Recorder.wire_eq htail hknown)
  simp only [closing, NodeChain.append, hwire]

/-- An output that is not known is named. -/
theorem closing_of_unknown (h : Laid before waveform effects made current)
    (hunknown : ¬ output < before.nextNode + effects.length + 1) :
    closing output before.nextNode effects none ⟨current, promises⟩ =
      ((.error (.unknownNode output), numbered before.nextNode effects),
        ⟨current, promises⟩) := by
  rw [← h.known] at hunknown
  have htail : before.nextNode + effects.length < current.nextNode := h.known ▸ Nat.lt_succ_self _
  have hrefused : Recorder.wire (before.nextNode + effects.length) output current =
      (.error (.unknownNode output), current) := by
    simp [Recorder.wire, Recorder.knows, htail, hunknown]
  have hwire : wire (before.nextNode + effects.length) output (Promiser.mk current promises) =
      (.error (.unknownNode output), ⟨current, promises⟩) :=
    congrArg (Prod.map id _) hrefused
  simp only [closing, NodeChain.append, hwire]

/-- The effects that are promised. -/
def promised (promises : Setting → Bool) (effects : List Effect) : List Effect :=
  effects.filter fun effect => promises effect.setting

/-- The effects that are promised are laid one after the other, up to one that is refused. -/
theorem append_of_laid (promises : Setting → Bool) (output : NodeId) (effects : List Effect)
    (h : Laid before waveform done made current) :
    ∃ more after,
      Laid before waveform (done ++ before.granted (promised promises effects)) more after ∧
      NodeChain.append output effects (before.nextNode + done.length)
          (numbered before.nextNode done) (Promiser.mk current promises) =
        closing output before.nextNode (done ++ before.granted (promised promises effects))
          ((promised promises effects).find? before.refuses) ⟨after, promises⟩ := by
  induction effects generalizing done made current with
  | nil =>
    have hnone : done ++ before.granted (promised promises []) = done := List.append_nil done
    rw [hnone]
    exact ⟨made, current, h, rfl⟩
  | cons effect effects ih =>
    cases hpromised : promises effect.setting with
    | false =>
      have hsame : promised promises (effect :: effects) = promised promises effects :=
        List.filter_cons_of_neg (Bool.eq_false_iff.1 hpromised)
      rw [append_of_not_promised hpromised, hsame]
      exact ih h
    | true =>
      have hcons : promised promises (effect :: effects) = effect :: promised promises effects :=
        List.filter_cons_of_pos hpromised
      have hsame : current.refuses effect = before.refuses effect := by
        rw [Recorder.refuses, h.unsupported, Recorder.refuses]
      rw [hcons]
      cases hrefused : before.refuses effect with
      | true =>
        have hnone : before.granted (effect :: promised promises effects) = [] :=
          List.takeWhile_cons_of_neg (by simp [hrefused])
        rw [append_of_refused hpromised (hsame.trans hrefused), hnone, List.append_nil,
          List.find?_cons_of_pos hrefused]
        exact ⟨made, current, h, rfl⟩
      | false =>
        have hmore : done ++ before.granted (effect :: promised promises effects) =
            done ++ [effect] ++ before.granted (promised promises effects) := by
          rw [Recorder.granted, List.takeWhile_cons_of_pos (by simp [hrefused]),
            List.append_assoc]
          rfl
        have htail : before.nextNode + done.length < current.nextNode :=
          h.known ▸ Nat.lt_succ_self _
        have hnode : current.nextNode = before.nextNode + (done ++ [effect]).length := by
          rw [h.known, List.length_append]
          rfl
        have hrest := ih (h.concat effect)
        rw [numbered_concat, ← hnode] at hrest
        rw [append_of_created hpromised (hsame.trans hrefused) htail, hmore,
          List.find?_cons_of_neg (Bool.eq_false_iff.1 hrefused)]
        exact hrest

end

/-! ## Chains as a whole -/

namespace Laid

variable {before laid after : Recorder} {waveform : Waveform} {effects : List Effect}
  {made more : List Call}

/-- Wires lead away from new nodes only. -/
theorem le_of_mem_wire {node target : NodeId} (h : Laid before waveform effects made laid)
    (hmem : .wire node target ∈ made) : before.nextNode ≤ node := by
  have hwire : .wire node target ∈ Chiptune.wires made := List.mem_filter.2 ⟨hmem, rfl⟩
  rw [h.wires, ← List.map_uncurry_zip_eq_zipWith] at hwire
  obtain ⟨⟨source, next⟩, hzip, heq⟩ := List.mem_map.1 hwire
  obtain ⟨rfl, rfl⟩ := Call.wire.inj heq
  exact (List.mem_range'_1.1 (List.of_mem_zip hzip).1).1

/-- The nodes of a chain are new and, whatever is done next to them alone, the others are
spared. -/
theorem creates (h : Laid before waveform effects made laid)
    (hcalls : after.calls = laid.calls ++ more) (hknown : after.nextNode = laid.nextNode)
    (hcreations : Chiptune.creations more = [])
    (hspared : ∀ node, before.knows node = true →
      (∀ target, .wire node target ∉ more) ∧ ∀ given ∈ Chiptune.signals more, given.node ≠ node) :
    Creates before waveform effects before.nextNode
      (List.range' (before.nextNode + 1) effects.length) (made ++ more) after where
  calls := by rw [hcalls, h.calls, List.append_assoc]
  known := by
    rw [hknown, h.known, List.length_cons, List.length_range']
    rfl
  fresh := by
    intro node hmem
    rw [← numbered_eq_cons] at hmem
    exact decide_eq_false (Nat.not_lt.2 (List.mem_range'_1.1 hmem).1)
  distinct := by
    rw [← numbered_eq_cons]
    exact List.nodup_range' 1
  creations := by rw [creations_append, h.creations, hcreations, List.append_nil]
  count := List.length_range'
  spared := by
    intro node hknows
    obtain ⟨hwires, hsignals⟩ := hspared node hknows
    refine ⟨fun target hmem => ?_, fun given hmem => ?_⟩
    · rcases List.mem_append.1 hmem with hmem | hmem
      · exact Nat.not_lt.2 (h.le_of_mem_wire hmem) (of_decide_eq_true hknows)
      · exact hwires target hmem
    · rw [signals_append, h.signals] at hmem
      exact hsignals given hmem

/-- The wires of a chain, and those behind its last node. -/
theorem wires_append_tail (h : Laid before waveform effects made laid) (targets : List NodeId) :
    Chiptune.wires made ++ List.zipWith Call.wire [before.nextNode + effects.length] targets =
      List.zipWith Call.wire (numbered before.nextNode effects)
        (List.range' (before.nextNode + 1) effects.length ++ targets) := by
  rw [h.wires, numbered_eq_concat,
    List.zipWith_append (by rw [List.length_range', List.length_range'])]

/-- With a wire to the output a chain is complete. -/
theorem complete {instrument : Instrument} {promises : Setting → Bool} (output : NodeId)
    (h : Laid before instrument.waveform (instrument.heard promises) made laid) :
    Complete before instrument promises output
      ⟨before.nextNode, before.nextNode + (instrument.heard promises).length,
        numbered before.nextNode (instrument.heard promises)⟩
      (laid.note (.wire (before.nextNode + (instrument.heard promises).length) output)) where
  nodes := by
    refine ⟨_, _, numbered_eq_cons _ _, h.creates rfl rfl rfl ?_, ?_, ?_⟩
    · intro node hknows
      refine ⟨fun target hmem => ?_, fun given hmem => by cases hmem⟩
      obtain ⟨rfl, -⟩ := Call.wire.inj (List.mem_singleton.1 hmem)
      have hlt := of_decide_eq_true hknows
      exact absurd hlt (Nat.not_lt.2 (Nat.le_add_right _ _))
    · rw [wires_append]
      exact h.wires_append_tail [output]
    · rw [signals_append, h.signals]
      rfl
  terminal := by
    rw [numbered_eq_concat]
    exact List.getLast?_concat

/-- When its nodes are detached a chain is given up. -/
theorem givenUp {instrument : Instrument} {promises : Setting → Bool} {fault : GraphFault}
    (h : Laid before instrument.waveform (before.granted (instrument.heard promises)) made laid)
    (hfault : fault ≠ .nodeRefused .oscillator) :
    GivenUp before instrument promises fault (signalAll
      ((numbered before.nextNode (before.granted (instrument.heard promises))).map .detach)
      laid) where
  nothing heq := absurd heq hfault
  nodes _ := by
    refine ⟨_, _, _, h.creates ?_ ?_ (creations_map_signal _) ?_, ?_, h.signals⟩
    · rw [Recorder.calls_signalAll, numbered_eq_cons]
    · rw [Recorder.signalAll_eq]
    · intro node hknows
      refine ⟨fun target hmem => ?_, fun given hmem => ?_⟩
      · obtain ⟨_, -, heq⟩ := List.mem_map.1 hmem
        cases heq
      · rw [signals_map_signal, ← numbered_eq_cons] at hmem
        obtain ⟨made, hmade, rfl⟩ := List.mem_map.1 hmem
        have hlt := of_decide_eq_true hknows
        exact Nat.ne_of_gt (Nat.lt_of_lt_of_le hlt (List.mem_range'_1.1 hmade).1)
    · have hwires := h.wires_append_tail []
      rwa [List.zipWith_nil_right, List.append_nil, List.append_nil, numbered_eq_cons] at hwires

end Laid

/-! ## What is built -/

theorem Promiser.signalAll_eq (given : List Signal) (recorder : Recorder)
    (promises : Setting → Bool) :
    signalAll given (Promiser.mk recorder promises) = ⟨signalAll given recorder, promises⟩ := by
  induction given generalizing recorder with
  | nil => rfl
  | cons given others ih => exact ih (signal given recorder)

section

variable {recorder : Recorder} {instrument : Instrument} {promises : Setting → Bool}
  {output : NodeId} {fault : GraphFault} {chain : NodeChain} {after : Recorder}

/-- A chain without a fault settles when it is complete. -/
theorem Settles.ofComplete (h : instrument.fault? promises output recorder = none)
    (hcomplete : Complete recorder instrument promises output chain after) :
    Settles recorder instrument promises output (.ok chain) after where
  fault fault := by simp [h]
  complete other heq := by
    cases heq
    exact hcomplete
  givenUp fault heq := by cases heq

/-- A chain with a fault settles when it is given up. -/
theorem Settles.ofGivenUp (h : instrument.fault? promises output recorder = some fault)
    (hgiven : GivenUp recorder instrument promises fault after) :
    Settles recorder instrument promises output (.error fault) after where
  fault other := by simp [h]
  complete chain heq := by cases heq
  givenUp other heq := by
    cases heq
    exact hgiven

/-- When the oscillator is refused nothing has happened. -/
theorem build_of_refused (h : recorder.spendAllowance.refusesOscillators = true) :
    NodeChain.build instrument output (Promiser.mk recorder promises) =
      (.error (.nodeRefused .oscillator), ⟨recorder.spendAllowance, promises⟩) := by
  have hrefused : newOscillator instrument.waveform (Promiser.mk recorder promises) =
      (.error (.nodeRefused .oscillator), ⟨recorder.spendAllowance, promises⟩) :=
    congrArg (Prod.map id _) (if_pos h)
  rw [NodeChain.build, hrefused]

/-- Otherwise the effects that are heard are laid, up to one that is refused. -/
theorem append_of_oscillator (instrument : Instrument) (promises : Setting → Bool)
    (output : NodeId) (h : recorder.spendAllowance.refusesOscillators = false) :
    ∃ begun made laid,
      newOscillator instrument.waveform (Promiser.mk recorder promises) =
        (.ok recorder.nextNode, begun) ∧
      Laid recorder instrument.waveform (recorder.granted (instrument.heard promises)) made laid ∧
      NodeChain.append output instrument.effects recorder.nextNode [recorder.nextNode] begun =
        closing output recorder.nextNode (recorder.granted (instrument.heard promises))
          ((instrument.heard promises).find? recorder.refuses) ⟨laid, promises⟩ := by
  obtain ⟨refuses, allowance, hspent⟩ := recorder.spendAllowance_eq
  have hcreated : Recorder.newOscillator instrument.waveform recorder =
      recorder.spendAllowance.create fun node => .newOscillator node instrument.waveform :=
    if_neg (Bool.eq_false_iff.1 h)
  rw [hspent] at hcreated
  have hfirst : Laid recorder instrument.waveform []
      [.newOscillator recorder.nextNode instrument.waveform] (Recorder.create
        (fun node => .newOscillator node instrument.waveform)
        { recorder with refusesOscillators := refuses, allowance := allowance }).2 :=
    .ofOscillator rfl rfl rfl
  obtain ⟨made, laid, hlaid, happend⟩ :=
    append_of_laid promises output instrument.effects hfirst
  have hheard : promised promises instrument.effects = instrument.heard promises :=
    (Instrument.heard_eq promises instrument).symm
  rw [hheard, List.nil_append] at hlaid happend
  exact ⟨_, made, laid, congrArg (Prod.map id _) hcreated, hlaid, happend⟩

/-- The chain is what has been laid, when it is wired to the output. -/
theorem build_of_ok {entry terminal : NodeId} {nodes : List NodeId} {begun ended : Promiser}
    (hbegun : newOscillator instrument.waveform (Promiser.mk recorder promises) =
      (.ok entry, begun))
    (hended : NodeChain.append output instrument.effects entry [entry] begun =
      ((.ok terminal, nodes), ended)) :
    NodeChain.build instrument output (Promiser.mk recorder promises) =
      (.ok ⟨entry, terminal, nodes⟩, ended) := by
  rw [NodeChain.build, hbegun]
  simp only [hended]

/-- What has been laid is detached, when anything is refused. -/
theorem build_of_error {entry : NodeId} {nodes : List NodeId} {begun ended : Promiser}
    (hbegun : newOscillator instrument.waveform (Promiser.mk recorder promises) =
      (.ok entry, begun))
    (hended : NodeChain.append output instrument.effects entry [entry] begun =
      ((.error fault, nodes), ended)) :
    NodeChain.build instrument output (Promiser.mk recorder promises) =
      (.error fault, signalAll (nodes.map .detach) ended) := by
  rw [NodeChain.build, hbegun]
  simp only [hended]

end

variable (recorder : Recorder) (instrument : Instrument) (promises : Setting → Bool)
  (output : NodeId)

/-- Whatever a host promises, a chain over it settles. -/
theorem settles_promiser :
    Settles recorder instrument promises output
      (NodeChain.build instrument output (Promiser.mk recorder promises)).1
      (NodeChain.build instrument output (Promiser.mk recorder promises)).2.recorder := by
  cases hspent : recorder.spendAllowance.refusesOscillators with
  | true =>
    obtain ⟨refuses, allowance, heq⟩ := recorder.spendAllowance_eq
    rw [build_of_refused hspent]
    refine .ofGivenUp (if_pos hspent) ⟨fun _ => ?_, fun hne => absurd rfl hne⟩
    rw [heq]
    exact ⟨rfl, rfl⟩
  | false =>
    obtain ⟨begun, made, laid, hbegun, hlaid, hended⟩ :=
      append_of_oscillator instrument promises output hspent
    have hfault : instrument.fault? promises output recorder = _ := if_neg (by simp [hspent])
    cases hrefused : (instrument.heard promises).find? recorder.refuses with
    | some effect =>
      rw [hrefused] at hended hfault
      rw [build_of_error hbegun hended, Promiser.signalAll_eq]
      exact .ofGivenUp hfault (hlaid.givenUp (by simp))
    | none =>
      have hgranted : recorder.granted (instrument.heard promises) = instrument.heard promises :=
        List.takeWhile_eq_self_iff.2 (by simpa using List.find?_eq_none.1 hrefused)
      rw [hrefused, hgranted] at hended
      rw [hrefused] at hfault
      have hwhole := hlaid
      rw [hgranted] at hwhole
      by_cases hknown : output < recorder.nextNode + (instrument.heard promises).length + 1
      · rw [closing_of_known hwhole hknown] at hended
        rw [build_of_ok hbegun hended]
        exact .ofComplete (hfault.trans (if_pos hknown)) (hwhole.complete output)
      · have hgiven : GivenUp recorder instrument promises (.unknownNode output) _ :=
          hlaid.givenUp (by simp)
        rw [hgranted] at hgiven
        rw [closing_of_unknown hwhole hknown] at hended
        rw [build_of_error hbegun hended, Promiser.signalAll_eq]
        exact .ofGivenUp (hfault.trans (if_neg hknown)) hgiven

/-- **A chain is complete or given up.**  Over a recorder, and over a host that promises
whatever it likes, it has the first fault that there is, or it has none. -/
theorem settles_build :
    Settles recorder instrument (supports recorder) output
        (NodeChain.build instrument output recorder).1
        (NodeChain.build instrument output recorder).2 ∧
      Settles recorder instrument promises output
        (NodeChain.build instrument output (Promiser.mk recorder promises)).1
        (NodeChain.build instrument output (Promiser.mk recorder promises)).2.recorder := by
  refine ⟨?_, settles_promiser recorder instrument promises output⟩
  have hsettles := settles_promiser recorder instrument (supports recorder) output
  have hbuild := projects_promiser.build instrument output recorder
  change NodeChain.build instrument output (Promiser.mk recorder (supports recorder)) = _ at hbuild
  rw [hbuild] at hsettles
  exact hsettles

end Chiptune
