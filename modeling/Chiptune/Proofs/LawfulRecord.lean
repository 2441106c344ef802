/-
  What an engine never does to a recorder.

  A recorder takes down what is done to nodes that are gone as it takes down everything
  else.  An engine never does anything of that kind: every call finds its nodes alive, and
  the destination is wired to and nothing else.  A recorder that refuses nothing therefore
  lets every chain be built.
-/
import Chiptune.Proofs.EngineNodes
import Chiptune.Proofs.Score

set_option autoImplicit false

namespace Chiptune

open AudioGraph

/-! ## The nodes of signals -/

namespace Scheduler

variable {scheduler : Scheduler} {given : Signal}

theorem node_of_mem_cancelEach (now : Seconds) (handles : List VoiceId)
    (h : given ∈ (scheduler.cancelEach now handles).1) :
    ∃ task ∈ scheduler.tasks, given.node ∈ task.voice.owned := by
  induction handles generalizing scheduler with
  | nil => cases h
  | cons handle handles ih =>
    rw [signals_cancelEach_cons] at h
    rcases List.mem_append.1 h with hfirst | hothers
    · rcases cancel_cases now handle scheduler with ⟨-, hcancel⟩ | ⟨task, hfound, hcancel⟩
      · rw [hcancel] at hfirst
        cases hfirst
      · rw [hcancel] at hfirst
        exact ⟨task, mem_of_task? hfound, Voice.node_of_mem_release hfirst⟩
    · obtain ⟨task, hmem, hnode⟩ := ih hothers
      rw [tasks_cancel] at hmem
      exact ⟨task, (List.mem_filter.1 hmem).1, hnode⟩

theorem node_of_mem_cancelEvery (now : Seconds) (h : given ∈ (scheduler.cancelEvery now).1) :
    ∃ task ∈ scheduler.tasks, given.node ∈ task.voice.owned := by
  obtain ⟨task, hmem, hgiven⟩ := List.mem_flatMap.1 h
  exact ⟨task, hmem, Voice.node_of_mem_release hgiven⟩

theorem node_of_mem_fireAll (now : Seconds) (epoch : Nat) (timers : List Timer)
    {tasks : List Task} (h : given ∈ (fireAll now epoch timers tasks).signals) :
    ∃ task ∈ tasks, given.node ∈ task.voice.owned := by
  induction timers generalizing tasks with
  | nil => cases h
  | cons timer timers ih =>
    rw [fireAll] at h
    rcases List.mem_append.1 h with hfirst | hothers
    · rcases fire_cases now epoch timer tasks with
        ⟨-, hfire⟩ | ⟨task, hlive, -, -, hfire⟩ | ⟨task, hlive, -, -, hfire⟩
      · rw [hfire] at hfirst
        cases hfirst
      · rw [hfire] at hfirst
        exact ⟨task, mem_of_task? (task?_of_liveTask? hlive).1,
          Voice.node_of_mem_programme hfirst⟩
      · rw [hfire] at hfirst
        exact ⟨task, mem_of_task? (task?_of_liveTask? hlive).1,
          Voice.node_of_mem_release hfirst⟩
    · obtain ⟨task, hmem, hnode⟩ := ih hothers
      obtain ⟨before, hbefore, heq⟩ := mem_fire_tasks hmem
      exact ⟨before, hbefore, by rwa [heq] at hnode⟩

/-- A voice that starts, or that is refused, is sent signals for its own nodes. -/
theorem node_of_mem_signals_start (now : Seconds) (voice : Voice) (tones : List Tone)
    (looping announced : Bool)
    (h : given ∈ (scheduler.start now voice tones looping announced).1.signals) :
    given.node ∈ voice.owned := by
  rcases start_cases now voice tones looping announced scheduler with
    ⟨-, -, hstart⟩ | ⟨-, -, hstart⟩ | ⟨-, -, hstart⟩
  · rw [hstart] at h
    exact Voice.node_of_mem_discard h
  · rw [hstart] at h
    exact Voice.node_of_mem_start (fun _ hmem => Voice.node_of_mem_release hmem) h
  · rw [hstart] at h
    exact Voice.node_of_mem_start (fun _ hmem => Voice.node_of_mem_programme hmem) h

end Scheduler

/-! ## Nodes that are alive -/

/-- What a call is to the nodes that it mentions. -/
def Call.role : Call → Role
  | newOscillator _ _ => .madeOscillator
  | newEffect _ _ => .madeEffect
  | wire _ _ => .wired
  | signal given => given.role

theorem role?_of_mem {node : NodeId} {call : Call} (h : node ∈ call.nodes) :
    call.role? node = some call.role := by
  cases call with
  | newOscillator made waveform => simp_all [Call.role?, Call.nodes, Call.role]
  | newEffect made effect => simp_all [Call.role?, Call.nodes, Call.role]
  | wire source target =>
    refine if_pos ?_
    simpa [Call.nodes, eq_comm] using h
  | signal given => simp_all [Call.role?, Call.nodes, Call.role]

/-- Whether a node has been created and is not gone. -/
def NodePhase.isAlive : NodePhase → Bool
  | unborn | gone => false
  | _ => true

/-- A node is alive before a call that does not create it, and behind one that does not detach
it. -/
theorem NodePhase.isAlive_of_next? {phase next : NodePhase} {role : Role}
    (h : phase.next? role = some next) :
    phase.isAlive = !role.isCreation ∧ next.isAlive = (role != .detached) := by
  cases phase <;> cases role <;> cases h <;> decide

namespace Recorder

/-- Nodes that are known are wired. -/
theorem wire_eq {recorder : Recorder} {source target : NodeId}
    (hsource : source < recorder.nextNode) (htarget : target < recorder.nextNode) :
    AudioGraph.wire source target recorder = (.ok (), recorder.note (.wire source target)) := by
  change Recorder.wire source target recorder = _
  simp [Recorder.wire, knows, hsource, htarget]

/-! ## Recorders that refuse nothing -/

/-- Nothing is refused. -/
structure Willing (recorder : Recorder) : Prop where
  effects : recorder.unsupported = []
  oscillators : recorder.refusesOscillators = false
  allowance : recorder.allowance = none
  /-- The destination is known. -/
  positive : destination < recorder.nextNode

namespace Willing

variable {recorder : Recorder}

theorem newOscillator_eq (h : recorder.Willing) (waveform : Waveform) :
    AudioGraph.newOscillator waveform recorder =
      recorder.create fun node => .newOscillator node waveform := by
  have hspent : recorder.spendAllowance = recorder := by rw [spendAllowance, h.allowance]
  change Recorder.newOscillator waveform recorder = _
  simp only [Recorder.newOscillator, hspent, h.oscillators, Bool.false_eq_true, if_false]

theorem newEffect_eq (h : recorder.Willing) (effect : Effect) :
    AudioGraph.newEffect effect recorder =
      recorder.create fun node => .newEffect node effect := by
  change Recorder.newEffect effect recorder = _
  simp only [Recorder.newEffect, h.effects, List.contains_nil, Bool.false_eq_true, if_false]

/-- Every effect is supported. -/
theorem supports_eq (h : recorder.Willing) : supports recorder = fun _ => true := by
  funext setting
  change (recorder.overpromises || !recorder.unsupported.contains setting) = true
  rw [h.effects]
  cases recorder.overpromises <;> rfl

theorem create (h : recorder.Willing) (call : NodeId → Call) :
    (recorder.create call).2.Willing :=
  ⟨h.effects, h.oscillators, h.allowance, Nat.succ_pos _⟩

theorem note (h : recorder.Willing) (call : Call) : (recorder.note call).Willing :=
  ⟨h.effects, h.oscillators, h.allowance, h.positive⟩

theorem atTime (h : recorder.Willing) (time : Seconds) : (recorder.atTime time).Willing :=
  ⟨h.effects, h.oscillators, h.allowance, h.positive⟩

/-- A chain grows to its end. -/
theorem append (h : recorder.Willing) (effects : List Effect) {tail : NodeId}
    (nodes : List NodeId) (htail : tail < recorder.nextNode) :
    ∃ terminal all built, built.Willing ∧
      NodeChain.append destination effects tail nodes recorder =
        ((.ok terminal, all), built) := by
  induction effects generalizing recorder tail nodes with
  | nil =>
    unfold NodeChain.append
    rw [wire_eq htail h.positive]
    exact ⟨tail, nodes, _, h.note _, rfl⟩
  | cons effect effects ih =>
    unfold NodeChain.append
    rw [h.supports_eq, if_pos rfl, h.newEffect_eq]
    have hcreated := h.create fun node => .newEffect node effect
    have hwire : AudioGraph.wire tail recorder.nextNode
        (recorder.create fun node => .newEffect node effect).2 = (.ok (), _) :=
      wire_eq (Nat.lt_succ_of_lt htail) (Nat.lt_succ_self recorder.nextNode)
    simp only [Recorder.create] at hcreated hwire ⊢
    rw [hwire]
    exact ih (hcreated.note _) _ (Nat.lt_succ_self _)

/-- No chain is refused. -/
theorem build (h : recorder.Willing) (instrument : Instrument) :
    ∃ chain built, built.Willing ∧
      NodeChain.build instrument destination recorder = (.ok chain, built) := by
  have hcreated := h.create fun node => .newOscillator node instrument.waveform
  obtain ⟨terminal, all, built, hbuilt, happend⟩ :=
    hcreated.append instrument.effects [recorder.nextNode] (Nat.lt_succ_self recorder.nextNode)
  refine ⟨⟨recorder.nextNode, terminal, all⟩, built, hbuilt, ?_⟩
  unfold NodeChain.build
  rw [h.newOscillator_eq]
  simp only [Recorder.create] at happend ⊢
  rw [happend]

theorem signalAll (h : recorder.Willing) (signals : List Signal) :
    (AudioGraph.signalAll signals recorder).Willing := by
  rw [signalAll_eq]
  exact ⟨h.effects, h.oscillators, h.allowance, h.positive⟩

end Willing

/-! ## The destination is spared -/

/-- No signal is for the destination. -/
def Spares (recorder : Recorder) : Prop :=
  ∀ given, .signal given ∈ recorder.calls → given.node ≠ destination

theorem spares_signalAll {recorder : Recorder} {signals : List Signal} (h : recorder.Spares)
    (hsignals : ∀ given ∈ signals, given.node ≠ destination) :
    (AudioGraph.signalAll signals recorder).Spares := by
  intro given hmem
  rw [calls_signalAll] at hmem
  rcases List.mem_append.1 hmem with hmem | hmem
  · exact h given hmem
  · obtain ⟨other, hother, heq⟩ := List.mem_map.1 hmem
    cases heq
    exact hsignals given hother

/-- Building makes no signals. -/
theorem spares_build {recorder built : Recorder} {instrument : Instrument} {chain : NodeChain}
    (h : recorder.Spares)
    (hbuild : NodeChain.build instrument destination recorder = (.ok chain, built)) :
    built.Spares := by
  have hwiring : ∀ (effects : List Effect) (tail next : NodeId) (given : Signal),
      .signal given ∉ wiring effects tail next := by
    intro effects
    induction effects with
    | nil => simp [wiring]
    | cons effect effects ih => simp [wiring, ih]
  obtain ⟨-, -, hcalls, -⟩ := calls_build rfl hbuild
  intro given hmem
  rw [hcalls] at hmem
  rcases List.mem_append.1 hmem with hmem | hmem
  · exact h given hmem
  · rcases List.mem_cons.1 hmem with heq | hmem
    · cases heq
    · exact absurd hmem (hwiring _ _ _ given)

/-! ## Calls that find their nodes alive -/

/-- What was done to each node was done in order, and nothing was done to the destination but
to wire to it. -/
structure Lawful (recorder : Recorder) : Prop where
  phases : ∀ node, node ≠ destination → ∃ phase, recorder.phase node = some phase
  spares : recorder.Spares

/-- A record has been lawful as long as it is lawful. -/
theorem Lawful.of_calls {recorder next : Recorder} {calls : List Call} (h : next.Lawful)
    (hcalls : next.calls = recorder.calls ++ calls) : recorder.Lawful where
  phases := by
    intro node hnode
    obtain ⟨after, hafter⟩ := h.phases node hnode
    rw [phase, hcalls, phaseOf_append] at hafter
    obtain ⟨before, hbefore, -⟩ := Option.bind_eq_some_iff.1 hafter
    exact ⟨before, hbefore⟩
  spares := by
    intro given hmem
    exact h.spares given (hcalls ▸ List.mem_append_left _ hmem)

/-- What is unlawful stays so, whatever is accepted. -/
theorem kept_unlawful : AudioGraph.Kept fun recorder : Recorder => ¬ recorder.Lawful where
  newOscillator := by
    intro waveform recorder h hnext
    obtain ⟨_, _, heq | heq⟩ := newOscillator_cases waveform recorder
    · rw [heq] at hnext
      exact h (hnext.of_calls (List.append_nil _).symm)
    · rw [heq] at hnext
      exact h (hnext.of_calls rfl)
  newEffect := by
    intro effect _ recorder h hnext
    rcases newEffect_cases effect recorder with heq | heq
    · rw [heq] at hnext
      exact h hnext
    · rw [heq] at hnext
      exact h (hnext.of_calls rfl)
  wire := by
    intro source target recorder h hnext
    rcases wire_cases source target recorder with ⟨_, heq⟩ | heq
    · rw [heq] at hnext
      exact h hnext
    · rw [heq] at hnext
      exact h (hnext.of_calls rfl)
  signal := fun _ _ h hnext => h (hnext.of_calls rfl)

/-- Whether a node is alive, as the record tells. -/
def alive (node : NodeId) (recorder : Recorder) : Bool :=
  (recorder.phase node).any NodePhase.isAlive

section

variable {recorder next : Recorder} {call : Call} {node : NodeId}

/-- A node that is not mentioned stays as it is. -/
theorem alive_of_not_mem (hcalls : next.calls = recorder.calls ++ [call])
    (hnode : node ∉ call.nodes) : next.alive node = recorder.alive node := by
  have hhistory : history node [call] = [] := by simp [history, role?_eq_none_iff.2 hnode]
  rw [alive, alive, phase, phase, hcalls, phaseOf_append_of_nil hhistory]

/-- A lawful call creates a node that was not there, or it finds the node alive; and it leaves
the node alive unless it detaches it. -/
theorem Lawful.alive_of_mem (h : next.Lawful) (hcalls : next.calls = recorder.calls ++ [call])
    (hne : node ≠ destination) (hnode : node ∈ call.nodes) :
    recorder.alive node = !call.role.isCreation ∧
      next.alive node = (call.role != .detached) := by
  have hhistory : history node [call] = [call.role] := by simp [history, role?_of_mem hnode]
  obtain ⟨after, hafter⟩ := h.phases node hne
  have hphases := hafter
  rw [phase, hcalls, phaseOf_append, hhistory] at hphases
  obtain ⟨before, hbefore, hphases⟩ := Option.bind_eq_some_iff.1 hphases
  rw [NodePhase.follow?_cons] at hphases
  obtain ⟨here, hnext, heq⟩ := Option.bind_eq_some_iff.1 hphases
  cases heq
  rw [alive, alive, phase, hbefore, hafter]
  exact NodePhase.isAlive_of_next? hnext

end

end Recorder

namespace Stage

open Recorder

/-- What holds on the stage of an engine to which nothing is refused. -/
structure Proper (stage : Stage Recorder) : Prop extends Tidy stage where
  willing : stage.graph.Willing
  spares : stage.graph.Spares

variable {stage : Stage Recorder}

/-- The voices that play do not own the destination. -/
theorem Proper.node_ne (h : stage.Proper) {given : Signal}
    (howned : ∃ task ∈ stage.scheduler.tasks, given.node ∈ task.voice.owned) :
    given.node ≠ destination := by
  obtain ⟨task, htask, hnode⟩ := howned
  have hvoice : task.voice ∈ stage.scheduler.voices := List.mem_map_of_mem htask
  have hmem := h.tended.mem_nodes_of_owned hvoice hnode
  exact (h.tended.known _ (List.mem_flatMap.2 ⟨task.voice, hvoice, hmem⟩)).1

/-- An engine makes lawful calls only. -/
theorem Proper.lawful (h : stage.Proper) : stage.graph.Lawful where
  phases := by
    intro node hnode
    rcases Engine.phase_cases h.tended hnode with hphase | ⟨-, -, -, phase, hphase, -⟩ |
      ⟨-, hphase⟩
    · exact ⟨_, hphase⟩
    · exact ⟨phase, hphase⟩
    · exact ⟨_, hphase⟩
  spares := h.spares

theorem proper_retire (handles : List VoiceId) (h : stage.Proper) :
    (stage.retire handles).Proper where
  toTidy := tidy_retire handles h.toTidy
  willing := h.willing.signalAll _
  spares := by
    refine spares_signalAll h.spares fun given hmem => h.node_ne ?_
    rcases List.mem_append.1 hmem with hmem | hmem
    · exact Scheduler.node_of_mem_cancelEach _ handles hmem
    · obtain ⟨task, htask, hnode⟩ := Scheduler.node_of_mem_cancelEvery _ hmem
      rw [Scheduler.tasks_cancelEach] at htask
      exact ⟨task, (List.mem_filter.1 htask).1, hnode⟩

theorem proper_poll (h : stage.Proper) : stage.poll.2.Proper where
  toTidy := tidy_poll h.toTidy
  willing := h.willing.signalAll _
  spares := by
    refine spares_signalAll h.spares fun given hmem => h.node_ne ?_
    exact Scheduler.node_of_mem_fireAll _ _ _ hmem

theorem proper_startPart (looping : Bool) (part : PlannedPart) (h : stage.Proper) :
    (stage.startPart looping part).2.Proper := by
  obtain ⟨chain, built, hwilling, hbuild⟩ := h.willing.build part.instrument
  have htidy := tidy_startPart looping part h.toTidy
  rw [startPart_of_build hbuild] at htidy ⊢
  refine ⟨htidy, hwilling.signalAll _, spares_signalAll (spares_build h.spares hbuild) ?_⟩
  intro given hmem
  have howned := Scheduler.node_of_mem_signals_start _ _ _ _ _ hmem
  rcases h.tended.build part.instrument with
    ⟨other, left, heq, htended, hchain⟩ | ⟨fault, left, heq, -⟩
  · rw [hbuild] at heq
    cases heq
    have hnode : given.node ∈ chain.nodes := by
      rcases List.mem_cons.1 howned with heq | hnode
      · exact heq ▸ List.mem_of_mem_head? hchain
      · exact hnode
    exact (htended.known _ (List.mem_append_left _ hnode)).1
  · rw [hbuild] at heq
    cases heq

/-- The clock may be set at any time. -/
theorem Proper.atTime (h : stage.Proper) (time : Seconds) :
    ({ stage with graph := stage.graph.atTime time } : Stage Recorder).Proper where
  coherent := h.coherent
  tended := h.tended.congr rfl rfl
  willing := h.willing.atTime time
  spares := h.spares

/-- Nothing has been done on the stage of an engine that is new. -/
theorem proper_fresh : (⟨.empty, Recorder.fresh⟩ : Stage Recorder).Proper where
  coherent := Scheduler.coherent_empty
  tended := tended_withoutEffects []
  willing := ⟨rfl, rfl, rfl, Nat.one_pos⟩
  spares := fun _ hmem => absurd hmem List.not_mem_nil

/-- Whatever an engine does leaves the destination alone. -/
theorem kept_proper : Kept Proper where
  retire := fun handles _ h => proper_retire handles h
  startPart := fun looping part _ _ h => proper_startPart looping part h
  poll := proper_poll

end Stage

end Chiptune
