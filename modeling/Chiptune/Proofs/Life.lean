/-
  The life of a node.

  A node is created, wired and in the end detached; an oscillator is started, tuned and
  stopped in between.  The calls that mention a node are its history.  Whether a
  history may go on as it does is told by a machine with few phases, and a history that
  this machine accepts is a life cycle.
-/
import Chiptune.Graph.Call
import Mathlib.Data.List.Induction

set_option autoImplicit false

namespace Chiptune

/-- What a call is to a node that it mentions. -/
inductive Role where
  | madeOscillator
  | madeEffect
  | wired
  | started
  | tuned
  | stopped
  | detached
  deriving DecidableEq, Repr

/-- Whether a call creates the node. -/
def Role.isCreation : Role → Bool
  | madeOscillator | madeEffect => true
  | _ => false

/-- What a signal is to its node. -/
def Signal.role : Signal → Role
  | detach _ => .detached
  | start _ _ => .started
  | stop _ _ => .stopped
  | tune _ _ _ => .tuned

/-- What a call is to a node, if it mentions it. -/
def Call.role? (node : NodeId) : Call → Option Role
  | newOscillator other _ => if other = node then some .madeOscillator else none
  | newEffect other _ => if other = node then some .madeEffect else none
  | wire source target => if source = node ∨ target = node then some .wired else none
  | signal given => if given.node = node then some given.role else none

/-- The calls that mention a node, in order. -/
def history (node : NodeId) (calls : List Call) : List Role :=
  calls.filterMap (Call.role? node)

/-- A call has a role for the nodes that it mentions and for no other. -/
theorem role?_eq_none_iff {node : NodeId} {call : Call} :
    call.role? node = none ↔ node ∉ call.nodes := by
  cases call with
  | newOscillator other waveform => simp [Call.role?, Call.nodes, eq_comm]
  | newEffect other effect => simp [Call.role?, Call.nodes, eq_comm]
  | wire source target => simp [Call.role?, Call.nodes, eq_comm]
  | signal given => simp [Call.role?, Call.nodes, eq_comm]

theorem history_append (node : NodeId) (first second : List Call) :
    history node (first ++ second) = history node first ++ history node second :=
  List.filterMap_append

/-- A history is a life cycle when the node is created first, is detached last, and is
started, tuned and stopped in order, if it is an oscillator. -/
structure LifeCycle (history : List Role) : Prop where
  created_first : ∀ before role later, history = before ++ role :: later →
    (role.isCreation = true ↔ before = [])
  detached_last : ∀ before later, history = before ++ .detached :: later → later = []
  /-- Only oscillators are started, tuned or stopped. -/
  driven : ∀ role ∈ history, role = .started ∨ role = .tuned ∨ role = .stopped →
    .madeOscillator ∈ history
  started_once : history.count .started ≤ 1
  stopped_once : history.count .stopped ≤ 1
  stopped_behind_start : ∀ before later, history = before ++ .stopped :: later →
    .started ∈ before
  tuned_between : ∀ before later, history = before ++ .tuned :: later →
    .started ∈ before ∧ .stopped ∉ before
  detached_behind_stop : ∀ before later, history = before ++ .detached :: later →
    .started ∈ before → .stopped ∈ before

/-! ## Phases -/

/-- How far the life of a node has come. -/
inductive NodePhase where
  | unborn
  | effect
  /-- An oscillator that has not been started. -/
  | silent
  | sounding
  /-- An oscillator that has been stopped. -/
  | still
  | gone
  deriving DecidableEq, Repr

namespace NodePhase

/-- The phase after one more call, if the call has a place there. -/
def next? : NodePhase → Role → Option NodePhase
  | unborn, .madeOscillator => some silent
  | unborn, .madeEffect => some effect
  | effect, .wired => some effect
  | effect, .detached => some gone
  | silent, .wired => some silent
  | silent, .started => some sounding
  | silent, .detached => some gone
  | sounding, .tuned => some sounding
  | sounding, .stopped => some still
  | still, .detached => some gone
  | _, _ => none

/-- The phase after more calls, if all of them have their place. -/
def follow? (phase : NodePhase) (history : List Role) : Option NodePhase :=
  history.foldlM next? phase

@[simp] theorem follow?_nil (phase : NodePhase) : phase.follow? [] = some phase := rfl

@[simp] theorem follow?_cons (phase : NodePhase) (role : Role) (history : List Role) :
    phase.follow? (role :: history) = (phase.next? role).bind (·.follow? history) := rfl

theorem follow?_append (phase : NodePhase) (first second : List Role) :
    phase.follow? (first ++ second) = (phase.follow? first).bind (·.follow? second) :=
  List.foldlM_append

section

variable {phase next : NodePhase} {role : Role}

/-- Creation has its place at the beginning, and nothing else has. -/
theorem isCreation_iff_of_next? (h : phase.next? role = some next) :
    role.isCreation = true ↔ phase = unborn := by
  cases phase <;> cases role <;> cases h <;> decide

/-- Only an oscillator that sounds is tuned. -/
theorem eq_sounding_of_next?_tuned (h : phase.next? .tuned = some next) : phase = sounding := by
  cases phase <;> cases h
  rfl

/-- Only an oscillator that sounds is stopped. -/
theorem eq_sounding_of_next?_stopped (h : phase.next? .stopped = some next) :
    phase = sounding := by
  cases phase <;> cases h
  rfl

theorem eq_silent_of_next?_started (h : phase.next? .started = some next) : phase = silent := by
  cases phase <;> cases h
  rfl

/-- A node is gone when it is detached, and an oscillator that sounds is not. -/
theorem of_next?_detached (h : phase.next? .detached = some next) :
    next = gone ∧ (phase = effect ∨ phase = silent ∨ phase = still) := by
  cases phase <;> cases h <;> decide

end

/-- Tuning goes on as long as an oscillator sounds. -/
theorem sounding_follow?_replicate (count : Nat) :
    sounding.follow? (List.replicate count .tuned) = some sounding := by
  induction count with
  | zero => rfl
  | succ count ih => exact ih

end NodePhase

/-- The phase of a node, as its calls tell. -/
def phaseOf (node : NodeId) (calls : List Call) : Option NodePhase :=
  NodePhase.unborn.follow? (history node calls)

/-! ## Accepted histories -/

/-- How often a node has been started and stopped in a phase. -/
def NodePhase.Counts : NodePhase → (started stopped : Nat) → Prop
  | sounding, started, stopped => started = 1 ∧ stopped = 0
  | still, started, stopped => started = 1 ∧ stopped = 1
  | gone, started, stopped => started = stopped ∧ stopped ≤ 1
  | _, started, stopped => started = 0 ∧ stopped = 0

theorem NodePhase.Counts.started_le {phase : NodePhase} {started stopped : Nat}
    (h : phase.Counts started stopped) : started ≤ 1 := by
  cases phase <;> simp only [NodePhase.Counts] at h <;> omega

theorem NodePhase.Counts.stopped_le {phase : NodePhase} {started stopped : Nat}
    (h : phase.Counts started stopped) : stopped ≤ 1 := by
  cases phase <;> simp only [NodePhase.Counts] at h <;> omega

/-- What a phase says about the history that led to it. -/
structure Past (phase : NodePhase) (history : List Role) : Prop where
  unborn : phase = .unborn ↔ history = []
  oscillator : phase = .silent ∨ phase = .sounding ∨ phase = .still →
    .madeOscillator ∈ history
  counts : phase.Counts (history.count .started) (history.count .stopped)
  gone : phase = .gone ↔ .detached ∈ history

theorem past_nil : Past .unborn [] := by
  constructor <;> simp [NodePhase.Counts]

/-- One more call keeps what is said of the past. -/
theorem Past.concat {phase next : NodePhase} {history : List Role} {role : Role}
    (h : Past phase history) (hnext : phase.next? role = some next) :
    Past next (history ++ [role]) := by
  obtain ⟨hunborn, hoscillator, hcounts, hgone⟩ := h
  cases phase <;> cases role <;>
    simp only [NodePhase.next?, Option.some.injEq, reduceCtorEq] at hnext
  all_goals
    subst hnext
    simp only [NodePhase.Counts] at hcounts
    constructor <;> simp_all [NodePhase.Counts]

/-- A phase tells the past. -/
theorem past_of_follow? {phase : NodePhase} {history : List Role}
    (h : NodePhase.unborn.follow? history = some phase) : Past phase history := by
  induction history using List.reverseRecOn generalizing phase with
  | nil =>
    cases h
    exact past_nil
  | append_singleton history role ih =>
    rw [NodePhase.follow?_append] at h
    obtain ⟨before, hbefore, hnext⟩ := Option.bind_eq_some_iff.1 h
    rw [NodePhase.follow?_cons] at hnext
    obtain ⟨next, hnext, heq⟩ := Option.bind_eq_some_iff.1 hnext
    cases heq
    exact (ih hbefore).concat hnext

/-- Every call of an accepted history has its place in the phase that the calls before it
lead to. -/
theorem split_of_follow? {phase : NodePhase} {before later : List Role} {role : Role}
    (h : NodePhase.unborn.follow? (before ++ role :: later) = some phase) :
    ∃ here next, Past here before ∧ here.next? role = some next ∧
      next.follow? later = some phase := by
  rw [NodePhase.follow?_append] at h
  obtain ⟨here, hhere, h⟩ := Option.bind_eq_some_iff.1 h
  rw [NodePhase.follow?_cons] at h
  obtain ⟨next, hnext, h⟩ := Option.bind_eq_some_iff.1 h
  exact ⟨here, next, past_of_follow? hhere, hnext, h⟩

/-- Nothing comes behind the end of a life. -/
theorem eq_nil_of_gone_follow? {phase : NodePhase} {later : List Role}
    (h : NodePhase.gone.follow? later = some phase) : later = [] := by
  cases later with
  | nil => rfl
  | cons role later => cases role <;> cases h

/-- An accepted history is a life cycle. -/
theorem lifeCycle_of_follow? {phase : NodePhase} {history : List Role}
    (h : NodePhase.unborn.follow? history = some phase) : LifeCycle history := by
  have hpast := past_of_follow? h
  refine
    { created_first := ?_, detached_last := ?_, driven := ?_, started_once := ?_
      stopped_once := ?_, stopped_behind_start := ?_, tuned_between := ?_
      detached_behind_stop := ?_ }
  · rintro before role later rfl
    obtain ⟨here, next, hbefore, hnext, -⟩ := split_of_follow? h
    rw [← hbefore.unborn]
    exact NodePhase.isCreation_iff_of_next? hnext
  · rintro before later rfl
    obtain ⟨here, next, -, hnext, hlater⟩ := split_of_follow? h
    obtain ⟨rfl, -⟩ := NodePhase.of_next?_detached hnext
    exact eq_nil_of_gone_follow? hlater
  · intro role hmem hrole
    obtain ⟨before, later, rfl⟩ := List.append_of_mem hmem
    obtain ⟨here, next, hbefore, hnext, -⟩ := split_of_follow? h
    refine List.mem_append_left _ (hbefore.oscillator ?_)
    rcases hrole with rfl | rfl | rfl
    · exact Or.inl (NodePhase.eq_silent_of_next?_started hnext)
    · exact Or.inr (Or.inl (NodePhase.eq_sounding_of_next?_tuned hnext))
    · exact Or.inr (Or.inl (NodePhase.eq_sounding_of_next?_stopped hnext))
  · exact hpast.counts.started_le
  · exact hpast.counts.stopped_le
  · rintro before later rfl
    obtain ⟨here, next, hbefore, hnext, -⟩ := split_of_follow? h
    obtain rfl := NodePhase.eq_sounding_of_next?_stopped hnext
    exact List.count_pos_iff.1 (hbefore.counts.1 ▸ Nat.one_pos)
  · rintro before later rfl
    obtain ⟨here, next, hbefore, hnext, -⟩ := split_of_follow? h
    obtain rfl := NodePhase.eq_sounding_of_next?_tuned hnext
    exact ⟨List.count_pos_iff.1 (hbefore.counts.1 ▸ Nat.one_pos),
      List.count_eq_zero.1 hbefore.counts.2⟩
  · rintro before later rfl hstarted
    obtain ⟨here, next, hbefore, hnext, -⟩ := split_of_follow? h
    have hpos := List.count_pos_iff.2 hstarted
    -- before it was started an oscillator was detached without being stopped
    rcases (NodePhase.of_next?_detached hnext).2 with rfl | rfl | rfl
    · exact absurd hbefore.counts.1 (Nat.ne_of_gt hpos)
    · exact absurd hbefore.counts.1 (Nat.ne_of_gt hpos)
    · exact List.count_pos_iff.1 (hbefore.counts.2 ▸ Nat.one_pos)

end Chiptune
