/-
  A track that the graph refuses.

  Wherever a node is refused, what has been built of the track and what was playing before
  are given up.  Every node has then been detached once, and every oscillator that was
  started has been stopped once.  From then on nothing is heard until a track is asked for.
-/
import Chiptune.Proofs.EngineNodes
import Chiptune.Proofs.Finishing

set_option autoImplicit false

namespace Chiptune

open AudioGraph

/-! ## Lives that are over -/

section

variable {history : List Role}

/-- A node that is gone has been detached once. -/
theorem count_detached_of_gone (h : NodePhase.unborn.follow? history = some .gone) :
    history.count .detached = 1 := by
  have hmem : Role.detached ∈ history := (past_of_follow? h).gone.1 rfl
  obtain ⟨before, later, rfl⟩ := List.append_of_mem hmem
  obtain rfl : later = [] := (lifeCycle_of_follow? h).detached_last before later rfl
  obtain ⟨here, next, hbefore, hnext, -⟩ := split_of_follow? h
  have hnot : Role.detached ∉ before := by
    rw [← hbefore.gone]
    rintro rfl
    cases hnext
  rw [List.count_append, List.count_eq_zero.2 hnot]
  rfl

/-- It has been stopped once if it was started, and otherwise it has not been stopped. -/
theorem count_stopped_of_gone (h : NodePhase.unborn.follow? history = some .gone) :
    history.count .stopped = if .started ∈ history then 1 else 0 := by
  obtain ⟨hsame, hle⟩ := (past_of_follow? h).counts
  split
  · rename_i hstarted
    have hpos := List.count_pos_iff.2 hstarted
    omega
  · rename_i hnot
    rw [← hsame, List.count_eq_zero.2 hnot]

end

/-! ## What a record tells of a node -/

theorem count_history (node : NodeId) (role : Role) (calls : List Call) :
    (history node calls).count role =
      calls.countP fun call => decide (call.role? node = some role) := by
  rw [history, List.count, List.countP_filterMap]
  refine List.countP_congr ?_
  intro call _
  cases call.role? node with
  | none => simp
  | some other => simp

section

variable {node : NodeId} {role : Role} {given : Signal}

theorem role?_signal_eq_some_iff :
    (Call.signal given).role? node = some role ↔ given.node = node ∧ given.role = role := by
  rw [Call.role?]
  split
  · rename_i heq
    simp [heq]
  · rename_i hne
    simp [hne]

theorem role?_eq_detached_iff :
    (Call.signal given).role? node = some .detached ↔ given = .detach node := by
  rw [role?_signal_eq_some_iff]
  cases given <;> simp [Signal.node, Signal.role]

theorem role?_eq_stopped_iff :
    (Call.signal given).role? node = some .stopped ↔ ∃ time, given = .stop node time := by
  rw [role?_signal_eq_some_iff]
  cases given <;> simp [Signal.node, Signal.role]

theorem role?_eq_started_iff :
    (Call.signal given).role? node = some .started ↔ ∃ time, given = .start node time := by
  rw [role?_signal_eq_some_iff]
  cases given <;> simp [Signal.node, Signal.role]

end

/-- Nodes are started by signals. -/
theorem started_mem_history_iff {node : NodeId} {calls : List Call} :
    .started ∈ history node calls ↔ ∃ time, .signal (.start node time) ∈ calls := by
  rw [history, List.mem_filterMap]
  constructor
  · rintro ⟨call, hmem, hrole⟩
    cases call with
    | signal given =>
      obtain ⟨time, rfl⟩ := role?_eq_started_iff.1 hrole
      exact ⟨time, hmem⟩
    | newOscillator other waveform => simp [Call.role?] at hrole
    | newEffect other effect => simp [Call.role?] at hrole
    | wire source target => simp [Call.role?] at hrole
  · rintro ⟨time, hmem⟩
    exact ⟨_, hmem, role?_eq_started_iff.2 ⟨time, rfl⟩⟩

namespace Recorder

theorem timesDetached_eq (node : NodeId) (recorder : Recorder) :
    recorder.timesDetached node = (history node recorder.calls).count .detached := by
  rw [timesDetached, count_history]
  refine List.countP_congr ?_
  intro call _
  cases call with
  | signal given =>
    rw [decide_eq_true_iff, role?_eq_detached_iff]
    cases given <;> simp
  | newOscillator other waveform => simp [Call.role?]
  | newEffect other effect => simp [Call.role?]
  | wire source target => simp [Call.role?]

theorem timesStopped_eq (node : NodeId) (recorder : Recorder) :
    recorder.timesStopped node = (history node recorder.calls).count .stopped := by
  rw [timesStopped, count_history]
  refine List.countP_congr ?_
  intro call _
  cases call with
  | signal given =>
    rw [decide_eq_true_iff, role?_eq_stopped_iff]
    cases given <;> simp
  | newOscillator other waveform => simp [Call.role?]
  | newEffect other effect => simp [Call.role?]
  | wire source target => simp [Call.role?]

end Recorder

/-! ## Silence -/

namespace Engine

variable {engine : Engine Recorder}

/-- Nothing plays, and nothing is to be reported. -/
structure Silent (engine : Engine Recorder) : Prop where
  idle : engine.session = none
  tasks : engine.scheduler.tasks = []
  early : engine.scheduler.endedEarly = []

namespace Silent

theorem of_pending (hsession : engine.session = none) (h : engine.scheduler.pending = []) :
    engine.Silent := by
  obtain ⟨htasks, hearly⟩ := List.append_eq_nil_iff.1 h
  exact ⟨hsession, List.map_eq_nil_iff.1 htasks, hearly⟩

theorem pending (h : engine.Silent) : engine.scheduler.pending = [] := by
  rw [Scheduler.pending, h.tasks, h.early]
  rfl

theorem stop (h : engine.Silent) : engine.stop = engine := stop_of_idle h.idle

theorem tick (h : engine.Silent) :
    engine.tick.1 = ⟨0, []⟩ ∧ engine.tick.2.Silent ∧ engine.tick.2.graph = engine.graph := by
  obtain ⟨hpoll, hpending⟩ := Scheduler.poll_of_pending engine.graph.now h.pending
  have hending : engine.ending = [] := congrArg Scheduler.Poll.ended hpoll
  have hgraph : engine.toStage.poll.2.graph = engine.graph :=
    congrArg (fun poll : Scheduler.Poll => signalAll poll.signals engine.graph) hpoll
  rcases tick_cases engine with ⟨-, htick⟩ | ⟨hsome, -⟩ | ⟨_, hsome, -⟩ | ⟨_, hsome, -⟩
  · rw [htick]
    exact ⟨rfl, of_pending h.idle hpending, hgraph⟩
  all_goals exact absurd hending hsome

/-- Whatever happens but a request to play, nothing is heard. -/
theorem happen (h : engine.Silent) {event : Event} (hplay : ∀ name, event ≠ .ask (.play name)) :
    (engine.happen event).2.Silent ∧
      (engine.happen event).2.graph.calls = engine.graph.calls ∧
      ∀ tick, (engine.happen event).1 = .ticked tick → tick = ⟨0, []⟩ := by
  cases event with
  | host change =>
    refine ⟨⟨h.idle, h.tasks, h.early⟩, (calls_apply change engine.graph).1, ?_⟩
    intro tick heq
    cases heq
  | ask request =>
    cases request with
    | play name => exact absurd rfl (hplay name)
    | stop =>
      rw [Engine.happen, serve, h.stop]
      refine ⟨h, rfl, ?_⟩
      intro tick heq
      cases heq
    | tick =>
      obtain ⟨hnothing, hsilent, hgraph⟩ := h.tick
      refine ⟨hsilent, congrArg Recorder.calls hgraph, ?_⟩
      intro tick heq
      cases heq
      exact hnothing
    | replaceBook book =>
      rw [Engine.happen, serve, replaceBook, h.stop]
      refine ⟨⟨h.idle, h.tasks, h.early⟩, rfl, ?_⟩
      intro tick heq
      cases heq
    | listen label =>
      refine ⟨⟨h.idle, h.tasks, h.early⟩, rfl, ?_⟩
      intro tick heq
      cases heq

/-- Nor is anything heard in a run. -/
theorem after (events : List Event) (h : engine.Silent)
    (hplay : ∀ name, .ask (.play name) ∉ events) :
    (engine.after events).graph.calls = engine.graph.calls ∧
      ∀ tick, .ticked tick ∈ engine.answers events → tick = ⟨0, []⟩ := by
  induction events generalizing engine with
  | nil =>
    refine ⟨rfl, ?_⟩
    intro tick hmem
    cases hmem
  | cons event events ih =>
    have hfirst : ∀ name, event ≠ .ask (.play name) := by
      rintro name rfl
      exact hplay name List.mem_cons_self
    obtain ⟨hnext, hcalls, hticks⟩ := h.happen hfirst
    obtain ⟨hlast, hothers⟩ := ih hnext fun name hmem => hplay name (List.mem_cons_of_mem _ hmem)
    refine ⟨hlast.trans hcalls, ?_⟩
    intro tick hmem
    rcases List.mem_cons.1 hmem with heq | hmem
    · exact hticks tick heq.symm
    · exact hothers tick hmem

end Silent

/-! ## Refusals -/

/-- What a track that the graph refuses leaves behind, besides silence. -/
structure Refused (before left : Engine Recorder) : Prop where
  silent : left.Silent
  /-- Every node that was ever created has been detached once. -/
  detached : ∀ node, node ≠ destination → left.graph.knows node = true →
    left.graph.timesDetached node = 1
  /-- Those of the voices that were playing are among these nodes. -/
  previous : ∀ task ∈ before.scheduler.tasks, ∀ node ∈ task.voice.owned,
    node ≠ destination ∧ left.graph.knows node = true
  stopped : ∀ node time, node ≠ destination → .signal (.start node time) ∈ left.graph.calls →
    left.graph.timesStopped node = 1
  unstopped : ∀ node, node ≠ destination →
    (∀ time, .signal (.start node time) ∉ left.graph.calls) → left.graph.timesStopped node = 0
  /-- Until a track is asked for, no call is made, and ticks have nothing to tell. -/
  quiet : ∀ later, (∀ name, .ask (.play name) ∉ later) →
    (left.after later).graph.calls = left.graph.calls ∧
      ∀ tick, .ticked tick ∈ left.answers later → tick = ⟨0, []⟩

/-- Of a node that is not in use, the record tells a whole life or nothing. -/
theorem follow?_of_tended {recorder : Recorder} {node : NodeId}
    (h : Recorder.Tended [] [] recorder) (hnode : node ≠ destination) :
    NodePhase.unborn.follow? (history node recorder.calls) =
      some (if recorder.knows node then .gone else .unborn) := by
  cases hknown : recorder.knows node with
  | true => exact h.gone node hnode (of_decide_eq_true hknown) List.not_mem_nil
  | false => exact h.unborn node (Nat.le_of_not_lt (of_decide_eq_false hknown))

/-- Without nodes in use every oscillator that was started has been stopped. -/
theorem timesStopped_of_tended {recorder : Recorder} {node : NodeId}
    (h : Recorder.Tended [] [] recorder) (hnode : node ≠ destination) :
    recorder.timesStopped node =
      if .started ∈ history node recorder.calls then 1 else 0 := by
  have hlife := follow?_of_tended h hnode
  rw [Recorder.timesStopped_eq]
  cases hknown : recorder.knows node with
  | true =>
    rw [if_pos hknown] at hlife
    exact count_stopped_of_gone hlife
  | false =>
    rw [hknown] at hlife
    rw [(past_of_follow? hlife).unborn.1 rfl]
    rfl

/-- **A track that the graph refuses leaves nothing behind.**  Take any run of an engine over
a recorder, and a track that is refused in the end, at whatever node.  Then nothing plays;
every node has been detached once, and every oscillator has been stopped as often as it
was started; and nothing more is heard until a track is asked for. -/
theorem refused_play (book : Songbook) (unsupported : List Setting) (events : List Event)
    (name : String) {before left : Engine Recorder} {fault : GraphFault}
    (hbefore : before = (fresh book unsupported).after events)
    (hplay : before.play name = (.error (.graph fault), left)) : before.Refused left := by
  have htidy : before.toStage.Tidy := hbefore ▸ tidy_after book unsupported events
  have haccounted : before.Accounted :=
    hbefore ▸ accounted_after events (accounted_ofBook book _)
  have hleft : left.toStage.Tidy := by
    have hkept := kept_play Stage.kept_tidy name htidy
    rwa [hplay] at hkept
  have hsettled : left.Accounted := by
    have hkept := accounted_play haccounted name
    rwa [hplay] at hkept
  have hidle : left.session = none := by
    have hrefused := session_of_refused (congrArg Prod.fst hplay)
    rwa [hplay] at hrefused
  have hsilent : left.Silent := .of_pending hidle (hsettled.idle hidle)
  have htended : Recorder.Tended [] [] left.graph := by
    have hall := hleft.tended
    rwa [Scheduler.voices, hsilent.tasks] at hall
  refine
    { silent := hsilent, detached := ?_, previous := ?_, stopped := ?_, unstopped := ?_
      quiet := ?_ }
  · intro node hnode hknown
    have hlife := follow?_of_tended htended hnode
    rw [if_pos hknown] at hlife
    rw [Recorder.timesDetached_eq]
    exact count_detached_of_gone hlife
  · intro task htask node hmem
    have hvoice : task.voice ∈ before.scheduler.voices := List.mem_map_of_mem htask
    have hused : node ∈ Recorder.inUse before.scheduler.voices [] :=
      List.mem_flatMap.2 ⟨_, hvoice, htidy.tended.mem_nodes_of_owned hvoice hmem⟩
    obtain ⟨hnode, hlt⟩ := htidy.tended.known node hused
    have hgrown := kept_play (Recorder.kept_nextNode before.graph.nextNode).stage name
      (Nat.le_refl _)
    rw [hplay] at hgrown
    exact ⟨hnode, decide_eq_true (Nat.lt_of_lt_of_le hlt hgrown)⟩
  · intro node time hnode hstarted
    rw [timesStopped_of_tended htended hnode, if_pos (started_mem_history_iff.2 ⟨time, hstarted⟩)]
  · intro node hnode hnot
    rw [timesStopped_of_tended htended hnode, if_neg]
    intro hmem
    obtain ⟨time, hstarted⟩ := started_mem_history_iff.1 hmem
    exact hnot time hstarted
  · intro later hlater
    exact hsilent.after later hlater

/-- While a track of two parts plays, it is asked for again, and only one oscillator more is
to be had. -/
def refusedRun : Engine Recorder :=
  (fresh briefBook []).after [.ask (.play "blip"), .host (.setAllowance (some 1))]

/-- The second part is refused: of the three oscillators the first part of each request had
ended at once, and all have been detached. -/
theorem refused_refusedRun :
    (refusedRun.play "blip").1 = .error (.graph (.nodeRefused .oscillator)) ∧
      refusedRun.scheduler.tasks.length = 1 ∧
      (refusedRun.play "blip").2.graph.nextNode = 4 ∧
      refusedRun.Refused (refusedRun.play "blip").2 := by
  have herror : (refusedRun.play "blip").1 = .error (.graph (.nodeRefused .oscillator)) := by
    decide +kernel
  refine ⟨herror, by decide +kernel, by decide +kernel, ?_⟩
  exact refused_play briefBook [] _ "blip" rfl (Prod.ext herror rfl)

end Engine

end Chiptune
