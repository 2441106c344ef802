/-
  Which voice plays which part.

  A chain is built with the waveform of an instrument, and each of its nodes is wired to
  the next one.  Nothing that is done later takes that away.  So the voices of a session
  go on to be those of its parts, whatever becomes of the others.
-/
import Chiptune.Proofs.EngineNodes
import Chiptune.Proofs.Passages
import Chiptune.Proofs.TableEntries
import Mathlib.Data.List.Chain

set_option autoImplicit false

namespace Chiptune

open AudioGraph

/-! ## What calls tell of nodes -/

/-- What calls tell of a node, these calls and later ones tell of it. -/
structure Extends (before after : List Call) : Prop where
  target : ∀ node next, targetOf node before = some next → targetOf node after = some next
  waveform : ∀ node waveform, waveformOf node before = some waveform →
    waveformOf node after = some waveform

namespace Extends

variable {first second third calls : List Call} {call : Call}

theorem refl (calls : List Call) : Extends calls calls :=
  ⟨fun _ _ h => h, fun _ _ h => h⟩

theorem trans (h : Extends first second) (hnext : Extends second third) : Extends first third where
  target := fun node next heq => hnext.target node next (h.target node next heq)
  waveform := fun node waveform heq => hnext.waveform node waveform (h.waveform node waveform heq)

/-- A call may tell of nodes of which nothing is told. -/
theorem concat (htarget : ∀ node, call.target? node = none ∨ targetOf node calls = none)
    (hwaveform : ∀ node, call.waveform? node = none ∨ waveformOf node calls = none) :
    Extends calls (calls ++ [call]) := by
  constructor
  · intro node next heq
    rw [targetOf_concat, (htarget node).resolve_right (by simp [heq])]
    exact heq
  · intro node waveform heq
    rw [waveformOf_concat, (hwaveform node).resolve_right (by simp [heq])]
    exact heq

/-- Signals tell nothing of this kind. -/
theorem signals (calls : List Call) (signals : List Signal) :
    Extends calls (calls ++ signals.map .signal) := by
  induction signals using List.reverseRecOn with
  | nil =>
    rw [List.map_nil, List.append_nil]
    exact refl calls
  | append_singleton signals given ih =>
    rw [List.map_append, ← List.append_assoc]
    exact ih.trans (concat (fun _ => Or.inl rfl) fun _ => Or.inl rfl)

end Extends

/-- Each node leads to the next one. -/
def Linked (calls : List Call) (nodes : List NodeId) : Prop :=
  nodes.IsChain fun node next => targetOf node calls = some next

theorem Linked.extend {before after : List Call} {nodes : List NodeId} (h : Linked before nodes)
    (hextends : Extends before after) : Linked after nodes :=
  h.imp hextends.target

/-- A voice plays a part: its nodes lead to the destination, and it has the waveform of the
instrument. -/
structure Plays (calls : List Call) (voice : Voice) (part : PlannedPart) : Prop where
  linked : Linked calls (voice.chain.nodes ++ [destination])
  waveform : waveformOf voice.oscillator calls = some part.instrument.waveform

theorem Plays.extend {before after : List Call} {voice : Voice} {part : PlannedPart}
    (h : Plays before voice part) (hextends : Extends before after) : Plays after voice part where
  linked := h.linked.extend hextends
  waveform := hextends.waveform _ _ h.waveform

/-! ## Chains that are built -/

namespace Recorder

/-- Nothing is told of nodes that are still to be created. -/
def Unspoken (recorder : Recorder) : Prop :=
  ∀ node, recorder.nextNode ≤ node →
    targetOf node recorder.calls = none ∧ waveformOf node recorder.calls = none

theorem Tended.unspoken {voices : List Voice} {loose : List NodeId} {recorder : Recorder}
    (h : Tended voices loose recorder) : recorder.Unspoken := by
  intro node hle
  have hnone : ∀ call ∈ recorder.calls, call.role? node = none :=
    List.filterMap_eq_nil_iff.1 ((past_of_follow? (h.unborn node hle)).unborn.1 rfl)
  have htarget : recorder.calls.filterMap (Call.target? node) = [] :=
    List.filterMap_eq_nil_iff.2 fun call hmem => target?_of_role? (hnone call hmem)
  have hwaveform : recorder.calls.filterMap (Call.waveform? node) = [] :=
    List.filterMap_eq_nil_iff.2 fun call hmem => waveform?_of_role? (hnone call hmem)
  constructor
  · rw [targetOf, lastOf, htarget]
    rfl
  · rw [waveformOf, lastOf, hwaveform]
    rfl

/-- A call that tells of known nodes only leaves it at that. -/
theorem Unspoken.concat {recorder next : Recorder} {call : Call} (h : recorder.Unspoken)
    (hle : recorder.nextNode ≤ next.nextNode) (hcalls : next.calls = recorder.calls ++ [call])
    (hknown : ∀ node, next.nextNode ≤ node →
      call.target? node = none ∧ call.waveform? node = none) : next.Unspoken := by
  intro node hnode
  obtain ⟨htarget, hwaveform⟩ := h node (Nat.le_trans hle hnode)
  obtain ⟨hnext, hnone⟩ := hknown node hnode
  rw [hcalls, targetOf_concat, waveformOf_concat, hnext, hnone, htarget, hwaveform]
  exact ⟨rfl, rfl⟩

end Recorder

section

variable {calls : List Call} {source target : NodeId} {front : List NodeId}

theorem extends_wire (hfree : targetOf source calls = none) :
    Extends calls (calls ++ [.wire source target]) := by
  refine .concat ?_ fun _ => Or.inl rfl
  intro node
  by_cases heq : source = node
  · exact Or.inr (heq ▸ hfree)
  · exact Or.inl (if_neg heq)

/-- The last node of a chain is wired to one more. -/
theorem linked_wire (h : Linked calls (front ++ [source])) (hfree : targetOf source calls = none) :
    Linked (calls ++ [.wire source target]) (front ++ [source] ++ [target]) := by
  refine List.isChain_append.2 ⟨h.extend (extends_wire hfree), List.isChain_singleton _, ?_⟩
  intro last hlast next hnext
  rw [List.getLast?_concat] at hlast
  obtain rfl := Option.some.inj hlast
  obtain rfl := Option.some.inj hnext
  rw [targetOf_concat, Call.target?, if_pos rfl]
  rfl

end

/-- A recorder behind which an effect has been created and wired. -/
def Recorder.withEffect (tail : NodeId) (effect : Effect) (recorder : Recorder) : Recorder :=
  { recorder with
    calls := recorder.calls ++ [.newEffect recorder.nextNode effect] ++
      [.wire tail recorder.nextNode]
    nextNode := recorder.nextNode + 1 }

/-- An effect that is created and wired continues a chain. -/
theorem linked_withEffect {front : List NodeId} {tail : NodeId} {recorder : Recorder}
    (effect : Effect) (hunspoken : recorder.Unspoken) (hknown : tail < recorder.nextNode)
    (hfree : targetOf tail recorder.calls = none)
    (hlinked : Linked recorder.calls (front ++ [tail])) :
    Extends recorder.calls (recorder.withEffect tail effect).calls ∧
      (recorder.withEffect tail effect).Unspoken ∧
      targetOf recorder.nextNode (recorder.withEffect tail effect).calls = none ∧
      Linked (recorder.withEffect tail effect).calls (front ++ [tail] ++ [recorder.nextNode]) := by
  have hcreated : Extends recorder.calls
      (recorder.calls ++ [.newEffect recorder.nextNode effect]) :=
    .concat (fun _ => Or.inl rfl) fun _ => Or.inl rfl
  have hsame : ∀ node, targetOf node (recorder.calls ++ [.newEffect recorder.nextNode effect]) =
      targetOf node recorder.calls := by
    intro node
    rw [targetOf_concat]
    rfl
  have htail := (hsame tail).trans hfree
  refine ⟨hcreated.trans (extends_wire htail), ?_, ?_,
    linked_wire (hlinked.extend hcreated) htail⟩
  · have hmade : Recorder.Unspoken { recorder with
        calls := recorder.calls ++ [.newEffect recorder.nextNode effect]
        nextNode := recorder.nextNode + 1 } :=
      hunspoken.concat (Nat.le_succ _) rfl fun _ _ => ⟨rfl, rfl⟩
    refine hmade.concat (Nat.le_refl _) rfl ?_
    intro node hle
    have hlt : tail < node := Nat.lt_of_lt_of_le hknown (Nat.le_of_succ_le hle)
    exact ⟨if_neg (Nat.ne_of_lt hlt), rfl⟩
  · have hnew := (hsame recorder.nextNode).trans (hunspoken _ (Nat.le_refl _)).1
    rw [Recorder.withEffect, targetOf_concat, Call.target?, if_neg (Nat.ne_of_lt hknown)]
    exact hnew

/-- A chain that is built in the end is wired through to the destination, and nothing is
taken back meanwhile. -/
theorem linked_append (effects : List Effect) {front : List NodeId} {tail : NodeId}
    {recorder : Recorder} (hunspoken : recorder.Unspoken) (hknown : tail < recorder.nextNode)
    (hfree : targetOf tail recorder.calls = none)
    (hlinked : Linked recorder.calls (front ++ [tail]))
    {terminal : NodeId} {nodes : List NodeId} {grown : Recorder}
    (h : NodeChain.append destination effects tail (front ++ [tail]) recorder =
      ((.ok terminal, nodes), grown)) :
    Extends recorder.calls grown.calls ∧ Linked grown.calls (nodes ++ [destination]) := by
  induction effects generalizing front tail recorder with
  | nil =>
    unfold NodeChain.append at h
    rcases Recorder.wire_cases tail destination recorder with ⟨fault, heq⟩ | heq
    · rw [heq] at h
      cases h
    · rw [heq] at h
      cases h
      exact ⟨extends_wire hfree, linked_wire hlinked hfree⟩
  | cons effect effects ih =>
    unfold NodeChain.append at h
    split at h
    · rcases Recorder.newEffect_cases effect recorder with heq | heq
      · rw [heq] at h
        cases h
      · obtain ⟨hextends, hspoken, hnext, hlonger⟩ :=
          linked_withEffect effect hunspoken hknown hfree hlinked
        rw [heq] at h
        simp only at h
        rcases Recorder.wire_cases tail recorder.nextNode { recorder with
          calls := recorder.calls ++ [.newEffect recorder.nextNode effect]
          nextNode := recorder.nextNode + 1 } with ⟨fault, heq⟩ | heq
        · rw [heq] at h
          cases h
        · rw [heq] at h
          obtain ⟨hmore, hchain⟩ := ih hspoken (Nat.lt_succ_self _) hnext hlonger h
          exact ⟨hextends.trans hmore, hchain⟩
    · exact ih hunspoken hknown hfree hlinked h

/-- An oscillator that is created has its waveform and leads nowhere yet. -/
theorem extends_newOscillator {recorder made : Recorder} {waveform : Waveform}
    (hunspoken : recorder.Unspoken)
    (hcalls : made.calls = recorder.calls ++ [.newOscillator recorder.nextNode waveform])
    (hnumber : made.nextNode = recorder.nextNode + 1) :
    Extends recorder.calls made.calls ∧ made.Unspoken ∧
      targetOf recorder.nextNode made.calls = none ∧
      waveformOf recorder.nextNode made.calls = some waveform := by
  obtain ⟨htarget, hwaveform⟩ := hunspoken _ (Nat.le_refl _)
  refine ⟨?_, ?_, ?_, ?_⟩
  · rw [hcalls]
    refine .concat (fun _ => Or.inl rfl) ?_
    intro node
    by_cases heq : recorder.nextNode = node
    · exact Or.inr (heq ▸ hwaveform)
    · exact Or.inl (if_neg heq)
  · refine hunspoken.concat (by rw [hnumber]; exact Nat.le_succ _) hcalls ?_
    intro node hle
    rw [hnumber] at hle
    exact ⟨rfl, if_neg (Nat.ne_of_lt hle)⟩
  · rw [hcalls, targetOf_concat]
    exact htarget
  · rw [hcalls, waveformOf_concat, Call.waveform?, if_pos rfl]
    rfl

/-- The chain of an instrument has its waveform and leads to the destination. -/
theorem plays_build {instrument : Instrument} {recorder built : Recorder} {chain : NodeChain}
    (hunspoken : recorder.Unspoken)
    (h : NodeChain.build instrument destination recorder = (.ok chain, built)) :
    Extends recorder.calls built.calls ∧ Linked built.calls (chain.nodes ++ [destination]) ∧
      waveformOf chain.entry built.calls = some instrument.waveform := by
  unfold NodeChain.build at h
  obtain ⟨refuses, allowance, heq | heq⟩ :=
    Recorder.newOscillator_cases instrument.waveform recorder
  · rw [heq] at h
    cases h
  · rw [heq] at h
    simp only at h
    generalize hmade : { recorder with
      refusesOscillators := refuses
      allowance := allowance
      calls := recorder.calls ++ [Call.newOscillator recorder.nextNode instrument.waveform]
      nextNode := recorder.nextNode + 1 } = made at h
    have hnumber : made.nextNode = recorder.nextNode + 1 := by rw [← hmade]
    obtain ⟨hcreated, hspoken, hfree, hwaveform⟩ :=
      extends_newOscillator hunspoken (by rw [← hmade]) hnumber
    have hknown : recorder.nextNode < made.nextNode := by
      rw [hnumber]
      exact Nat.lt_succ_self _
    have hsingle : Linked made.calls ([] ++ [recorder.nextNode]) := List.isChain_singleton _
    split at h
    · rename_i terminal nodes grown hgrow
      cases h
      obtain ⟨hextends, hlinked⟩ :=
        linked_append instrument.effects hspoken hknown hfree hsingle hgrow
      exact ⟨hcreated.trans hextends, hlinked, hextends.waveform _ _ hwaveform⟩
    · cases h

/-! ## Voices and their parts -/

namespace Stage

variable {stage next : Stage Recorder} {looping : Bool} {cast : List (VoiceId × PlannedPart)}

/-- Every voice that plays plays its part. -/
def Cast (cast : List (VoiceId × PlannedPart)) (stage : Stage Recorder) : Prop :=
  ∀ task ∈ stage.scheduler.tasks, ∃ part, (task.handle, part) ∈ cast ∧
    Plays stage.graph.calls task.voice part

theorem cast_of_tasks (h : stage.scheduler.tasks = []) : stage.Cast cast := by
  intro task hmem
  rw [h] at hmem
  cases hmem

theorem cast_poll (h : stage.Cast cast) : stage.poll.2.Cast cast := by
  intro task hmem
  obtain ⟨before, hbefore, heq⟩ := Scheduler.mem_fireAll_tasks hmem
  obtain ⟨part, hpart, hplays⟩ := h before hbefore
  refine ⟨part, by rw [heq]; exact hpart, ?_⟩
  rw [heq]
  unfold poll
  rw [Recorder.calls_signalAll]
  exact hplays.extend (.signals _ _)

/-- A part that starts takes the next number.  Its voice plays it, unless it has no tones. -/
theorem startPart_ok {part : PlannedPart} {handle : VoiceId} (htidy : stage.Tidy)
    (hstarted : stage.startPart looping part = (.ok handle, next)) :
    handle = stage.scheduler.nextHandle ∧ next.scheduler.nextHandle = handle + 1 ∧
      Extends stage.graph.calls next.graph.calls ∧
      (next.scheduler.tasks = stage.scheduler.tasks ∨
        ∃ task, next.scheduler.tasks = stage.scheduler.tasks ++ [task] ∧ task.handle = handle ∧
          task.looping = looping ∧ task.tones = part.tones ∧
          Plays next.graph.calls task.voice part) := by
  cases hbuilt : NodeChain.build part.instrument destination stage.graph with
  | mk outcome built =>
  cases outcome with
  | error fault =>
    unfold startPart at hstarted
    rw [hbuilt] at hstarted
    cases hstarted
  | ok chain =>
    obtain ⟨hextends, hlinked, hwaveform⟩ := plays_build htidy.tended.unspoken hbuilt
    rw [startPart_of_build hbuilt] at hstarted
    have hsignals : ∀ signals, Extends built.calls (signalAll signals built).calls := by
      intro signals
      rw [Recorder.calls_signalAll]
      exact .signals _ _
    rcases Scheduler.start_cases (now built) ⟨chain⟩ part.tones looping false stage.scheduler with
      ⟨-, -, hstart⟩ | ⟨-, -, hstart⟩ | ⟨-, -, hstart⟩
    · rw [hstart] at hstarted
      cases hstarted
    · rw [hstart] at hstarted
      cases hstarted
      exact ⟨rfl, rfl, hextends.trans (hsignals _), .inl rfl⟩
    · rw [hstart] at hstarted
      cases hstarted
      exact ⟨rfl, rfl, hextends.trans (hsignals _),
        .inr ⟨_, rfl, rfl, rfl, rfl, Plays.extend ⟨hlinked, hwaveform⟩ (hsignals _)⟩⟩

/-- The voice that starts for a part plays it. -/
theorem cast_startPart {part : PlannedPart} {handle : VoiceId} (htidy : stage.Tidy)
    (h : stage.Cast cast) (hstarted : stage.startPart looping part = (.ok handle, next)) :
    next.Cast (cast ++ [(handle, part)]) := by
  obtain ⟨-, -, hextends, htasks⟩ := startPart_ok htidy hstarted
  have hold : ∀ task ∈ stage.scheduler.tasks, ∃ other, (task.handle, other) ∈
      cast ++ [(handle, part)] ∧ Plays next.graph.calls task.voice other := by
    intro task hmem
    obtain ⟨other, hother, hplays⟩ := h task hmem
    exact ⟨other, List.mem_append_left _ hother, hplays.extend hextends⟩
  rcases htasks with htasks | ⟨task, htasks, rfl, -, -, hplays⟩
  · intro task hmem
    rw [htasks] at hmem
    exact hold task hmem
  · intro other hmem
    rw [htasks] at hmem
    rcases List.mem_append.1 hmem with hmem | hmem
    · exact hold other hmem
    · obtain rfl := List.mem_singleton.1 hmem
      exact ⟨part, List.mem_append_right _ (List.mem_singleton_self _), hplays⟩

/-- When all parts start, the voices play them in order. -/
theorem cast_startParts {done parts : List PlannedPart} {handles started : List VoiceId}
    (htidy : stage.Tidy) (hlength : handles.length = done.length)
    (h : stage.Cast (handles.zip done))
    (hstarted : stage.startParts looping parts handles = ((.ok (), started), next)) :
    next.Cast (started.zip (done ++ parts)) := by
  induction parts generalizing done handles stage with
  | nil =>
    cases hstarted
    rwa [List.append_nil]
  | cons part parts ih =>
    have htidied := tidy_startPart looping part htidy
    unfold startParts at hstarted
    split at hstarted
    · cases hstarted
    · rename_i handle left hpart
      rw [hpart] at htidied
      have hmore := cast_startPart htidy h hpart
      have hzip : handles.zip done ++ [(handle, part)] =
          (handles ++ [handle]).zip (done ++ [part]) := by
        rw [List.zip_append hlength]
        rfl
      rw [hzip] at hmore
      have hlonger : (handles ++ [handle]).length = (done ++ [part]).length := by
        rw [List.length_append, List.length_append, hlength]
        rfl
      have hrest := ih htidied hlonger hmore hstarted
      rwa [List.append_assoc] at hrest

end Stage

/-- Who plays what in a session. -/
def Opening.cast (opening : Opening) : List (VoiceId × PlannedPart) :=
  opening.voices.zip opening.parts

/-- Who plays what in the last session that began. -/
def castOf (openings : List Opening) : List (VoiceId × PlannedPart) :=
  (openings.getLast?.map Opening.cast).getD []

theorem castOf_concat (openings : List Opening) (opening : Opening) :
    castOf (openings ++ [opening]) = opening.cast := by
  rw [castOf, List.getLast?_concat]
  rfl

namespace Engine

variable {engine : Engine Recorder} {openings : List Opening}

theorem cast_stop {cast : List (VoiceId × PlannedPart)} (h : engine.toStage.Cast cast) :
    engine.stop.toStage.Cast cast := by
  unfold stop
  split
  · exact h
  · exact Stage.cast_of_tasks rfl

/-- A track that begins has its own cast, and one that is refused leaves no voice. -/
theorem cast_play (name : String) (haccounted : engine.Accounted) (htidy : engine.toStage.Tidy)
    (h : engine.toStage.Cast (castOf openings)) :
    (engine.play name).2.toStage.Cast
      (castOf (openings ++ engine.opened (.ask (.play name)))) := by
  rcases play_cases engine name with ⟨error, -, hplay⟩ |
    ⟨track, parts, handles, stage, hplan, hparts, hplay⟩ |
    ⟨track, parts, error, handles, stage, -, -, hplay⟩
  · rw [opened_of_refused (by rw [hplay]), List.append_nil, hplay]
    exact h
  · have hsilent : engine.stop.toStage.Cast (List.zip [] []) :=
      Stage.cast_of_tasks haccounted.tasks_stop
    have hstarted := Stage.cast_startParts (kept_stop Stage.kept_tidy htidy) rfl hsilent hparts
    rw [opened_of_played hplan hplay, castOf_concat, hplay]
    exact hstarted
  · rw [hplay]
    exact Stage.cast_of_tasks rfl

/-- As long as no other session begins, voices play the parts of the last one. -/
theorem cast_take (event : Event) (haccounted : engine.Accounted) (htidy : engine.toStage.Tidy)
    (h : engine.toStage.Cast (castOf openings)) :
    (engine.take event.turn).2.toStage.Cast (castOf (openings ++ engine.opened event.turn)) := by
  cases event with
  | host change =>
    have hnone : engine.opened (Event.host change).turn = [] := rfl
    have hcalls := (calls_apply change engine.graph).1
    rw [hnone, List.append_nil]
    intro task hmem
    obtain ⟨part, hpart, hplays⟩ := h task hmem
    exact ⟨part, hpart, hcalls ▸ hplays⟩
  | ask request =>
    cases request with
    | play name => exact cast_play name haccounted htidy h
    | stop =>
      have hnone : engine.opened (Event.ask .stop).turn = [] := rfl
      rw [hnone, List.append_nil]
      exact cast_stop h
    | tick =>
      have hnone : engine.opened (Event.ask .tick).turn = [] := rfl
      rw [hnone, List.append_nil, Event.turn, take, serve, toStage_tick]
      exact Stage.cast_poll h
    | replaceBook book =>
      have hnone : engine.opened (Event.ask (.replaceBook book)).turn = [] := rfl
      rw [hnone, List.append_nil]
      exact cast_stop h
    | listen label =>
      have hnone : engine.opened (Event.ask (.listen label)).turn = [] := rfl
      rw [hnone, List.append_nil]
      exact h

/-- So it is in a whole run. -/
theorem cast_after (book : Songbook) (unsupported : List Setting) (events : List Event) :
    ((fresh book unsupported).after events).toStage.Cast
      (castOf ((fresh book unsupported).gather opened (events.map Event.turn))) := by
  induction events using List.reverseRecOn with
  | nil => exact Stage.cast_of_tasks rfl
  | append_singleton events event ih =>
    have haccounted : ((fresh book unsupported).after events).Accounted :=
      accounted_after events (accounted_ofBook book _)
    have hstep := cast_take event haccounted (tidy_after book unsupported events) ih
    rw [after_eq_afterTurns] at hstep ⊢
    rw [List.map_append, gather_append, afterTurns_append]
    rwa [← List.append_nil (opened event.turn _)] at hstep

end Engine

end Chiptune
