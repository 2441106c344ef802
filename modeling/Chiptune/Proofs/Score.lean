/-
  The score of a track.

  A score says which calls a track makes: those that build the nodes of its parts, those
  that start them, and one for each note.  It is worked out from the songbook, from the time,
  from the number of the next node and from what the host supports.  An engine that
  plays a track makes the calls of its score, behind those that end the old session, and
  no others.
-/
import Chiptune.Proofs.Balance
import Chiptune.Proofs.EngineNodes
import Chiptune.Proofs.PlayErrors
import Mathlib.Data.List.Range

set_option autoImplicit false

namespace Chiptune

open AudioGraph

/-! ## Scores -/

/-- A setting is heard when it is given, is not zero, and is supported. -/
def Setting.heard (supports : Setting → Bool) (setting : Setting) :
    Option Float32 → List Effect
  | none => []
  | some value => if value != 0 && supports setting then [⟨setting, value⟩] else []

/-- The effects of an instrument that are heard, the level before the place. -/
def Instrument.heard (supports : Setting → Bool) (instrument : Instrument) : List Effect :=
  Setting.gain.heard supports instrument.gain ++ Setting.pan.heard supports instrument.pan

/-- The calls that create effects behind a node and wire the last one to the destination. -/
def wiring : List Effect → (tail next : NodeId) → List Call
  | [], tail, _ => [.wire tail destination]
  | effect :: effects, tail, next =>
    .newEffect next effect :: .wire tail next :: wiring effects next (next + 1)

/-- The time that tones take, added up from the left. -/
def elapsed (tones : List Tone) : Seconds :=
  tones.foldl (fun sum tone => sum + tone.seconds) 0

/-- Each tone is one step of the frequency, when those before it are over. -/
def tuning (oscillator : NodeId) (now : Seconds) (tones : List Tone) : List Signal :=
  tones.mapIdx fun index tone => .tune oscillator tone.hz (now + elapsed (tones.take index))

/-- The signals that end a voice: it is stopped, and its nodes are detached in order. -/
def ending (oscillator : NodeId) (nodes : List NodeId) (now : Seconds) : List Signal :=
  .stop oscillator now :: nodes.map .detach

/-- The calls of a part whose oscillator has a given number. -/
def partScore (supports : Setting → Bool) (now : Seconds) (node : NodeId)
    (instrument : Instrument) (tones : List Tone) : List Call :=
  let effects := instrument.heard supports
  let silence := if tones = [] then ending node (List.range' node (effects.length + 1)) now else []
  .newOscillator node instrument.waveform :: wiring effects node (node + 1) ++
    (.start node now :: tuning node now tones ++ silence).map .signal

/-- The calls of several parts, whose nodes are numbered on. -/
def partsScore (supports : Setting → Bool) (now : Seconds) :
    NodeId → List (Instrument × List Tone) → List Call
  | _, [] => []
  | node, (instrument, tones) :: parts =>
    partScore supports now node instrument tones ++
      partsScore supports now (node + (instrument.heard supports).length + 1) parts

/-- A note at a tempo. -/
def Note.tone (bpm : Float) (note : Note) : Tone :=
  ⟨note.hz, .ofFloat (Beats.toFloat (beatsOf note.code) * (60 / bpm))⟩

namespace Songbook

/-- What is written in a part: its instrument, and a tone for each of its notes. -/
def written? (book : Songbook) (bpm : Float) (text : String) :
    Option (Instrument × List Tone) :=
  match Notation.Part.parse text with
  | .error _ => none
  | .ok part => (book.instruments.get? part.instrumentId).map (·, part.notes.map (·.tone bpm))

/-- The calls of a track, unless it is not in the songbook or one of its parts cannot be
read. -/
def score? (book : Songbook) (name : String) (now : Seconds) (supports : Setting → Bool)
    (node : NodeId) : Option (List Call) :=
  (book.tracks.get? name).bind fun track =>
    (track.parts.mapM (book.written? track.bpm)).map (partsScore supports now node)

end Songbook

/-- The signals that end the voice of a handle, if it plays. -/
def Scheduler.endingOf (now : Seconds) (scheduler : Scheduler) (handle : VoiceId) :
    List Signal :=
  match task? scheduler.tasks handle with
  | none => []
  | some task => ending task.voice.oscillator task.voice.chain.nodes now

/-- The calls that end a session: those of its voices, in the order of their handles. -/
def Engine.releases (engine : Engine Recorder) : List Call :=
  (engine.held.flatMap (engine.scheduler.endingOf engine.graph.now)).map .signal

/-! ## What is planned is what is written -/

/-- The effects that are heard are those of the instrument that are supported. -/
theorem Instrument.heard_eq (supports : Setting → Bool) (instrument : Instrument) :
    instrument.heard supports =
      instrument.effects.filter fun effect => supports effect.setting := by
  have hsetting : ∀ (setting : Setting) (value : Option Float32), setting.heard supports value =
      ((value.map (Effect.mk setting)).toList.filter fun effect => effect.value != 0).filter
        fun effect => supports effect.setting := by
    intro setting value
    cases value with
    | none => rfl
    | some value =>
      cases hzero : value != 0 <;> cases hsupports : supports setting <;>
        simp [Setting.heard, hzero, hsupports]
  rw [heard, hsetting, hsetting, effects, settings, List.filter_append, List.filter_append]

theorem programme_eq_tuning (oscillator : NodeId) (tones : List Tone) (now : Seconds) :
    programme oscillator tones now = tuning oscillator now tones := by
  unfold programme tuning elapsed
  -- the tones behind the first one begin at a later cursor
  generalize (0 : Seconds) = cursor
  induction tones generalizing cursor with
  | nil => rfl
  | cons tone tones ih =>
    rw [onsets, List.zipWith_cons_cons, ih, List.mapIdx_cons]
    rfl

namespace Songbook

variable {book : Songbook} {bpm : Float}

/-- A part is planned from what is written in it. -/
theorem written?_of_planPart {text : String} {part : PlannedPart}
    (h : book.planPart text bpm = .ok part) :
    book.written? bpm text = some (part.instrument, part.tones) := by
  unfold planPart at h
  obtain ⟨parsed, hparsed, h⟩ := bind_ok h
  obtain ⟨instrument, hinstrument, h⟩ := bind_ok h
  obtain ⟨tones, htones, h⟩ := bind_ok h
  cases h
  unfold Songbook.instrument at hinstrument
  split at hinstrument
  · rename_i found hfound
    cases hinstrument
    unfold tonesOf at htones
    obtain ⟨beat, hbeat, htones⟩ := bind_ok htones
    cases htones
    unfold beatLength at hbeat
    split at hbeat
    · cases hbeat
      simp only [written?, hparsed, hfound]
      rfl
    · cases hbeat
  · cases hinstrument

/-- So are several parts. -/
theorem mapM_written?_of_planPart {texts : List String} {parts : List PlannedPart}
    (h : texts.mapM (fun text => book.planPart text bpm) = .ok parts) :
    texts.mapM (book.written? bpm) =
      some (parts.map fun part => (part.instrument, part.tones)) := by
  induction texts generalizing parts with
  | nil =>
    cases h
    rfl
  | cons text texts ih =>
    rw [List.mapM_cons] at h
    obtain ⟨part, hpart, h⟩ := bind_ok h
    obtain ⟨others, hothers, h⟩ := bind_ok h
    cases h
    rw [List.mapM_cons, written?_of_planPart hpart, ih hothers]
    rfl

/-- A track that is planned has the score of its parts. -/
theorem score?_of_planTrack {name : String} {track : Track} {parts : List PlannedPart}
    (h : book.planTrack name = .ok (track, parts)) (now : Seconds) (supports : Setting → Bool)
    (node : NodeId) :
    book.score? name now supports node =
      some (partsScore supports now node
        (parts.map fun part => (part.instrument, part.tones))) := by
  unfold planTrack at h
  obtain ⟨found, htrack, h⟩ := bind_ok h
  obtain ⟨planned, hparts, h⟩ := bind_ok h
  cases h
  unfold Songbook.track at htrack
  split at htrack
  · rename_i entry hentry
    cases htrack
    rw [score?, hentry, Option.bind_some, mapM_written?_of_planPart hparts]
    rfl
  · cases htrack

end Songbook

/-! ## Building and starting -/

namespace Recorder

variable {recorder built : Recorder}

/-- An oscillator that is created gets the next number. -/
theorem newOscillator_ok {waveform : Waveform} {node : NodeId}
    (h : AudioGraph.newOscillator waveform recorder = (.ok node, built)) :
    node = recorder.nextNode ∧ built.calls = recorder.calls ++ [.newOscillator node waveform] ∧
      built.nextNode = recorder.nextNode + 1 ∧ supports built = supports recorder := by
  obtain ⟨_, _, heq | heq⟩ := newOscillator_cases waveform recorder
  · rw [heq] at h
    cases h
  · rw [heq] at h
    cases h
    exact ⟨rfl, rfl, rfl, rfl⟩

/-- So does an effect. -/
theorem newEffect_ok {effect : Effect} {node : NodeId}
    (h : AudioGraph.newEffect effect recorder = (.ok node, built)) :
    node = recorder.nextNode ∧ built.calls = recorder.calls ++ [.newEffect node effect] ∧
      built.nextNode = recorder.nextNode + 1 ∧ supports built = supports recorder := by
  rcases newEffect_cases effect recorder with heq | heq
  · rw [heq] at h
    cases h
  · rw [heq] at h
    cases h
    exact ⟨rfl, rfl, rfl, rfl⟩

theorem wire_ok {source target : NodeId}
    (h : AudioGraph.wire source target recorder = (.ok (), built)) :
    built.calls = recorder.calls ++ [.wire source target] ∧
      built.nextNode = recorder.nextNode ∧ supports built = supports recorder := by
  rcases wire_cases source target recorder with ⟨fault, heq⟩ | heq
  · rw [heq] at h
    cases h
  · rw [heq] at h
    cases h
    exact ⟨rfl, rfl, rfl⟩

/-- A chain that is completed has got the effects that are supported. -/
theorem calls_append {effects : List Effect} {tail terminal : NodeId} {nodes all : List NodeId}
    {heard : List Effect}
    (hheard : (effects.filter fun effect => supports recorder effect.setting) = heard)
    (h : NodeChain.append destination effects tail nodes recorder = ((.ok terminal, all), built)) :
    all = nodes ++ List.range' recorder.nextNode heard.length ∧
      built.calls = recorder.calls ++ wiring heard tail recorder.nextNode ∧
      built.nextNode = recorder.nextNode + heard.length := by
  induction effects generalizing tail nodes recorder heard with
  | nil =>
    subst hheard
    unfold NodeChain.append at h
    split at h
    · rename_i wired hwire
      cases h
      obtain ⟨hcalls, hnext, -⟩ := wire_ok hwire
      exact ⟨(List.append_nil _).symm, hcalls, hnext⟩
    · cases h
  | cons effect effects ih =>
    subst hheard
    unfold NodeChain.append at h
    split at h
    · rename_i hsupports
      simp only [List.filter_cons, hsupports, if_true]
      split at h
      · cases h
      · rename_i node created hcreate
        split at h
        · cases h
        · rename_i wired hwire
          obtain ⟨rfl, hcreated, hnext, hsame⟩ := newEffect_ok hcreate
          obtain ⟨hwired, hnumber, hkept⟩ := wire_ok hwire
          obtain ⟨hall, hcalls, hlast⟩ := ih (by rw [hkept, hsame]) h
          rw [hnumber, hnext] at hall hcalls hlast
          refine ⟨?_, ?_, ?_⟩
          · rw [hall, List.append_assoc, List.length_cons, List.range'_succ]
            rfl
          · rw [hcalls, hwired, hcreated, List.append_assoc, List.append_assoc]
            rfl
          · rw [hlast, List.length_cons, Nat.add_assoc, Nat.add_comm 1]
    · rename_i hsupports
      simp only [List.filter_cons, hsupports]
      exact ih rfl h

/-- A chain that is built has an oscillator and the effects that are heard. -/
theorem calls_build {instrument : Instrument} {chain : NodeChain} {heard : List Effect}
    (hheard : instrument.heard (supports recorder) = heard)
    (h : NodeChain.build instrument destination recorder = (.ok chain, built)) :
    chain.entry = recorder.nextNode ∧
      chain.nodes = List.range' recorder.nextNode (heard.length + 1) ∧
      built.calls = recorder.calls ++ .newOscillator recorder.nextNode instrument.waveform ::
        wiring heard recorder.nextNode (recorder.nextNode + 1) ∧
      built.nextNode = recorder.nextNode + heard.length + 1 := by
  unfold NodeChain.build at h
  split at h
  · cases h
  · rename_i entry created hcreate
    split at h
    · rename_i terminal nodes grown happend
      cases h
      obtain ⟨rfl, hcreated, hnext, hsame⟩ := newOscillator_ok hcreate
      rw [Instrument.heard_eq, ← hsame] at hheard
      obtain ⟨hall, hcalls, hlast⟩ := calls_append hheard happend
      rw [hnext] at hall hcalls hlast
      refine ⟨rfl, hall, ?_, ?_⟩
      · rw [hcalls, hcreated, List.append_assoc]
        rfl
      · rw [hlast, Nat.add_right_comm]
    · cases h

end Recorder

/-- A voice that starts is told its tones, and that it ends when it has none. -/
theorem Scheduler.signals_start {now : Seconds} {voice : Voice} {tones : List Tone}
    {looping announced : Bool} {scheduler : Scheduler} {handle : VoiceId}
    (h : (scheduler.start now voice tones looping announced).1.result = .ok handle) :
    (scheduler.start now voice tones looping announced).1.signals =
      .start voice.oscillator now :: tuning voice.oscillator now tones ++
        if tones = [] then ending voice.oscillator voice.chain.nodes now else [] := by
  rcases start_cases now voice tones looping announced scheduler with
    ⟨-, -, hstart⟩ | ⟨-, rfl, hstart⟩ | ⟨-, htones, hstart⟩
  · rw [hstart] at h
    cases h
  · rw [hstart, if_pos rfl]
    rfl
  · rw [hstart, if_neg htones, List.append_nil, programme_eq_tuning]

namespace Stage

variable {stage next : Stage Recorder} {looping : Bool}

theorem supports_startPart (looping : Bool) (part : PlannedPart) (stage : Stage Recorder) :
    supports (stage.startPart looping part).2.graph = supports stage.graph :=
  (Recorder.kept_supports (supports stage.graph)).stage.startPart looping trivial rfl

/-- A part that starts makes the calls of its score. -/
theorem calls_startPart {part : PlannedPart} {handle : VoiceId}
    (h : stage.startPart looping part = (.ok handle, next)) :
    next.graph.calls = stage.graph.calls ++ partScore (supports stage.graph) stage.graph.now
        stage.graph.nextNode part.instrument part.tones ∧
      next.graph.nextNode = stage.graph.nextNode +
        (part.instrument.heard (supports stage.graph)).length + 1 := by
  cases hbuilt : NodeChain.build part.instrument destination stage.graph with
  | mk outcome built =>
  cases outcome with
  | error fault =>
    unfold startPart at h
    rw [hbuilt] at h
    cases h
  | ok chain =>
    obtain ⟨hentry, hnodes, hcalls, hnext⟩ := Recorder.calls_build rfl hbuilt
    have hnow := NodeChain.now_build part.instrument destination stage.graph
    rw [hbuilt] at hnow
    rw [startPart_of_build hbuilt] at h
    obtain ⟨hresult, rfl⟩ := Prod.mk.inj h
    have hsignals := Scheduler.signals_start (ok_of_mapError hresult)
    rw [Recorder.signalAll_eq, hsignals]
    refine ⟨?_, hnext⟩
    have hvoice : (⟨chain⟩ : Voice).oscillator = stage.graph.nextNode := hentry
    have hclock : now built = stage.graph.now := hnow
    simp only [hcalls, hvoice, hnodes, hclock]
    rw [partScore, List.append_assoc]

/-- Parts that start one after the other make the calls of their scores. -/
theorem calls_startParts {parts : List PlannedPart} {handles started : List VoiceId}
    (h : stage.startParts looping parts handles = ((.ok (), started), next)) :
    next.graph.calls = stage.graph.calls ++ partsScore (supports stage.graph) stage.graph.now
      stage.graph.nextNode (parts.map fun part => (part.instrument, part.tones)) := by
  induction parts generalizing handles stage with
  | nil =>
    cases h
    exact (List.append_nil _).symm
  | cons part parts ih =>
    have hnow := now_startPart looping part stage
    have hsupports := supports_startPart looping part stage
    unfold startParts at h
    split at h
    · cases h
    · rename_i handle middle hpart
      rw [hpart] at hnow hsupports
      obtain ⟨hcalls, hnext⟩ := calls_startPart hpart
      rw [ih h, hcalls, hnext, hnow, hsupports, List.append_assoc]
      rfl

end Stage

namespace Scheduler

theorem signals_cancelEach_cons (now : Seconds) (handle : VoiceId) (handles : List VoiceId)
    (scheduler : Scheduler) :
    (scheduler.cancelEach now (handle :: handles)).1 = (scheduler.cancel now handle).1.2 ++
      ((scheduler.cancel now handle).2.cancelEach now handles).1 := rfl

/-- Voices that are cancelled one after the other end in this order. -/
theorem signals_cancelEach (now : Seconds) {handles : List VoiceId} (hnodup : handles.Nodup)
    (scheduler : Scheduler) :
    (scheduler.cancelEach now handles).1 = handles.flatMap (scheduler.endingOf now) := by
  induction handles generalizing scheduler with
  | nil => rfl
  | cons handle handles ih =>
    obtain ⟨hfirst, hnodup⟩ := List.nodup_cons.1 hnodup
    have hothers : ∀ other ∈ handles,
        (scheduler.cancel now handle).2.endingOf now other = scheduler.endingOf now other := by
      intro other hmem
      have hne : other ≠ handle := by
        rintro rfl
        exact hfirst hmem
      unfold endingOf
      rw [tasks_cancel, task?_withoutTask_of_ne scheduler.tasks hne]
    rw [signals_cancelEach_cons, ih hnodup, List.flatMap_cons, List.flatMap_congr hothers]
    refine congrArg (· ++ _) ?_
    unfold endingOf
    rcases cancel_cases now handle scheduler with ⟨hnone, hcancel⟩ | ⟨task, hfound, hcancel⟩
    · rw [hcancel, hnone]
    · rw [hcancel, hfound]
      rfl

end Scheduler

namespace Engine

variable {engine : Engine Recorder} {name : String}

/-- Nothing is done to the graph by an engine that stops but to end its voices. -/
theorem graph_stop (h : engine.Accounted) :
    engine.stop.graph = { engine.graph with calls := engine.graph.calls ++ engine.releases } := by
  unfold stop releases held
  cases hsession : engine.session with
  | none => rw [List.flatMap_nil, List.map_nil, List.append_nil]
  | some session =>
    have hperm := h.busy session hsession
    have hnodup : session.handles.Nodup := hperm.nodup_iff.2 h.coherent.pending_nodup
    have hrest := Scheduler.tasks_cancelEach_eq_nil engine.graph.now hperm
    have hgraph : (engine.toStage.retire session.handles).graph =
        signalAll ((engine.scheduler.cancelEach engine.graph.now session.handles).1 ++
          ((engine.scheduler.cancelEach engine.graph.now session.handles).2.cancelEvery
            engine.graph.now).1) engine.graph := rfl
    simp only [hgraph]
    rw [Scheduler.cancelEvery, hrest, List.flatMap_nil, List.append_nil,
      Scheduler.signals_cancelEach _ hnodup, Recorder.signalAll_eq]

/-- No call mentions a node that is still to be created. -/
theorem calls_below (book : Songbook) (unsupported : List Setting) (events : List Event) :
    let recorder := ((fresh book unsupported).after events).graph
    ∀ call ∈ recorder.calls, ∀ node ∈ call.nodes, node < recorder.nextNode := by
  intro recorder call hcall node hnode
  by_contra hle
  have hphase := (tidy_after book unsupported events).tended.unborn node (Nat.le_of_not_lt hle)
  have hhistory := (past_of_follow? hphase).unborn.1 rfl
  exact role?_eq_none_iff.1 (List.filterMap_eq_nil_iff.1 hhistory call hcall) hnode

/-- **A track that plays makes the calls of its score and no others.**  Before them stand
those that end the voices of the old session.  The score depends on the songbook, the name
of the track, the time, the number of the next node, and what is supported; so it is the
same whatever was playing before.  The nodes that it creates have never been
mentioned. -/
theorem calls_play (book : Songbook) (unsupported : List Setting) (events : List Event)
    (name : String) {engine : Engine Recorder}
    (hengine : engine = (fresh book unsupported).after events)
    (hplay : (engine.play name).1 = .ok ()) :
    (∃ score, engine.book.score? name engine.graph.now (supports engine.graph)
        engine.graph.nextNode = some score ∧
      (engine.play name).2.graph.calls = engine.graph.calls ++ engine.releases ++ score) ∧
    ∀ call ∈ engine.graph.calls, ∀ node ∈ call.nodes, node < engine.graph.nextNode := by
  subst hengine
  refine ⟨?_, calls_below book unsupported events⟩
  have haccounted : ((fresh book unsupported).after events).Accounted :=
    accounted_after events (accounted_ofBook book _)
  generalize (fresh book unsupported).after events = engine at hplay haccounted ⊢
  rcases play_cases engine name with ⟨error, -, heq⟩ |
    ⟨track, parts, handles, stage, hplan, hparts, heq⟩ |
    ⟨track, parts, error, handles, stage, -, -, heq⟩
  · rw [heq] at hplay
    cases hplay
  · have hcalls := Stage.calls_startParts hparts
    rw [graph_stop haccounted] at hcalls
    rw [plan_eq] at hplan
    obtain ⟨planned, htrack, hplan⟩ := bind_ok hplan
    split at hplan
    · cases hplan
    · cases hplan
      refine ⟨_, Songbook.score?_of_planTrack htrack _ _ _, ?_⟩
      rw [heq]
      exact hcalls
  · rw [heq] at hplay
    cases hplay

/-- A songbook with a track of two parts, a soft one with a tone of one second and one
without notes. -/
def duetBook : Songbook :=
  ⟨Table.ofList [("ABC", ⟨.square, some 0.5, some 0⟩), ("XYZ", .plain .sine)],
    Table.empty.insert "duet" ⟨60, false, ["ABCX14", "XYZ"]⟩⟩

/-- The track is playing for half a second. -/
def duetPlaying : Engine Recorder :=
  (fresh duetBook []).after [.ask (.play "duet"), .host (.setClock (.ofFloat 0.5))]

/-- When it is asked for once more, the soft voice is released, and both parts begin with
new nodes. -/
theorem calls_play_duetPlaying :
    (duetPlaying.play "duet").1 = .ok () ∧
      ((∃ score, duetPlaying.book.score? "duet" duetPlaying.graph.now
          (supports duetPlaying.graph) duetPlaying.graph.nextNode = some score ∧
        (duetPlaying.play "duet").2.graph.calls =
          duetPlaying.graph.calls ++ duetPlaying.releases ++ score) ∧
      ∀ call ∈ duetPlaying.graph.calls, ∀ node ∈ call.nodes, node < duetPlaying.graph.nextNode) ∧
      duetPlaying.releases =
        [.signal (.stop 1 (.ofFloat 0.5)), .signal (.detach 1), .signal (.detach 2)] ∧
      duetPlaying.book.score? "duet" duetPlaying.graph.now (supports duetPlaying.graph)
          duetPlaying.graph.nextNode =
        some [.newOscillator 4 .square, .newEffect 5 ⟨.gain, 0.5⟩, .wire 4 5, .wire 5 0,
          .signal (.start 4 (.ofFloat 0.5)), .signal (.tune 4 0 (.ofFloat 0.5)),
          .newOscillator 6 .sine, .wire 6 0, .signal (.start 6 (.ofFloat 0.5)),
          .signal (.stop 6 (.ofFloat 0.5)), .signal (.detach 6)] := by
  have hplay : (duetPlaying.play "duet").1 = .ok () := by decide +kernel
  exact ⟨hplay, calls_play duetBook [] _ "duet" rfl hplay, by decide +kernel, by decide +kernel⟩

end Engine

end Chiptune
