/-
  Engines over two graphs.

  One graph follows another one when it gives the same answers to the calls that are lawful.
  Then an engine over the first goes through everything that an engine over the other goes
  through, as long as this one makes no unlawful call.  Nothing here depends on what a graph
  does with its calls.
-/
import Chiptune.Proofs.Sessions

set_option autoImplicit false

namespace Chiptune

variable {G H : Type} [AudioGraph G] [AudioGraph H]

namespace AudioGraph

/-- The calls of one graph are met by another one, as far as they are accepted and leave
the first lawful. -/
structure Follows (Lawful : H → Prop) (R : G → H → Prop) : Prop where
  /-- What is unlawful stays so. -/
  unlawful : Kept fun graph : H => ¬ Lawful graph
  now_eq : ∀ {graph : G} {other : H}, R graph other → now graph = now other
  supports_eq : ∀ {graph : G} {other : H}, R graph other → supports graph = supports other
  /-- No chain is refused. -/
  builds : ∀ {graph : G} {other : H}, R graph other → ∀ instrument : Instrument,
    ∃ chain built, NodeChain.build instrument destination other = (.ok chain, built)
  newOscillator : ∀ {graph : G} {other next : H} {waveform : Waveform} {node : NodeId},
    R graph other → newOscillator waveform other = (.ok node, next) → Lawful next →
      ∃ left, newOscillator waveform graph = (.ok node, left) ∧ R left next
  newEffect : ∀ {graph : G} {other next : H} {effect : Effect} {node : NodeId},
    R graph other → newEffect effect other = (.ok node, next) → Lawful next →
      ∃ left, newEffect effect graph = (.ok node, left) ∧ R left next
  wire : ∀ {graph : G} {other next : H} {source target : NodeId},
    R graph other → wire source target other = (.ok (), next) → Lawful next →
      ∃ left, wire source target graph = (.ok (), left) ∧ R left next
  signal : ∀ {graph : G} {other : H} {given : Signal},
    R graph other → Lawful (signal given other) → R (signal given graph) (signal given other)

namespace Follows

variable {Lawful : H → Prop} {R : G → H → Prop} {graph : G} {other : H}

/-- What is lawful in the end has been so all along. -/
theorem lawful_of_signalAll (h : Follows Lawful R) {signals : List Signal}
    (hlawful : Lawful (AudioGraph.signalAll signals other)) : Lawful other :=
  not_imp_not.1 (h.unlawful.signalAll signals) hlawful

theorem lawful_of_wire (h : Follows Lawful R) {source target : NodeId} {wired : H}
    (hwire : AudioGraph.wire source target other = (.ok (), wired)) (hlawful : Lawful wired) :
    Lawful other := by
  refine not_imp_not.1 (h.unlawful.wire source target) ?_
  rwa [hwire]

theorem lawful_of_append (h : Follows Lawful R) {output tail terminal : NodeId}
    {effects : List Effect} {nodes all : List NodeId} {built : H}
    (happend : NodeChain.append output effects tail nodes other = ((.ok terminal, all), built))
    (hlawful : Lawful built) : Lawful other := by
  refine not_imp_not.1 (h.unlawful.append output effects tail nodes) ?_
  rwa [happend]

theorem signalAll (h : Follows Lawful R) (signals : List Signal) (hR : R graph other)
    (hlawful : Lawful (signalAll signals other)) :
    R (signalAll signals graph) (signalAll signals other) := by
  induction signals generalizing graph other with
  | nil => exact hR
  | cons given signals ih => exact ih (h.signal hR (h.lawful_of_signalAll hlawful)) hlawful

/-- A chain that is completed on one graph is completed on the other. -/
theorem append (h : Follows Lawful R) {output tail terminal : NodeId} {effects : List Effect}
    {nodes all : List NodeId} {built : H} (hR : R graph other)
    (happend : NodeChain.append output effects tail nodes other = ((.ok terminal, all), built))
    (hlawful : Lawful built) :
    ∃ left, NodeChain.append output effects tail nodes graph = ((.ok terminal, all), left) ∧
      R left built := by
  induction effects generalizing tail nodes graph other with
  | nil =>
    unfold NodeChain.append at happend ⊢
    split at happend
    · rename_i wired hwire
      cases happend
      obtain ⟨left, heq, hleft⟩ := h.wire hR hwire hlawful
      rw [heq]
      exact ⟨left, rfl, hleft⟩
    · cases happend
  | cons effect effects ih =>
    have hsupports := h.supports_eq hR
    unfold NodeChain.append at happend ⊢
    rw [hsupports]
    split at happend
    · rename_i hsupported
      rw [if_pos hsupported]
      split at happend
      · cases happend
      · rename_i node created hcreate
        split at happend
        · cases happend
        · rename_i wired hwire
          have hwired := h.lawful_of_append happend hlawful
          have hcreated := h.lawful_of_wire hwire hwired
          obtain ⟨made, hmade, hR⟩ := h.newEffect hR hcreate hcreated
          obtain ⟨joined, hjoined, hR⟩ := h.wire hR hwire hwired
          rw [hmade]
          simp only
          rw [hjoined]
          exact ih hR happend
    · rename_i hsupported
      rw [if_neg hsupported]
      exact ih hR happend

theorem build (h : Follows Lawful R) {instrument : Instrument} {chain : NodeChain} {built : H}
    (hR : R graph other)
    (hbuild : NodeChain.build instrument destination other = (.ok chain, built))
    (hlawful : Lawful built) :
    ∃ left, NodeChain.build instrument destination graph = (.ok chain, left) ∧ R left built := by
  unfold NodeChain.build at hbuild ⊢
  split at hbuild
  · cases hbuild
  · rename_i entry created hcreate
    split at hbuild
    · rename_i terminal nodes grown happend
      cases hbuild
      obtain ⟨made, hmade, hR⟩ :=
        h.newOscillator hR hcreate (h.lawful_of_append happend hlawful)
      obtain ⟨left, hleft, hR⟩ := h.append hR happend hlawful
      rw [hmade]
      simp only
      rw [hleft]
      exact ⟨left, rfl, hR⟩
    · cases hbuild

end Follows

end AudioGraph

open AudioGraph

/-! ## Stages -/

/-- Two stages have the same scheduler, and the graph of one follows that of the other. -/
structure Stage.Follows (R : G → H → Prop) (stage : Stage G) (other : Stage H) : Prop where
  scheduler : stage.scheduler = other.scheduler
  graph : R stage.graph other.graph

namespace Stage.Follows

variable {Lawful : H → Prop} {R : G → H → Prop} {stage : Stage G} {other : Stage H}

theorem retire (h : AudioGraph.Follows Lawful R) (handles : List VoiceId)
    (hstage : stage.Follows R other) (hlawful : Lawful (other.retire handles).graph) :
    (stage.retire handles).Follows R (other.retire handles) := by
  unfold Stage.retire at hlawful ⊢
  rw [hstage.scheduler, h.now_eq hstage.graph]
  exact ⟨rfl, h.signalAll _ hstage.graph hlawful⟩

theorem poll (h : AudioGraph.Follows Lawful R) (hstage : stage.Follows R other)
    (hlawful : Lawful other.poll.2.graph) :
    stage.poll.1 = other.poll.1 ∧ stage.poll.2.Follows R other.poll.2 := by
  unfold Stage.poll at hlawful ⊢
  rw [hstage.scheduler, h.now_eq hstage.graph]
  exact ⟨rfl, rfl, h.signalAll _ hstage.graph hlawful⟩

/-- A part starts on both stages, or it is refused on both because it is stuck. -/
theorem startPart (h : AudioGraph.Follows Lawful R) (looping : Bool) (part : PlannedPart)
    (hstage : stage.Follows R other)
    (hlawful : Lawful (other.startPart looping part).2.graph) :
    (stage.startPart looping part).1 = (other.startPart looping part).1 ∧
      (stage.startPart looping part).2.Follows R (other.startPart looping part).2 ∧
      ∀ fault, (other.startPart looping part).1 ≠ .error (.graph fault) := by
  obtain ⟨chain, built, hbuild⟩ := h.builds hstage.graph part.instrument
  rw [startPart_of_build hbuild] at hlawful ⊢
  obtain ⟨left, hleft, hR⟩ := h.build hstage.graph hbuild (h.lawful_of_signalAll hlawful)
  rw [startPart_of_build hleft, hstage.scheduler, h.now_eq hR]
  refine ⟨rfl, ⟨rfl, h.signalAll _ hR hlawful⟩, fun fault herror => ?_⟩
  cases hresult : (other.scheduler.start (now built) ⟨chain⟩ part.tones looping
      false).1.result with
  | ok handle =>
    rw [hresult] at herror
    cases herror
  | error error =>
    rw [hresult] at herror
    cases herror

theorem startParts (h : AudioGraph.Follows Lawful R) (looping : Bool) (parts : List PlannedPart)
    (handles : List VoiceId) (hstage : stage.Follows R other)
    (hlawful : Lawful (other.startParts looping parts handles).2.graph) :
    (stage.startParts looping parts handles).1 = (other.startParts looping parts handles).1 ∧
      (stage.startParts looping parts handles).2.Follows R
        (other.startParts looping parts handles).2 ∧
      ∀ fault, (other.startParts looping parts handles).1.1 ≠ .error (.graph fault) := by
  induction parts generalizing handles stage other with
  | nil => exact ⟨rfl, hstage, fun _ heq => nomatch heq⟩
  | cons part parts ih =>
    have hfirst := startPart h looping part hstage
    unfold Stage.startParts at hlawful ⊢
    cases hthere : other.startPart looping part with
    | mk outcome there =>
    cases hhere : stage.startPart looping part with
    | mk found here =>
    rw [hthere, hhere] at hfirst
    rw [hthere] at hlawful
    cases outcome with
    | error error =>
      obtain ⟨heq, hnext, hfault⟩ := hfirst hlawful
      obtain rfl : found = .error error := heq
      refine ⟨rfl, hnext, fun fault heq => hfault fault ?_⟩
      cases heq
      rfl
    | ok handle =>
      have hbefore : Lawful there.graph :=
        not_imp_not.1 (h.unlawful.stage.startParts looping parts (handles ++ [handle])) hlawful
      obtain ⟨heq, hnext, -⟩ := hfirst hbefore
      obtain rfl : found = .ok handle := heq
      exact ih (handles ++ [handle]) hnext hlawful

end Stage.Follows

/-! ## Engines -/

namespace Engine

/-- What a tick says, and what it leaves of the session, when these voices have ended. -/
def outcomeOf (ended : List VoiceId) (session : Option Session) (listener : Option String) :
    Tick × Option Session :=
  if ended.isEmpty then (⟨0, []⟩, session)
  else
    match session with
    | none => (⟨ended.length, []⟩, none)
    | some session =>
      let handles := session.handles.filter fun handle => !ended.contains handle
      if handles.isEmpty then
        (⟨ended.length, (listener.map (· ++ session.track)).toList⟩, none)
      else (⟨ended.length, []⟩, some { session with handles })

/-- A tick goes by the voices that have ended, the session and the listener. -/
theorem tick_eq (engine : Engine G) :
    engine.tick =
      ((outcomeOf engine.ending engine.session engine.listener).1,
        { engine with
          toStage := engine.toStage.poll.2
          session := (outcomeOf engine.ending engine.session engine.listener).2 }) := by
  have hending : (engine.scheduler.poll (now engine.graph)).1.ended = engine.ending := rfl
  unfold tick outcomeOf
  simp only [hending]
  split
  · rfl
  · cases hsession : engine.session with
    | none => rfl
    | some session =>
      simp only
      split <;> rfl

end Engine

/-- Two engines play the same, and the graph of one follows that of the other. -/
structure Engine.Follows (R : G → H → Prop) (engine : Engine G) (other : Engine H) : Prop extends
    Stage.Follows R engine.toStage other.toStage where
  book : engine.book = other.book
  session : engine.session = other.session
  listener : engine.listener = other.listener

namespace Engine.Follows

variable {Lawful : H → Prop} {R : G → H → Prop} {engine : Engine G} {other : Engine H}

theorem stop (h : AudioGraph.Follows Lawful R) (hengine : engine.Follows R other)
    (hlawful : Lawful other.stop.graph) : engine.stop.Follows R other.stop := by
  unfold Engine.stop at hlawful ⊢
  rw [hengine.session]
  cases hsession : other.session with
  | none => exact hengine
  | some session =>
    rw [hsession] at hlawful
    exact
      { toFollows := Stage.Follows.retire h session.handles hengine.toFollows hlawful
        book := hengine.book, session := rfl, listener := hengine.listener }

theorem plan_eq (h : AudioGraph.Follows Lawful R) (hengine : engine.Follows R other)
    (name : String) : engine.plan name = other.plan name := by
  unfold plan
  rw [hengine.book, h.now_eq hengine.graph]

/-- A track begins in both engines, or it is refused in both because of the music. -/
theorem play (h : AudioGraph.Follows Lawful R) (name : String) (hengine : engine.Follows R other)
    (hlawful : Lawful (other.play name).2.graph) :
    (engine.play name).1 = (other.play name).1 ∧
      (engine.play name).2.Follows R (other.play name).2 ∧
      ∀ fault, (other.play name).1 ≠ .error (.graph fault) := by
  have hplan := hengine.plan_eq h name
  unfold Engine.play at hlawful ⊢
  rw [hplan]
  cases hplanned : other.plan name with
  | error error => exact ⟨rfl, hengine, fun _ heq => nomatch heq⟩
  | ok planned =>
    obtain ⟨track, parts⟩ := planned
    rw [hplanned] at hlawful
    simp only at hlawful ⊢
    cases hthere : other.stop.toStage.startParts track.looping parts [] with
    | mk outcome there =>
    obtain ⟨result, handles⟩ := outcome
    rw [hthere] at hlawful
    have hstarted : Lawful there.graph := by
      cases result with
      | ok done => exact hlawful
      | error error => exact not_imp_not.1 (h.unlawful.stage.retire handles) hlawful
    have hstopped : Lawful other.stop.graph := by
      refine not_imp_not.1 (h.unlawful.stage.startParts track.looping parts []) ?_
      rwa [hthere]
    have hstop := hengine.stop h hstopped
    have hparts := Stage.Follows.startParts h track.looping parts [] hstop.toFollows
    cases hhere : engine.stop.toStage.startParts track.looping parts [] with
    | mk found here =>
    rw [hthere, hhere] at hparts
    obtain ⟨heq, hnext, hfault⟩ := hparts hstarted
    obtain rfl : found = (result, handles) := heq
    cases result with
    | ok done =>
      exact ⟨rfl, { toFollows := hnext, book := hstop.book, session := rfl
                    listener := hstop.listener }, fun _ heq => nomatch heq⟩
    | error error =>
      exact ⟨rfl, { toFollows := Stage.Follows.retire h handles hnext hlawful
                    book := hstop.book, session := hstop.session
                    listener := hstop.listener }, hfault⟩

theorem tick (h : AudioGraph.Follows Lawful R) (hengine : engine.Follows R other)
    (hlawful : Lawful other.tick.2.graph) :
    engine.tick.1 = other.tick.1 ∧ engine.tick.2.Follows R other.tick.2 := by
  have hstage := toStage_tick other
  rw [congrArg Stage.graph hstage] at hlawful
  obtain ⟨hpoll, hnext⟩ := Stage.Follows.poll h hengine.toFollows hlawful
  have hending : engine.ending = other.ending := congrArg Scheduler.Poll.ended hpoll
  rw [tick_eq, tick_eq, hending, hengine.session, hengine.listener]
  exact ⟨rfl, { toFollows := hnext, book := hengine.book, session := rfl, listener := rfl }⟩

/-- Every request is met alike. -/
theorem serve (h : AudioGraph.Follows Lawful R) (request : Request)
    (hengine : engine.Follows R other) (hlawful : Lawful (other.serve request).2.graph) :
    (engine.serve request).1 = (other.serve request).1 ∧
      (engine.serve request).2.Follows R (other.serve request).2 ∧
      ∀ fault, (other.serve request).1 ≠ .played (.error (.graph fault)) := by
  cases request with
  | play name =>
    obtain ⟨hanswer, hnext, hfault⟩ := hengine.play h name hlawful
    refine ⟨congrArg Answer.played hanswer, hnext, fun fault heq => hfault fault ?_⟩
    exact Answer.played.inj heq
  | stop => exact ⟨rfl, hengine.stop h hlawful, fun _ heq => nomatch heq⟩
  | tick =>
    obtain ⟨hanswer, hnext⟩ := hengine.tick h hlawful
    exact ⟨congrArg Answer.ticked hanswer, hnext, fun _ heq => nomatch heq⟩
  | replaceBook book =>
    exact ⟨rfl, { hengine.stop h hlawful with book := rfl }, fun _ heq => nomatch heq⟩
  | listen label =>
    exact ⟨rfl, { hengine with listener := rfl }, fun _ heq => nomatch heq⟩

end Engine.Follows

end Chiptune
