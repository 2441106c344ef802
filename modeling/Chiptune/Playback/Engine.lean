/-
  The engine: one track of a songbook playing on a graph.

  A track that is asked for is worked out completely before anything that is
  playing is touched, so that a request that cannot be met interrupts nothing.
-/
import Chiptune.Playback.Scheduler
import Chiptune.Songbook.Plan

set_option autoImplicit false

namespace Chiptune

/-- Why a track does not play. -/
inductive PlayError where
  | tune (error : MusicError)
  | graph (error : GraphFault)
  deriving DecidableEq

/-- Why a track does not play, in words. -/
def PlayError.message : PlayError → String
  | tune error => error.message
  | graph error => error.message

/-- A scheduler and the graph that it drives. -/
structure Stage (G : Type) where
  scheduler : Scheduler
  graph : G

/-- The track that is playing and the voices of it that have not been reported as ended. -/
structure Session where
  track : String
  handles : List VoiceId
  deriving DecidableEq, Repr, Inhabited

/-- A songbook with at most one of its tracks playing. -/
structure Engine (G : Type) extends Stage G where
  book : Songbook
  session : Option Session
  /-- Whoever is told of the tracks that come to their end, by the words put before
  the name of the track. -/
  listener : Option String

namespace Stage

open AudioGraph

variable {G : Type} [AudioGraph G]

/-- Releases some voices in order, then all others. -/
def retire (handles : List VoiceId) (stage : Stage G) : Stage G :=
  let time := now stage.graph
  let (signals, scheduler) := stage.scheduler.cancelEach time handles
  let (others, scheduler) := scheduler.cancelEvery time
  ⟨scheduler, signalAll (signals ++ others) stage.graph⟩

/-- Builds the nodes of a part and starts its voice. -/
def startPart (looping : Bool) (part : PlannedPart) (stage : Stage G) :
    Except PlayError VoiceId × Stage G :=
  match NodeChain.build part.instrument destination stage.graph with
  | (.error error, graph) => (.error (.graph error), { stage with graph })
  | (.ok chain, graph) =>
    let (start, scheduler) :=
      stage.scheduler.start (now graph) ⟨chain⟩ part.tones looping false
    (start.result.mapError .tune, ⟨scheduler, signalAll start.signals graph⟩)

/-- Starts parts in order until one fails; besides the outcome, the voices that were
started are given, behind `handles`. -/
def startParts (looping : Bool) :
    List PlannedPart → (handles : List VoiceId) → Stage G →
      (Except PlayError Unit × List VoiceId) × Stage G
  | [], handles, stage => ((.ok (), handles), stage)
  | part :: parts, handles, stage =>
    match stage.startPart looping part with
    | (.error error, stage) => ((.error error, handles), stage)
    | (.ok handle, stage) => startParts looping parts (handles ++ [handle]) stage

end Stage

namespace Engine

open AudioGraph

variable {G : Type}

/-- An engine with nothing playing. -/
def ofBook (book : Songbook) (graph : G) : Engine G :=
  ⟨⟨.empty, graph⟩, book, none, none⟩

/-- Sets the listener. -/
def listen (label : String) (engine : Engine G) : Engine G :=
  { engine with listener := some label }

/-- Whether a track is playing. -/
def isBusy (engine : Engine G) : Bool := engine.session.isSome

/-- The track that is playing. -/
def playing? (engine : Engine G) : Option String := engine.session.map (·.track)

/-- How many voices of the track are still playing. -/
def voicesLeft (engine : Engine G) : Nat :=
  match engine.session with
  | some session => session.handles.countP engine.scheduler.plays
  | none => 0

variable [AudioGraph G]

/-- Ends what is playing. -/
def stop (engine : Engine G) : Engine G :=
  match engine.session with
  | none => engine
  | some session =>
    { engine with toStage := engine.toStage.retire session.handles, session := none }

/-- Works out a track; every part of a track that loops has to have a length. -/
def plan (name : String) (engine : Engine G) : Except MusicError (Track × List PlannedPart) := do
  let (track, parts) ← engine.book.planTrack name
  let isStuck (part : PlannedPart) : Bool :=
    isStuckLoop (now engine.graph) (Tone.totalLength part.tones)
  if track.looping && parts.any isStuck then .error .stuckLoop
  else .ok (track, parts)

/-- Ends what is playing and starts every part of a track.  A track that cannot be
worked out leaves everything as it is; when the graph fails, the voices that were
started are released, and nothing is playing. -/
def play (name : String) (engine : Engine G) : Except PlayError Unit × Engine G :=
  match engine.plan name with
  | .error error => (.error (.tune error), engine)
  | .ok (track, parts) =>
    let engine := engine.stop
    match engine.toStage.startParts track.looping parts [] with
    | ((.ok (), handles), stage) =>
      (.ok (), { engine with toStage := stage, session := some ⟨name, handles⟩ })
    | ((.error error, handles), stage) =>
      (.error error, { engine with toStage := stage.retire handles })

/-- What a tick brings about. -/
structure Tick where
  /-- How many voices ended. -/
  ended : Nat
  /-- What the listener was told. -/
  heard : List String
  deriving DecidableEq, Repr, Inhabited

/-- Fires the timers that are due.  The track has ended when its last voice has. -/
def tick (engine : Engine G) : Tick × Engine G :=
  let (poll, scheduler) := engine.scheduler.poll (now engine.graph)
  let engine := { engine with scheduler, graph := signalAll poll.signals engine.graph }
  if poll.ended.isEmpty then (⟨0, []⟩, engine)
  else
    match engine.session with
    | none => (⟨poll.ended.length, []⟩, engine)
    | some session =>
      let handles := session.handles.filter fun handle => !poll.ended.contains handle
      if handles.isEmpty then
        (⟨poll.ended.length, (engine.listener.map (· ++ session.track)).toList⟩,
          { engine with session := none })
      else
        (⟨poll.ended.length, []⟩, { engine with session := some { session with handles } })

/-- Ends what is playing and takes another songbook. -/
def replaceBook (book : Songbook) (engine : Engine G) : Engine G :=
  { engine.stop with book }

end Engine

end Chiptune
