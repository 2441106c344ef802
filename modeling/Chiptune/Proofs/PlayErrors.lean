/-
  A track that cannot be worked out interrupts nothing.

  Everything that may be wrong with a piece of music is found before the old session is
  ended.  The scheduler looks once more whether a loop is stuck, when the old session is
  gone already; since the clock stands still meanwhile, it finds what was found before.
-/
import Chiptune.Proofs.Coherent
import Chiptune.Proofs.EngineRun
import Chiptune.Proofs.Planning
import Chiptune.Proofs.Recording

set_option autoImplicit false

namespace Chiptune

open AudioGraph

/-! ## The clock stands still -/

theorem NodeChain.now_build (instrument : Instrument) (output : NodeId) (recorder : Recorder) :
    (build instrument output recorder).2.now = recorder.now :=
  (Recorder.kept_now recorder.now).build instrument output rfl

theorem Stage.now_startPart (looping : Bool) (part : PlannedPart) (stage : Stage Recorder) :
    (stage.startPart looping part).2.graph.now = stage.graph.now :=
  (Recorder.kept_now stage.graph.now).stage.startPart looping trivial rfl

theorem Engine.now_stop (engine : Engine Recorder) : engine.stop.graph.now = engine.graph.now :=
  kept_stop (Recorder.kept_now engine.graph.now).stage rfl

/-! ## The late check -/

/-- Whether a part is a loop that would be refused at a time. -/
def PlannedPart.stuckAt (now : Seconds) (looping : Bool) (part : PlannedPart) : Bool :=
  looping && isStuckLoop now (Tone.totalLength part.tones)

/-- The scheduler accepts every voice that is not a stuck loop. -/
theorem Scheduler.result_start {now : Seconds} {looping : Bool} {part : PlannedPart}
    (h : part.stuckAt now looping = false) (scheduler : Scheduler) (voice : Voice)
    (announced : Bool) :
    (scheduler.start now voice part.tones looping announced).1.result =
      .ok scheduler.nextHandle := by
  rcases start_cases now voice part.tones looping announced scheduler with
    ⟨hlooping, hlength, -⟩ | ⟨-, -, hstart⟩ | ⟨-, -, hstart⟩
  · rw [PlannedPart.stuckAt, hlooping, hlength] at h
    cases h
  · rw [hstart]
  · rw [hstart]

/-- A part that is not stuck fails by the graph or not at all. -/
theorem Stage.startPart_error {looping : Bool} {part : PlannedPart} {stage : Stage Recorder}
    {error : PlayError} (hfree : part.stuckAt stage.graph.now looping = false)
    (herror : (stage.startPart looping part).1 = .error error) :
    ∃ fault, error = .graph fault := by
  have hbuild := NodeChain.now_build part.instrument destination stage.graph
  cases hbuilt : NodeChain.build part.instrument destination stage.graph with
  | mk outcome graph =>
  cases outcome with
  | error fault =>
    unfold startPart at herror
    rw [hbuilt] at herror
    cases herror
    exact ⟨fault, rfl⟩
  | ok chain =>
    rw [hbuilt] at hbuild
    rw [← hbuild] at hfree
    have hresult : (stage.scheduler.start (AudioGraph.now graph) ⟨chain⟩ part.tones looping
        false).1.result = .ok stage.scheduler.nextHandle :=
      Scheduler.result_start hfree stage.scheduler ⟨chain⟩ false
    rw [startPart_of_build hbuilt, hresult] at herror
    cases herror

/-- So it is for several of them. -/
theorem Stage.startParts_error {looping : Bool} {parts : List PlannedPart}
    {handles : List VoiceId} {stage : Stage Recorder} {error : PlayError}
    (hfree : ∀ part ∈ parts, part.stuckAt stage.graph.now looping = false)
    (herror : (stage.startParts looping parts handles).1.1 = .error error) :
    ∃ fault, error = .graph fault := by
  induction parts generalizing handles stage with
  | nil => cases herror
  | cons part parts ih =>
    have hnow := now_startPart looping part stage
    unfold startParts at herror
    split at herror
    · rename_i failure left hpart
      cases herror
      refine startPart_error (hfree part List.mem_cons_self) ?_
      rw [hpart]
    · rename_i handle next hpart
      rw [hpart] at hnow
      refine ih (fun other hmem => ?_) herror
      rw [hnow]
      exact hfree other (List.mem_cons_of_mem _ hmem)

/-! ## What may be wrong with a track -/

/-- The errors that come from a track, its parts and its tempo. -/
def MusicError.concernsTrack : MusicError → Bool
  | unknownTrack _ | malformedPart _ | unknownInstrument _ | invalidTempo _ | stuckLoop => true
  | invalidInstrument _ _ | invalidSongbook _ _ => false

namespace Songbook

/-- A part is malformed, or its instrument is missing, or its tempo is no tempo. -/
theorem planPart_error {book : Songbook} {text : String} {bpm : Float} {error : MusicError}
    (h : book.planPart text bpm = .error error) : error.concernsTrack = true := by
  cases planPart_eq_error_iff.1 h <;> rfl

/-- A track is missing, or one of its parts cannot be planned. -/
theorem planTrack_error {book : Songbook} {name : String} {error : MusicError}
    (h : book.planTrack name = .error error) : error.concernsTrack = true := by
  unfold planTrack at h
  rcases bind_error h with htrack | ⟨track, -, h⟩
  · obtain ⟨-, rfl⟩ := track_eq_error_iff.1 htrack
    rfl
  · rcases bind_error h with hparts | ⟨parts, -, h⟩
    · obtain ⟨text, -, hpart⟩ := mapM_error hparts
      exact planPart_error hpart
    · cases h

end Songbook

namespace Engine

/-- A track is planned when all its parts are and none of them is stuck. -/
theorem plan_eq (engine : Engine Recorder) (name : String) :
    engine.plan name = engine.book.planTrack name >>= fun planned =>
      if planned.2.any (·.stuckAt engine.graph.now planned.1.looping) then .error .stuckLoop
      else .ok planned := by
  unfold plan
  refine congrArg (engine.book.planTrack name >>= ·) (funext fun planned => ?_)
  obtain ⟨track, parts⟩ := planned
  cases hlooping : track.looping <;> simp [PlannedPart.stuckAt, hlooping]
  rfl

theorem plan_error {engine : Engine Recorder} {name : String} {error : MusicError}
    (h : engine.plan name = .error error) : error.concernsTrack = true := by
  rw [plan_eq] at h
  rcases bind_error h with htrack | ⟨planned, -, h⟩
  · exact Songbook.planTrack_error htrack
  · split at h
    · cases h
      rfl
    · cases h

/-- A track that was planned has no part that is stuck. -/
theorem stuckAt_of_plan {engine : Engine Recorder} {name : String} {track : Track}
    {parts : List PlannedPart} (h : engine.plan name = .ok (track, parts)) :
    ∀ part ∈ parts, part.stuckAt engine.graph.now track.looping = false := by
  rw [plan_eq] at h
  cases htrack : engine.book.planTrack name with
  | error error =>
    rw [htrack] at h
    cases h
  | ok planned =>
    rw [htrack] at h
    change (if _ then _ else _) = _ at h
    split at h
    · cases h
    · rename_i hfree
      cases h
      intro part hmem
      rw [List.any_eq_true] at hfree
      exact Bool.eq_false_iff.2 fun hstuck => hfree ⟨part, hmem, hstuck⟩

/-- Once a track is planned, its parts fail by the graph or not at all. -/
theorem play_error_of_plan {engine : Engine Recorder} {name : String} {track : Track}
    {parts : List PlannedPart} {error : PlayError} (hplan : engine.plan name = .ok (track, parts))
    (h : (engine.play name).1 = .error error) : ∃ fault, error = .graph fault := by
  have hfree : ∀ part ∈ parts, part.stuckAt engine.stop.graph.now track.looping = false := by
    rw [now_stop]
    exact stuckAt_of_plan hplan
  unfold play at h
  rw [hplan] at h
  simp only at h
  split at h
  · cases h
  · rename_i failure handles stage hparts
    cases h
    exact Stage.startParts_error hfree (congrArg (·.1.1) hparts)

/-- **What is wrong with a track interrupts nothing.**  When a track does not play because
of the music, the engine is left exactly as it was: its session, its scheduler and its
graph with every call recorded on it.  And once the parts of a track have been found not
to be stuck, the scheduler accepts each of them at the same time, whatever has
happened to its voices in between. -/
theorem play_music_error (engine : Engine Recorder) (name : String) :
    (∀ error, (engine.play name).1 = .error (.tune error) →
      error.concernsTrack = true ∧ (engine.play name).2 = engine) ∧
    ∀ track parts, engine.plan name = .ok (track, parts) →
      ∀ (scheduler : Scheduler) (voice : Voice) (announced : Bool), ∀ part ∈ parts,
        (scheduler.start engine.graph.now voice part.tones track.looping announced).1.result =
          .ok scheduler.nextHandle := by
  refine ⟨fun error h => ?_, fun track parts hplan scheduler voice announced part hmem => ?_⟩
  · cases hplan : engine.plan name with
    | error flaw =>
      have hplay : engine.play name = (.error (.tune flaw), engine) := by
        unfold play
        rw [hplan]
      rw [hplay] at h ⊢
      cases h
      exact ⟨plan_error hplan, rfl⟩
    | ok planned =>
      obtain ⟨fault, hfault⟩ := play_error_of_plan hplan h
      cases hfault
  · exact Scheduler.result_start (stuckAt_of_plan hplan part hmem) scheduler voice announced

/-- A songbook with a loop of one second and a loop without length. -/
def loopBook : Songbook :=
  ⟨Table.empty.insert "ABC" (.plain .sine),
    Table.ofList [("tune", ⟨60, true, ["ABCX14"]⟩), ("void", ⟨60, true, ["ABC"]⟩)]⟩

/-- The loop of one second is playing. -/
def loopPlaying : Engine Recorder := (fresh loopBook []).after [.ask (.play "tune")]

/-- Asking for the other loop does not interrupt it. -/
theorem play_void_of_loopPlaying :
    (loopPlaying.play "void").1 = .error (.tune .stuckLoop) ∧
      (loopPlaying.play "void").2 = loopPlaying ∧
      loopPlaying.plan "tune" =
        .ok (⟨60, true, ["ABCX14"]⟩, [⟨"ABC", .plain .sine, [⟨0, .ofFloat 1⟩]⟩]) ∧
      (loopPlaying.scheduler.start loopPlaying.graph.now ⟨⟨2, 2, [2]⟩⟩ [⟨0, .ofFloat 1⟩] true
        false).1.result = .ok 1 := by
  have hvoid : (loopPlaying.play "void").1 = .error (.tune .stuckLoop) := by decide +kernel
  have htune : loopPlaying.plan "tune" =
      .ok (⟨60, true, ["ABCX14"]⟩, [⟨"ABC", .plain .sine, [⟨0, .ofFloat 1⟩]⟩]) := by
    decide +kernel
  obtain ⟨-, hsame⟩ := (play_music_error loopPlaying "void").1 .stuckLoop hvoid
  have hstart := (play_music_error loopPlaying "tune").2 _ _ htune loopPlaying.scheduler
    ⟨⟨2, 2, [2]⟩⟩ false _ (List.mem_singleton_self _)
  have hnext : loopPlaying.scheduler.nextHandle = 1 := by decide +kernel
  rw [hnext] at hstart
  simp only at hstart
  exact ⟨hvoid, hsame, htune, hstart⟩

end Engine

end Chiptune
