/-
  A songbook that is read once more.

  A file that cannot be loaded changes nothing.  One that can be ends what is playing, and
  the track is asked for again in the new songbook.  Whether it plays there depends on the
  songbook and on the host, but not on what has been called so far or on the voices that were
  playing; and every voice that is heard then is a new one, with a part of the new songbook.
-/
import Chiptune.Proofs.Casting
import Chiptune.Proofs.ProperEffects
import Chiptune.Proofs.Refusals
import Chiptune.Proofs.Score

set_option autoImplicit false

namespace Chiptune

open AudioGraph

/-! ## What a track that is asked for depends on -/

section

variable {G : Type} [AudioGraph G]

/-- Whether a voice starts and what is signalled does not depend on other voices. -/
theorem Scheduler.start_congr (now : Seconds) (voice : Voice) (tones : List Tone)
    (looping announced : Bool) (first second : Scheduler) :
    (first.start now voice tones looping announced).1.result.map (fun _ => ()) =
        (second.start now voice tones looping announced).1.result.map (fun _ => ()) ∧
      (first.start now voice tones looping announced).1.signals =
        (second.start now voice tones looping announced).1.signals := by
  unfold start
  simp only
  split
  · exact ⟨rfl, rfl⟩
  · split <;> exact ⟨rfl, rfl⟩

namespace Stage

variable {first second : Stage G}

/-- Over the same graph the same becomes of a part. -/
theorem startPart_congr (looping : Bool) (part : PlannedPart)
    (h : first.graph = second.graph) :
    (first.startPart looping part).1.map (fun _ => ()) =
        (second.startPart looping part).1.map (fun _ => ()) ∧
      (first.startPart looping part).2.graph = (second.startPart looping part).2.graph := by
  unfold startPart
  rw [h]
  split
  · exact ⟨rfl, rfl⟩
  · rename_i chain graph _
    obtain ⟨hresult, hsignals⟩ := Scheduler.start_congr (now graph) ⟨chain⟩ part.tones looping
      false first.scheduler second.scheduler
    refine ⟨?_, congrArg (signalAll · graph) hsignals⟩
    simp only
    generalize (first.scheduler.start _ _ _ _ _).1.result = mine at hresult ⊢
    generalize (second.scheduler.start _ _ _ _ _).1.result = other at hresult ⊢
    cases mine <;> cases other <;> cases hresult <;> rfl

/-- So it is for several parts. -/
theorem startParts_congr (looping : Bool) (parts : List PlannedPart)
    (handles others : List VoiceId) (h : first.graph = second.graph) :
    (first.startParts looping parts handles).1.1 =
      (second.startParts looping parts others).1.1 := by
  induction parts generalizing handles others first second with
  | nil => rfl
  | cons part parts ih =>
    obtain ⟨hresult, hgraph⟩ := startPart_congr looping part h
    rw [startParts, startParts]
    generalize first.startPart looping part = mine at hresult hgraph ⊢
    generalize second.startPart looping part = other at hresult hgraph ⊢
    obtain ⟨_ | _, next⟩ := mine <;> obtain ⟨_ | _, behind⟩ := other <;> cases hresult
    · rfl
    · exact ih _ _ hgraph

end Stage

/-- A track is planned from the songbook at the time that the graph tells. -/
theorem Engine.plan_congr {first second : Engine G} (hbook : first.book = second.book)
    (hnow : now first.graph = now second.graph) (name : String) :
    first.plan name = second.plan name := by
  rw [plan, plan, hbook, hnow]

/-- What is planned alike and begins over the same graph comes out alike. -/
theorem Engine.play_congr {name : String} {first second : Engine G}
    (hplan : first.plan name = second.plan name) (hgraph : first.stop.graph = second.stop.graph) :
    (first.play name).1 = (second.play name).1 := by
  unfold play
  rw [hplan]
  cases second.plan name with
  | error error => rfl
  | ok planned =>
    obtain ⟨track, parts⟩ := planned
    have hparts := Stage.startParts_congr track.looping parts [] [] hgraph
    simp only
    generalize first.stop.toStage.startParts track.looping parts [] = mine at hparts ⊢
    generalize second.stop.toStage.startParts track.looping parts [] = other at hparts ⊢
    obtain ⟨⟨_ | _, _⟩, _⟩ := mine <;> obtain ⟨⟨_ | _, _⟩, _⟩ := other <;> cases hparts <;> rfl

end

namespace Recorder

/-- A record with other calls before its own. -/
def behind (calls : List Call) (recorder : Recorder) : Recorder :=
  { recorder with calls := calls ++ recorder.calls }

theorem note_behind (calls : List Call) (call : Call) (recorder : Recorder) :
    (recorder.behind calls).note call = (recorder.note call).behind calls :=
  congrArg (fun calls => { recorder with calls }) (List.append_assoc _ _ _)

theorem create_behind (calls : List Call) (call : NodeId → Call) (recorder : Recorder) :
    (recorder.behind calls).create call = Prod.map id (behind calls) (recorder.create call) := by
  rw [create, note_behind]
  rfl

theorem spendAllowance_behind (calls : List Call) (recorder : Recorder) :
    (recorder.behind calls).spendAllowance = recorder.spendAllowance.behind calls := by
  unfold spendAllowance behind
  simp only
  split <;> rfl

/-- Earlier calls make no difference to what is answered and what is taken down. -/
theorem projects_behind (calls : List Call) : Projects (behind calls) where
  now_eq _ := rfl
  supports_eq _ := rfl
  newOscillator_eq waveform recorder := by
    change Recorder.newOscillator waveform (recorder.behind calls) =
      Prod.map id (behind calls) (Recorder.newOscillator waveform recorder)
    unfold Recorder.newOscillator
    rw [spendAllowance_behind, apply_ite (Prod.map id (behind calls))]
    exact if_congr Iff.rfl rfl (create_behind calls _ _)
  newEffect_eq effect recorder := by
    change Recorder.newEffect effect (recorder.behind calls) =
      Prod.map id (behind calls) (Recorder.newEffect effect recorder)
    unfold Recorder.newEffect
    rw [apply_ite (Prod.map id (behind calls))]
    exact if_congr Iff.rfl rfl (create_behind calls _ recorder)
  wire_eq source target recorder := by
    change Recorder.wire source target (recorder.behind calls) =
      Prod.map id (behind calls) (Recorder.wire source target recorder)
    unfold Recorder.wire
    rw [apply_ite (Prod.map id (behind calls)), apply_ite (Prod.map id (behind calls))]
    exact if_congr Iff.rfl rfl (if_congr Iff.rfl rfl
      (congrArg (Prod.mk _) (note_behind calls _ recorder)))
  signal_eq given recorder := note_behind calls (.signal given) recorder

end Recorder

namespace Engine

variable {engine : Engine Recorder}

/-- Whether a track plays does not depend on the calls that have been made. -/
theorem play_clear (name : String) (engine : Engine Recorder) :
    (engine.play name).1 = ((engine.onto Recorder.clear).play name).1 := by
  have hbehind : engine =
      (engine.onto Recorder.clear).onto (Recorder.behind engine.graph.calls) := by
    obtain ⟨⟨scheduler, recorder⟩, book, session, listener⟩ := engine
    simp [onto, Stage.onto, Recorder.behind, Recorder.clear]
  have hplay := congrArg Prod.fst
    (play_onto (Recorder.projects_behind engine.graph.calls) name (engine.onto Recorder.clear))
  rw [← hbehind] at hplay
  exact hplay

/-- Whether a track plays in another songbook depends on the host, and not on what was playing. -/
theorem play_replaceBook (h : engine.Accounted) (book : Songbook) (name : String) :
    ((engine.replaceBook book).play name).1 = ((ofBook book engine.graph).play name).1 := by
  rw [play_clear, play_clear name (ofBook book engine.graph)]
  have hnow := now_stop engine
  have hgraph := congrArg Recorder.clear (graph_stop h)
  have hidle : ((engine.replaceBook book).onto Recorder.clear).session = none :=
    session_replaceBook book engine
  refine play_congr (plan_congr ?_ ?_ name) ?_
  · rfl
  · exact hnow
  · rw [stop_of_idle hidle]
    exact hgraph

end Engine

/-! ## Voices of a track that begins -/

namespace Stage

variable {stage next : Stage Recorder} {looping : Bool} {parts : List PlannedPart}
  {bound : VoiceId}

/-- Every voice that plays has a number from a bound on, and plays one of some parts. -/
def Enacts (bound : VoiceId) (looping : Bool) (parts : List PlannedPart)
    (stage : Stage Recorder) : Prop :=
  ∀ task ∈ stage.scheduler.tasks, bound ≤ task.handle ∧ task.looping = looping ∧
    ∃ part ∈ parts, task.tones = part.tones ∧ Plays stage.graph.calls task.voice part

/-- A part that starts adds a voice that plays it, unless it has no tones. -/
theorem enacts_startPart {part : PlannedPart} {handle : VoiceId} (htidy : stage.Tidy)
    (hbound : bound ≤ stage.scheduler.nextHandle) (hmem : part ∈ parts)
    (h : stage.Enacts bound looping parts)
    (hstarted : stage.startPart looping part = (.ok handle, next)) :
    bound ≤ next.scheduler.nextHandle ∧ next.Enacts bound looping parts := by
  obtain ⟨hhandle, hnext, hextends, htasks⟩ := startPart_ok htidy hstarted
  have hnew : bound ≤ handle := hhandle ▸ hbound
  have hold : ∀ task ∈ stage.scheduler.tasks, bound ≤ task.handle ∧ task.looping = looping ∧
      ∃ part ∈ parts, task.tones = part.tones ∧ Plays next.graph.calls task.voice part := by
    intro task htask
    obtain ⟨hle, hlooping, part, hpart, htones, hplays⟩ := h task htask
    exact ⟨hle, hlooping, part, hpart, htones, hplays.extend hextends⟩
  refine ⟨hnext ▸ Nat.le_succ_of_le hnew, ?_⟩
  intro task htask
  rcases htasks with htasks | ⟨added, htasks, heq, hlooping, htones, hplays⟩
  · exact hold task (htasks ▸ htask)
  · rw [htasks] at htask
    rcases List.mem_append.1 htask with htask | htask
    · exact hold task htask
    · obtain rfl := List.mem_singleton.1 htask
      exact ⟨heq ▸ hnew, hlooping, part, hmem, htones, hplays⟩

/-- So do parts that start one after the other. -/
theorem enacts_startParts {rest : List PlannedPart} {handles started : List VoiceId}
    (htidy : stage.Tidy) (hbound : bound ≤ stage.scheduler.nextHandle)
    (hrest : ∀ part ∈ rest, part ∈ parts) (h : stage.Enacts bound looping parts)
    (hstarted : stage.startParts looping rest handles = ((.ok (), started), next)) :
    next.Enacts bound looping parts := by
  induction rest generalizing handles stage with
  | nil =>
    cases hstarted
    exact h
  | cons part rest ih =>
    have htidied := tidy_startPart looping part htidy
    obtain ⟨hpart, hrest⟩ := List.forall_mem_cons.1 hrest
    unfold startParts at hstarted
    split at hstarted
    · cases hstarted
    · rename_i handle left heq
      rw [heq] at htidied
      obtain ⟨hnext, hmore⟩ := enacts_startPart htidy hbound hpart h heq
      exact ih htidied hnext hrest hmore hstarted

end Stage

/-! ## Nodes that are gone -/

namespace Recorder

variable {voices : List Voice} {recorder later : Recorder} {node : NodeId}

/-- A node that is gone stays so, since nothing is called behind its end. -/
theorem phase_gone (hgone : recorder.phase node = some .gone)
    (hcalls : recorder.calls <+: later.calls) (hlater : (later.phase node).isSome = true) :
    later.phase node = some .gone := by
  obtain ⟨calls, hcalls⟩ := hcalls
  rw [phase] at hgone
  rw [phase, ← hcalls, phaseOf_append, hgone] at hlater ⊢
  obtain ⟨phase, hphase⟩ := Option.isSome_iff_exists.1 hlater
  change NodePhase.gone.follow? _ = _ at hphase
  rw [eq_nil_of_gone_follow? hphase]
  rfl

/-- The record gives every node a phase. -/
theorem Tended.isSome_phase (h : Tended voices [] recorder) (hnode : node ≠ destination) :
    (recorder.phase node).isSome = true := by
  rcases Engine.phase_cases h hnode with hphase | ⟨_, -, -, _, hphase, -⟩ | ⟨-, hphase⟩
  all_goals rw [hphase]; rfl

end Recorder

namespace Engine

variable {engine : Engine Recorder}

/-- The nodes of a voice that plays have not been detached, nor has its oscillator been stopped. -/
theorem unreleased (h : engine.toStage.Tidy) {task : Task}
    (htask : task ∈ engine.scheduler.tasks) :
    (∀ node ∈ task.voice.owned, node ≠ destination ∧ node < engine.graph.nextNode ∧
      engine.graph.timesDetached node = 0) ∧
    .started ∈ history task.voice.oscillator engine.graph.calls ∧
    engine.graph.timesStopped task.voice.oscillator = 0 := by
  have hvoice : task.voice ∈ engine.scheduler.voices := List.mem_map_of_mem htask
  have hsounding := h.tended.playing _ hvoice _
    (h.tended.mem_nodes_of_owned hvoice List.mem_cons_self)
  rw [if_pos rfl] at hsounding
  obtain ⟨hstarted, hstopped⟩ := (past_of_follow? hsounding).counts
  refine ⟨?_, ?_, ?_⟩
  · intro node hmem
    have hnode := h.tended.mem_nodes_of_owned hvoice hmem
    obtain ⟨hne, hlt⟩ := h.tended.known node (List.mem_flatMap.2 ⟨_, hvoice, hnode⟩)
    refine ⟨hne, hlt, ?_⟩
    have hphase := h.tended.playing _ hvoice node hnode
    rw [Recorder.timesDetached_eq, List.count_eq_zero, ← (past_of_follow? hphase).gone]
    split <;> decide
  · exact List.count_pos_iff.1 (hstarted ▸ Nat.one_pos)
  · rw [Recorder.timesStopped_eq, hstopped]

/-! ## Going on in another songbook -/

/-- Asks for a track, if there is one. -/
def resume (track : Option String) (engine : Engine Recorder) : Engine Recorder :=
  match track with
  | none => engine
  | some name => (engine.play name).2

/-- What a new songbook leaves of an engine, which then goes on with its track if it can. -/
structure Renews (book : Songbook) (before left : Engine Recorder) : Prop where
  taken : left.book = book
  /-- The voices that were playing have been released, and then other calls may have been made. -/
  calls : ∃ later, left.graph.calls = before.graph.calls ++ before.releases ++ later
  ended : ∀ task ∈ before.scheduler.tasks, left.scheduler.plays task.handle = false
  detached : ∀ task ∈ before.scheduler.tasks, ∀ node ∈ task.voice.owned,
    before.graph.timesDetached node = 0 ∧ left.graph.timesDetached node = 1
  stopped : ∀ task ∈ before.scheduler.tasks,
    before.graph.timesStopped task.voice.oscillator = 0 ∧
      left.graph.timesStopped task.voice.oscillator = 1
  /-- What is playing was playing, and plays in the new songbook on the same host. -/
  playing : ∀ name, left.playing? = some name ↔
    before.playing? = some name ∧ ((ofBook book before.graph).play name).1 = .ok ()
  /-- Its voices are new ones that play parts of the new songbook. -/
  voices : ∀ name, left.playing? = some name → ∃ track parts,
    book.planTrack name = .ok (track, parts) ∧
      left.toStage.Enacts before.scheduler.nextHandle track.looping parts
  silent : left.playing? = none → left.Silent

section

variable {name : String}

theorem kept_resume {P : Stage Recorder → Prop} (h : Stage.Kept P) (track : Option String)
    (hengine : P engine.toStage) : P (engine.resume track).toStage := by
  cases track with
  | none => exact hengine
  | some name => exact kept_play h name hengine

theorem accounted_resume (track : Option String) (h : engine.Accounted) :
    (engine.resume track).Accounted := by
  cases track with
  | none => exact h
  | some name => exact accounted_play h name

theorem book_resume (track : Option String) (engine : Engine Recorder) :
    (engine.resume track).book = engine.book := by
  cases track with
  | none => rfl
  | some name => exact book_serve (.play name) engine

/-- An idle engine plays what it is asked for, if that plays, and nothing else. -/
theorem playing?_play (hidle : engine.session = none) (other : String) :
    (engine.play name).2.playing? = some other ↔ name = other ∧ (engine.play name).1 = .ok () := by
  rcases play_cases engine name with ⟨error, -, hplay⟩ | ⟨_, _, _, _, -, -, hplay⟩ |
    ⟨_, _, error, _, _, -, -, hplay⟩
  · simp [hplay, playing?, hidle]
  · simp [hplay, playing?]
  · simp [hplay, playing?]

theorem playing?_resume (hidle : engine.session = none) (track : Option String) :
    (engine.resume track).playing? = some name ↔
      track = some name ∧ (engine.play name).1 = .ok () := by
  cases track with
  | none => simp [resume, playing?, hidle]
  | some other =>
    rw [resume, playing?_play hidle, Option.some_inj]
    refine and_congr_right ?_
    rintro rfl
    exact Iff.rfl

/-- The voices of what it plays are those of its parts. -/
theorem enacts_play {bound : VoiceId} (htidy : engine.toStage.Tidy)
    (hidle : engine.session = none) (htasks : engine.scheduler.tasks = [])
    (hbound : bound ≤ engine.scheduler.nextHandle) (hplay : (engine.play name).1 = .ok ()) :
    ∃ track parts, engine.book.planTrack name = .ok (track, parts) ∧
      (engine.play name).2.toStage.Enacts bound track.looping parts := by
  rcases play_cases engine name with ⟨error, -, heq⟩ |
    ⟨track, parts, handles, stage, hplan, hparts, heq⟩ | ⟨_, _, error, _, _, -, -, heq⟩
  · rw [heq] at hplay
    cases hplay
  · refine ⟨track, parts, planTrack_of_plan hplan, ?_⟩
    rw [stop_of_idle hidle] at hparts
    have hnone : engine.toStage.Enacts bound track.looping parts := by
      intro task hmem
      rw [htasks] at hmem
      cases hmem
    rw [heq]
    exact Stage.enacts_startParts htidy hbound (fun _ hmem => hmem) hnone hparts
  · rw [heq] at hplay
    cases hplay

end

/-- Nothing is in use when an engine has stopped. -/
theorem tended_stop (haccounted : engine.Accounted) (htidy : engine.toStage.Tidy) :
    Recorder.Tended [] [] engine.stop.graph := by
  have htended := (kept_stop Stage.kept_tidy htidy).tended
  rwa [Scheduler.voices, haccounted.tasks_stop] at htended

/-- The nodes of the voices that were playing are gone then, and remain so. -/
theorem gone_resume (haccounted : engine.Accounted) (htidy : engine.toStage.Tidy)
    (book : Songbook) (track : Option String) {task : Task}
    (htask : task ∈ engine.scheduler.tasks) {node : NodeId} (hmem : node ∈ task.voice.owned) :
    ((engine.replaceBook book).resume track).graph.phase node = some .gone := by
  obtain ⟨hnode, hlt, -⟩ := (unreleased htidy htask).1 node hmem
  have hgrown : engine.graph.nextNode ≤ engine.stop.graph.nextNode :=
    kept_stop (Recorder.kept_nextNode _).stage (Nat.le_refl _)
  have hgone := (tended_stop haccounted htidy).gone node hnode
    (Nat.lt_of_lt_of_le hlt hgrown) List.not_mem_nil
  have hstopped : (engine.replaceBook book).toStage.Tidy := kept_stop Stage.kept_tidy htidy
  have hleft := kept_resume Stage.kept_tidy track hstopped
  exact Recorder.phase_gone hgone
    (kept_resume (Recorder.kept_calls _).stage track (List.prefix_refl _))
    (hleft.tended.isSome_phase hnode)

/-- What is called then comes behind the calls that end the voices. -/
theorem calls_resume (haccounted : engine.Accounted) (book : Songbook) (track : Option String) :
    engine.graph.calls ++ engine.releases <+:
      ((engine.replaceBook book).resume track).graph.calls := by
  have hstopped : engine.stop.graph.calls = engine.graph.calls ++ engine.releases :=
    congrArg Recorder.calls (graph_stop haccounted)
  exact kept_resume (Recorder.kept_calls _).stage track (hstopped ▸ List.prefix_refl _)

/-- Their oscillators have been stopped. -/
theorem timesStopped_resume (haccounted : engine.Accounted) (htidy : engine.toStage.Tidy)
    (book : Songbook) (track : Option String) {task : Task}
    (htask : task ∈ engine.scheduler.tasks) :
    ((engine.replaceBook book).resume track).graph.timesStopped task.voice.oscillator = 1 := by
  have hgone := gone_resume haccounted htidy book track htask List.mem_cons_self
  obtain ⟨later, hlater⟩ := calls_resume haccounted book track
  have hstarted : Role.started ∈ history task.voice.oscillator
      ((engine.replaceBook book).resume track).graph.calls := by
    rw [← hlater, List.append_assoc, history_append]
    exact List.mem_append_left _ (unreleased htidy htask).2.1
  rw [Recorder.timesStopped_eq, count_stopped_of_gone hgone, if_pos hstarted]

/-- The voices that are heard then play parts of the new songbook. -/
theorem enacts_resume (haccounted : engine.Accounted) (htidy : engine.toStage.Tidy)
    (book : Songbook) {track : Option String} {name : String}
    (h : ((engine.replaceBook book).resume track).playing? = some name) :
    ∃ found parts, book.planTrack name = .ok (found, parts) ∧
      ((engine.replaceBook book).resume track).toStage.Enacts engine.scheduler.nextHandle
        found.looping parts := by
  have hidle := session_replaceBook book engine
  obtain ⟨rfl, hplay⟩ := (playing?_resume hidle track).1 h
  have hstopped : (engine.replaceBook book).toStage.Tidy := kept_stop Stage.kept_tidy htidy
  have hbound : engine.scheduler.nextHandle ≤ (engine.replaceBook book).scheduler.nextHandle :=
    kept_stop (Stage.kept_nextHandle _) (Nat.le_refl _)
  exact enacts_play hstopped hidle haccounted.tasks_stop hbound hplay

theorem silent_resume (haccounted : engine.Accounted) (book : Songbook) {track : Option String}
    (h : ((engine.replaceBook book).resume track).playing? = none) :
    ((engine.replaceBook book).resume track).Silent := by
  have hidle := Option.map_eq_none_iff.1 h
  have hsettled := accounted_resume track (accounted_serve haccounted (.replaceBook book))
  exact .of_pending hidle (hsettled.idle hidle)

/-- None of the voices that are heard then was heard before. -/
theorem plays_resume (haccounted : engine.Accounted) (htidy : engine.toStage.Tidy)
    (book : Songbook) (track : Option String) {task : Task}
    (htask : task ∈ engine.scheduler.tasks) :
    ((engine.replaceBook book).resume track).scheduler.plays task.handle = false := by
  have hbelow := haccounted.coherent.tasks_below htask
  have hnew : ∀ other ∈ ((engine.replaceBook book).resume track).scheduler.tasks,
      other.handle ≠ task.handle := by
    intro other hother
    cases hplaying : ((engine.replaceBook book).resume track).playing? with
    | none =>
      rw [(silent_resume haccounted book hplaying).tasks] at hother
      cases hother
    | some name =>
      obtain ⟨_, _, -, henacts⟩ := enacts_resume haccounted htidy book hplaying
      exact Nat.ne_of_gt (Nat.lt_of_lt_of_le hbelow (henacts other hother).1)
  have hnone := Scheduler.task?_eq_none_iff.2 fun hmem => by
    obtain ⟨other, hother, heq⟩ := List.mem_map.1 hmem
    exact hnew other hother heq
  rw [Scheduler.plays, hnone]
  rfl

/-- Whatever was playing, a new songbook takes its place, and the track goes on if it can. -/
theorem renews_resume (haccounted : engine.Accounted) (htidy : engine.toStage.Tidy)
    (book : Songbook) :
    engine.Renews book ((engine.replaceBook book).resume engine.playing?) where
  taken := book_resume _ _
  calls := by
    obtain ⟨later, hlater⟩ := calls_resume haccounted book engine.playing?
    exact ⟨later, hlater.symm⟩
  ended _ htask := plays_resume haccounted htidy book _ htask
  detached task htask node hmem := by
    refine ⟨((unreleased htidy htask).1 node hmem).2.2, ?_⟩
    rw [Recorder.timesDetached_eq]
    exact count_detached_of_gone (gone_resume haccounted htidy book _ htask hmem)
  stopped task htask :=
    ⟨(unreleased htidy htask).2.2, timesStopped_resume haccounted htidy book _ htask⟩
  playing name := by
    rw [playing?_resume (session_replaceBook book engine), play_replaceBook haccounted]
  voices _ hname := enacts_resume haccounted htidy book hname
  silent hnone := silent_resume haccounted book hnone

end Engine

end Chiptune
