/-
  Steps of frequency that never go back.

  As long as one voice only drives an oscillator, its steps are those of the passes of this
  voice, and so they come in the order of their times over the whole run, across all passes.
  Voices that are built have oscillators of their own; but a chain may be handed over twice, and
  then the steps of one voice may be set before those of the other.
-/
import Chiptune.Proofs.LoopTimes
import Mathlib.Data.List.Flatten

set_option autoImplicit false

namespace Chiptune

open AudioGraph
open Scheduler (Pass passesOf)

/-! ## The steps of one oscillator -/

theorem length_onsets (anchor cursor : Seconds) (tones : List Tone) :
    (onsets anchor cursor tones).length = tones.length := by
  induction tones generalizing cursor with
  | nil => rfl
  | cons tone tones ih => rw [onsets, List.length_cons, List.length_cons, ih]

/-- The times at which an oscillator is stepped. -/
def timesOn (oscillator : NodeId) (tunings : List (NodeId × Float × Seconds)) : List Seconds :=
  (tunings.filter (·.1 == oscillator)).map (·.2.2)

namespace Scheduler.Pass

/-- A pass steps to the tones of its voice, each at its time. -/
theorem tunings_eq (pass : Pass) :
    pass.tunings = (pass.task.tones.zip pass.times).map fun (tone, time) =>
      (pass.task.voice.oscillator, tone.hz, time) :=
  (List.map_uncurry_zip_eq_zipWith ..).symm

theorem mem_times_of_mem_tunings {pass : Pass} {tuning : NodeId × Float × Seconds}
    (h : tuning ∈ pass.tunings) : tuning.2.2 ∈ pass.times := by
  rw [tunings_eq] at h
  obtain ⟨pair, hpair, rfl⟩ := List.mem_map.1 h
  exact (List.of_mem_zip hpair).2

/-- A pass steps its own oscillator, at its times. -/
theorem timesOn_tunings (oscillator : NodeId) (pass : Pass) :
    timesOn oscillator pass.tunings =
      if pass.task.voice.oscillator = oscillator then pass.times else [] := by
  have hlength : pass.times.length ≤ pass.task.tones.length :=
    Nat.le_of_eq (length_onsets pass.anchor 0 pass.task.tones)
  rw [timesOn, tunings_eq, List.filter_map, List.map_map]
  split
  · rename_i heq
    exact (congrArg _ (List.filter_eq_self.2 fun _ _ => beq_iff_eq.2 heq)).trans
      (List.map_snd_zip hlength)
  · rename_i hne
    exact List.map_eq_nil_iff.2 (List.filter_eq_nil_iff.2 fun _ _ hown =>
      hne (beq_iff_eq.1 hown))

/-- An oscillator is stepped at the times of the passes that are its own. -/
theorem timesOn_flatMap (oscillator : NodeId) (passes : List Pass) :
    timesOn oscillator (passes.flatMap tunings) =
      (passes.filter (·.task.voice.oscillator == oscillator)).flatMap times := by
  induction passes with
  | nil => rfl
  | cons pass passes ih =>
    have hsplit : timesOn oscillator ((pass :: passes).flatMap tunings) =
        timesOn oscillator pass.tunings ++ timesOn oscillator (passes.flatMap tunings) := by
      simp only [timesOn, List.flatMap_cons, List.filter_append, List.map_append]
    rw [hsplit, ih, timesOn_tunings, List.filter_cons]
    simp only [beq_iff_eq]
    split
    · rw [List.flatMap_cons]
    · rw [List.nil_append]

end Scheduler.Pass

namespace Stage

variable {stage : Stage Recorder} {entries : List Entry} {entry : Entry} {oscillator : NodeId}

/-- How many voices are handed over that drive an oscillator. -/
def handedOver (oscillator : NodeId) (voices : List Voice) : Nat :=
  voices.countP (·.oscillator == oscillator)

/-- The handles of the voices that drive an oscillator: no more than have been handed over. -/
structure Driven (oscillator : NodeId) (entries : List Entry) (scheduler : Scheduler)
    (handles : List VoiceId) : Prop where
  count : handles.length ≤ handedOver oscillator (entries.filterMap (·.move.voice?))
  passes : ∀ pass ∈ passesIn entries, pass.task.voice.oscillator = oscillator →
    pass.task.handle ∈ handles
  tasks : ∀ task ∈ scheduler.tasks, task.voice.oscillator = oscillator → task.handle ∈ handles

/-- With one more entry, at most the voice that its move hands over drives the oscillator in
addition. -/
theorem Driven.concat {scheduler next : Scheduler} {handles handles' : List VoiceId}
    (h : Driven oscillator entries scheduler handles) (hkept : handles ⊆ handles')
    (hcount : handles'.length ≤
      handles.length + handedOver oscillator entry.move.voice?.toList)
    (hpasses : ∀ pass ∈ entry.passes, pass.task.voice.oscillator = oscillator →
      pass.task.handle ∈ handles')
    (htasks : ∀ task ∈ next.tasks, task.voice.oscillator = oscillator →
      task.handle ∈ handles') :
    Driven oscillator (entries ++ [entry]) next handles' where
  count := by
    have hlast : [entry].filterMap (·.move.voice?) = entry.move.voice?.toList := by
      cases hvoice : entry.move.voice? <;> simp [hvoice]
    rw [handedOver, List.filterMap_append, List.countP_append, hlast]
    exact Nat.le_trans hcount (Nat.add_le_add_right h.count _)
  passes := by
    rw [passesIn_concat]
    exact List.forall_mem_append.2 ⟨fun pass hmem hown => hkept (h.passes pass hmem hown), hpasses⟩
  tasks := htasks

/-- The handle of a voice joins those of an oscillator if this is the one that it drives. -/
theorem exists_handles (oscillator : NodeId) (handles : List VoiceId) (task : Task) :
    ∃ handles' : List VoiceId, handles ⊆ handles' ∧
      handles'.length ≤ handles.length + handedOver oscillator [task.voice] ∧
      (task.voice.oscillator = oscillator → task.handle ∈ handles') := by
  by_cases heq : task.voice.oscillator = oscillator
  · refine ⟨task.handle :: handles, List.subset_cons_self _ _, ?_, fun _ => List.mem_cons_self⟩
    simp [handedOver, heq]
  · exact ⟨handles, List.Subset.refl _, Nat.le_add_right _ _, fun hown => absurd hown heq⟩

theorem driven_perform {handles : List VoiceId} (hcoherent : stage.scheduler.Coherent)
    (h : Driven oscillator entries stage.scheduler handles) (move : Move) :
    ∃ handles, Driven oscillator (entries ++ [stage.entry move])
      (move.perform stage).scheduler handles := by
  have hsame := List.Subset.refl handles
  rcases move_cases move stage with hquiet | ⟨task, hstarts⟩ | rfl
  · refine ⟨handles, h.concat hsame (Nat.le_add_right _ _) (fun pass hmem => ?_)
      fun task hmem => h.tasks task (hquiet.tasks hmem)⟩
    rw [entry, hquiet.passes] at hmem
    cases hmem
  · obtain ⟨handles', hkept, hcount, hown⟩ := exists_handles oscillator handles task
    refine ⟨handles', h.concat hkept ?_ ?_ ?_⟩
    · rw [entry, hstarts.voice]
      exact hcount
    · rw [entry, hstarts.passes]
      exact List.forall_mem_singleton.2 hown
    · rw [hstarts.tasks]
      exact List.forall_mem_append.2 ⟨fun other hmem heq => hkept (h.tasks other hmem heq),
        List.forall_mem_singleton.2 hown⟩
  · refine ⟨handles, h.concat hsame (Nat.le_add_right _ _) (fun pass hmem => ?_)
      fun task hmem hown => ?_⟩
    · exact h.tasks pass.task (hcoherent.of_mem_begunAt hmem).1
    · rcases hcoherent.mem_poll_tasks hmem with ⟨pass, hpass, rfl⟩ | ⟨hbefore, -⟩
      · exact h.tasks pass.task (hcoherent.of_mem_begunAt hpass).1 hown
      · exact h.tasks task hbefore hown

theorem driven_afterMoves (moves : List Move) {handles : List VoiceId}
    (hcoherent : stage.scheduler.Coherent)
    (h : Driven oscillator entries stage.scheduler handles) :
    ∃ handles, Driven oscillator (entries ++ log moves stage)
      (afterMoves moves stage).scheduler handles := by
  induction moves generalizing entries stage handles with
  | nil =>
    rw [log, List.append_nil]
    exact ⟨handles, h⟩
  | cons move moves ih =>
    obtain ⟨handles, hnext⟩ := driven_perform hcoherent h move
    rw [log, ← List.singleton_append, ← List.append_assoc]
    exact ih (coherent_move move hcoherent) hnext

/-- What is stepped for one voice comes in the order of the times. -/
theorem Timed.times_pairwise {scheduler : Scheduler} (h : Timed entries scheduler)
    (handle : VoiceId) :
    ((passesOf handle (passesIn entries)).flatMap Pass.times).Pairwise (· ≤ ·) := by
  have htimely : ∀ pass ∈ passesOf handle (passesIn entries), pass.Timely :=
    fun pass hmem => h.timely pass (List.mem_filter.1 hmem).1
  refine List.pairwise_flatMap.2 ⟨fun pass hmem => (htimely pass hmem).times.1, ?_⟩
  refine (h.apart handle).imp_of_mem fun {pass later} hpass hlater hended => ?_
  intro time hmem time' hmem'
  have hbefore := ((htimely pass hpass).times.2 time hmem).2
  have hbehind := ((htimely later hlater).times.2 time' hmem').1
  exact Seconds.le_trans hbefore (Seconds.le_trans hended hbehind)

/-- One voice at most drives an oscillator: the passes that step it are all of this voice. -/
def DrivenByOne (oscillator : NodeId) (entries : List Entry) : Prop :=
  ∃ handle, ∀ pass ∈ passesIn entries, pass.task.voice.oscillator = oscillator →
    pass.task.handle = handle

theorem Driven.drivenByOne {scheduler : Scheduler} {handles : List VoiceId}
    (h : Driven oscillator entries scheduler handles) (hone : handles.length ≤ 1) :
    DrivenByOne oscillator entries := by
  match handles, hone with
  | [], _ =>
    exact ⟨0, fun pass hmem hown => absurd (h.passes pass hmem hown) List.not_mem_nil⟩
  | [handle], _ =>
    exact ⟨handle, fun pass hmem hown => List.mem_singleton.1 (h.passes pass hmem hown)⟩

/-- The steps of an oscillator that one voice drives are among those of this voice. -/
theorem Timed.timesOn_pairwise {scheduler : Scheduler} (h : Timed entries scheduler)
    (hone : DrivenByOne oscillator entries)
    (htunings : ∀ entry ∈ entries, entry.tunings = entry.passes.flatMap Pass.tunings) :
    (timesOn oscillator (entries.flatMap (·.tunings))).Pairwise (· ≤ ·) := by
  obtain ⟨handle, hhandle⟩ := hone
  have hamong : (passesIn entries).filter (·.task.voice.oscillator == oscillator) =
      (passesOf handle (passesIn entries)).filter (·.task.voice.oscillator == oscillator) := by
    rw [passesOf, List.filter_filter]
    refine List.filter_congr fun pass hmem => ?_
    rw [Bool.eq_iff_iff, Bool.and_eq_true, beq_iff_eq, beq_iff_eq]
    exact ⟨fun hown => ⟨hown, hhandle pass hmem hown⟩, And.left⟩
  have hall : entries.flatMap (·.tunings) = (passesIn entries).flatMap Pass.tunings := by
    rw [passesIn, List.flatMap_assoc]
    exact List.flatMap_congr htunings
  rw [hall, Pass.timesOn_flatMap, hamong]
  exact (h.times_pairwise handle).sublist (List.filter_sublist.flatMap _)

/-! ## Runs -/

/-- What a log shows when the clock has not gone back. -/
structure KeepsTime (entries : List Entry) : Prop where
  /-- The steps that a move makes are those of the passes that begin with it. -/
  programmed : ∀ entry ∈ entries, entry.tunings = entry.passes.flatMap Pass.tunings
  /-- A pass begins from the time that is read. -/
  anchored : ∀ entry ∈ entries, ∀ pass ∈ entry.passes, pass.anchor = entry.reading
  /-- No step is set for a time before the one that is read. -/
  ahead : ∀ entry ∈ entries, ∀ tuning ∈ entry.tunings, entry.reading ≤ tuning.2.2
  /-- What is stepped for one voice comes in the order of the times, across all its passes. -/
  ordered : ∀ handle, ((passesOf handle (passesIn entries)).flatMap Pass.times).Pairwise (· ≤ ·)
  /-- A pass that begins at a poll resumes one that had ended, which no earlier poll had found. -/
  resumed : ∀ before entry, before ++ [entry] <+: entries → entry.move.isPoll = true →
    ∀ pass ∈ entry.passes, Resumes before pass

theorem programmed_log (moves : List Move) (stage : Stage Recorder) :
    ∀ entry ∈ log moves stage, entry.tunings = entry.passes.flatMap Pass.tunings ∧
      ∀ pass ∈ entry.passes, pass.anchor = entry.reading := by
  induction moves generalizing stage with
  | nil => exact nofun
  | cons move moves ih =>
    refine List.forall_mem_cons.2 ⟨⟨tunings_entry move stage, fun pass hmem => ?_⟩, ih _⟩
    exact anchor_of_mem_passes hmem

theorem Timed.keepsTime {scheduler : Scheduler} (h : Timed entries scheduler)
    (hlog : ∀ entry ∈ entries, entry.tunings = entry.passes.flatMap Pass.tunings ∧
      ∀ pass ∈ entry.passes, pass.anchor = entry.reading) : KeepsTime entries where
  programmed := fun entry hmem => (hlog entry hmem).1
  anchored := fun entry hmem => (hlog entry hmem).2
  ahead := by
    intro entry hmem tuning htuning
    obtain ⟨htunings, hanchor⟩ := hlog entry hmem
    rw [htunings] at htuning
    obtain ⟨pass, hpass, hown⟩ := List.mem_flatMap.1 htuning
    have htimely := h.timely pass (List.mem_flatMap.2 ⟨entry, hmem, hpass⟩)
    rw [← hanchor pass hpass]
    exact (htimely.times.2 _ (Pass.mem_times_of_mem_tunings hown)).1
  ordered := h.times_pairwise
  resumed := h.resumed

/-- A scheduler that has started nothing keeps to the empty log. -/
theorem timed_nil : Timed [] .empty where
  coherent := Scheduler.coherent_empty
  numeric := nofun
  below := nofun
  timely := nofun
  apart := fun _ => .nil
  waiting := nofun
  resumed := by
    intro before entry hfront
    exact absurd (List.prefix_nil.1 hfront) (by simp)

/-- Of the voices that are built, one at most drives an oscillator. -/
theorem handedOver_built_le (moves : List Move) (stage : Stage Recorder) (oscillator : NodeId) :
    handedOver oscillator (built moves stage) ≤ 1 := by
  have hcount := List.nodup_iff_count_le_one.1 (built_apart moves stage).1 oscillator
  rwa [List.count, List.countP_map] at hcount

theorem handedOver_log (moves : List Move) (stage : Stage Recorder) :
    (log moves stage).filterMap (·.move.voice?) = moves.filterMap (·.voice?) := by
  have hmoves : (log moves stage).map (·.move) = moves := by
    induction moves generalizing stage with
    | nil => rfl
    | cons move moves ih => rw [log, List.map_cons, ih]; rfl
  rw [← congrArg (List.filterMap (·.voice?)) hmoves, List.filterMap_map]
  rfl

/-- One voice at most drives an oscillator that is handed over once, and so it is when voices are
handed over that have been built, each of them once. -/
theorem drivenByOne_log (moves : List Move) (recorder : Recorder)
    (h : handedOver oscillator (moves.filterMap (·.voice?)) ≤ 1 ∨
      (moves.filterMap (·.voice?)).Subperm (built moves ⟨.empty, recorder⟩)) :
    DrivenByOne oscillator (log moves ⟨.empty, recorder⟩) := by
  have honce : handedOver oscillator (moves.filterMap (·.voice?)) ≤ 1 := by
    rcases h with honce | hbuilt
    · exact honce
    · exact Nat.le_trans (hbuilt.countP_le _)
        (handedOver_built_le moves ⟨.empty, recorder⟩ oscillator)
  have hstart : Driven oscillator [] Scheduler.empty [] := ⟨Nat.zero_le _, nofun, nofun⟩
  obtain ⟨handles, hdriven⟩ :=
    @driven_afterMoves ⟨.empty, recorder⟩ [] oscillator moves [] Scheduler.coherent_empty hstart
  have hcount := hdriven.count
  rw [List.nil_append, handedOver_log] at hcount
  exact hdriven.drivenByOne (Nat.le_trans hcount honce)

/-- **Steps of frequency never go back.**  Whatever is built, started, cancelled and polled on a
recorder, as long as the clock does not go back between the moves that step frequencies by it,
and no deadline is undefined: all that is recorded are the steps of the passes, each of which
begins from the time that is read and sets no step before it, and what is stepped for a voice
comes in the order of the times over the whole run.  So it does on an oscillator that one voice
only drives, as it is when the oscillator is handed over once, or when voices are handed over that
have been built, each of them once.  A pass that a poll begins follows the last one of its voice,
which has ended by then and had not at any poll in between; so it is late by less than the time
since the last poll. -/
theorem keepsTime_log (moves : List Move) (recorder : Recorder)
    (hsteady : Steady (log moves ⟨.empty, recorder⟩)) :
    KeepsTime (log moves ⟨.empty, recorder⟩) ∧
    (afterMoves moves ⟨.empty, recorder⟩).graph.tunings =
      recorder.tunings ++ (log moves ⟨.empty, recorder⟩).flatMap (·.tunings) ∧
    (∀ oscillator, DrivenByOne oscillator (log moves ⟨.empty, recorder⟩) →
      (timesOn oscillator ((log moves ⟨.empty, recorder⟩).flatMap (·.tunings))).Pairwise
        (· ≤ ·)) ∧
    ∀ oscillator, handedOver oscillator (moves.filterMap (·.voice?)) ≤ 1 ∨
        (moves.filterMap (·.voice?)).Subperm (built moves ⟨.empty, recorder⟩) →
      DrivenByOne oscillator (log moves ⟨.empty, recorder⟩) := by
  have hprogrammed := programmed_log moves ⟨.empty, recorder⟩
  have htimed : Timed (log moves ⟨.empty, recorder⟩) _ :=
    @Timed.afterMoves ⟨.empty, recorder⟩ [] moves timed_nil hsteady
  refine ⟨htimed.keepsTime hprogrammed, tunings_afterMoves moves ⟨.empty, recorder⟩,
    fun oscillator hone => ?_, fun oscillator => drivenByOne_log moves recorder⟩
  exact htimed.timesOn_pairwise hone fun entry hmem => (hprogrammed entry hmem).1

/-- A loop of half a second in two tones, which is polled early, a tenth of a second late and
again as late. -/
def lateLoop : List Move :=
  [.build (.plain .square) destination,
    .take (.start ⟨⟨1, 1, [1]⟩⟩ [⟨440, .ofFloat 0.25⟩, ⟨220, .ofFloat 0.25⟩] true false),
    .take (.setClock (.ofFloat 0.25)), .take .poll,
    .take (.setClock (.ofFloat 0.6)), .take .poll,
    .take (.setClock (.ofFloat 1.2)), .take .poll]

/-- The loop begins again at the polls that find it ended, and not where it should have. -/
theorem keepsTime_lateLoop :
    let entries := log lateLoop ⟨.empty, .fresh⟩
    let steps := timesOn 1 (entries.flatMap (·.tunings))
    Steady entries ∧ KeepsTime entries ∧ steps.Pairwise (· ≤ ·) ∧
      steps = [.ofFloat 0, .ofFloat 0.25, .ofFloat 0.6, .ofFloat 0.85, .ofFloat 1.2,
        .ofFloat 1.45] := by
  have hsteady : Steady (log lateLoop ⟨.empty, .fresh⟩) := by decide +kernel
  obtain ⟨hkeeps, -, hordered, hone⟩ := keepsTime_log lateLoop .fresh hsteady
  exact ⟨hsteady, hkeeps, hordered 1 (hone 1 (.inr (by decide +kernel))), by decide +kernel⟩

/-- A chain that is built once and handed over twice, with two tones of a quarter of a second, the
second time when an eighth of a second has passed. -/
def chainTwice : List Move :=
  [.build (.plain .square) destination,
    .take (.start ⟨⟨1, 1, [1]⟩⟩ [⟨440, .ofFloat 0.25⟩, ⟨220, .ofFloat 0.25⟩] false false),
    .take (.setClock (.ofFloat 0.125)),
    .take (.start ⟨⟨1, 1, [1]⟩⟩ [⟨440, .ofFloat 0.25⟩, ⟨220, .ofFloat 0.25⟩] false false)]

/-- Two voices with one chain step their oscillator back, while the clock goes forward. -/
theorem not_pairwise_chainTwice :
    let entries := log chainTwice ⟨.empty, .fresh⟩
    let steps := timesOn 1 (entries.flatMap (·.tunings))
    Steady entries ∧
      (∀ voice ∈ chainTwice.filterMap (·.voice?), voice ∈ built chainTwice ⟨.empty, .fresh⟩) ∧
      steps = [.ofFloat 0, .ofFloat 0.25, .ofFloat 0.125, .ofFloat 0.375] ∧
      ¬ steps.Pairwise (· ≤ ·) := by
  decide +kernel

end Stage

end Chiptune
