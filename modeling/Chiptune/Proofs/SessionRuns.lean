/-
  Sessions over a whole run.

  The voices that are reported in a run were pending when it began, or they are numbered
  later than that.  So a session that was cut short is never heard of again, and a
  session whose voices loop has none of them reported.
-/
import Chiptune.Proofs.Finishing
import Chiptune.Proofs.Passages

set_option autoImplicit false

namespace Chiptune

open AudioGraph

variable {G : Type} [AudioGraph G]

namespace Engine

variable {engine : Engine G} {turn : Turn G} {turns : List (Turn G)}

/-! ## Voices that are reported -/

theorem ending_subset_pending (h : engine.Accounted) :
    engine.ending ⊆ engine.scheduler.pending :=
  fun _ hmem => h.coherent.ended_subset_pending (now engine.graph) hmem

/-- A turn reports voices that were pending. -/
theorem reported_subset_pending (h : engine.Accounted) (turn : Turn G) :
    engine.reported turn ⊆ engine.scheduler.pending := by
  cases passage h turn with
  | stays _ _ _ _ reported _ => simp [reported]
  | ticks tick _ _ _ => exact tick ▸ ending_subset_pending h
  | finishes tick _ _ _ _ _ _ => exact tick ▸ ending_subset_pending h
  | stops _ _ _ reported _ => simp [reported]
  | begins _ _ _ _ _ reported _ => simp [reported]

/-- Behind a turn that cuts a session short only new voices are pending. -/
theorem pending_take_of_cuts (h : engine.Accounted) (hcuts : engine.cuts turn = true) :
    ∀ voice ∈ (engine.take turn).2.scheduler.pending, engine.scheduler.nextHandle ≤ voice := by
  intro voice hmem
  have hnext := accounted_take turn h
  cases passage h turn with
  | stays uncut _ _ _ _ _ =>
    rw [hcuts] at uncut
    cases uncut
  | ticks tick _ _ _ =>
    rw [tick] at hcuts
    cases hcuts
  | finishes tick _ _ _ _ _ _ =>
    rw [tick] at hcuts
    cases hcuts
  | stops _ session _ _ _ =>
    rw [hnext.idle session] at hmem
    cases hmem
  | begins _ opening session new _ _ _ =>
    exact new voice ((hnext.busy _ session).mem_iff.2 hmem)

/-- Behind any turn those voices are pending that were, and new ones. -/
theorem pending_take (h : engine.Accounted) (turn : Turn G) :
    ∀ voice ∈ (engine.take turn).2.scheduler.pending,
      voice ∈ engine.scheduler.pending ∨ engine.scheduler.nextHandle ≤ voice := by
  intro voice hmem
  have htick : turn = .ask .tick → voice ∈ engine.scheduler.pending := by
    rintro rfl
    rw [take, serve, toStage_tick, h.pending_tick] at hmem
    exact (List.mem_filter.1 hmem).1
  cases passage h turn with
  | stays _ scheduler _ _ _ _ =>
    rw [scheduler] at hmem
    exact Or.inl hmem
  | ticks tick _ _ _ => exact Or.inl (htick tick)
  | finishes tick _ _ _ _ _ _ => exact Or.inl (htick tick)
  | stops cuts _ _ _ _ => exact Or.inr (pending_take_of_cuts h cuts voice hmem)
  | begins cuts _ _ _ _ _ _ => exact Or.inr (pending_take_of_cuts h cuts voice hmem)

/-- What a run reports was pending, or it began later. -/
theorem reports_cases (turns : List (Turn G)) (h : engine.Accounted) :
    ∀ voice ∈ engine.gather reported turns,
      voice ∈ engine.scheduler.pending ∨ engine.scheduler.nextHandle ≤ voice := by
  induction turns generalizing engine with
  | nil => simp
  | cons turn turns ih =>
    intro voice hmem
    rcases List.mem_append.1 hmem with hmem | hmem
    · exact Or.inl (reported_subset_pending h turn hmem)
    · rcases ih (accounted_take turn h) voice hmem with hmem | hle
      · exact pending_take h turn voice hmem
      · exact Or.inr (Nat.le_trans (nextHandle_le_take turn engine) hle)

/-- What a run reports behind a cut began later. -/
theorem reports_of_cuts (turns : List (Turn G)) (h : engine.Accounted)
    (hcuts : engine.cuts turn = true) :
    ∀ voice ∈ (engine.take turn).2.gather reported turns,
      engine.scheduler.nextHandle ≤ voice := by
  intro voice hmem
  rcases reports_cases turns (accounted_take turn h) voice hmem with hmem | hle
  · exact pending_take_of_cuts h hcuts voice hmem
  · exact Nat.le_trans (nextHandle_le_take turn engine) hle

/-- Whatever is reported has been numbered before. -/
theorem reported_below (h : engine.Accounted) (turn : Turn G) :
    ∀ voice ∈ engine.reported turn, voice < engine.scheduler.nextHandle :=
  fun voice hmem => h.coherent.pending_below voice (reported_subset_pending h turn hmem)

theorem nextHandle_le_afterTurns (turns : List (Turn G)) (engine : Engine G) :
    engine.scheduler.nextHandle ≤ (engine.afterTurns turns).scheduler.nextHandle := by
  induction turns generalizing engine with
  | nil => exact Nat.le_refl _
  | cons turn turns ih => exact Nat.le_trans (nextHandle_le_take turn engine) (ih _)

theorem reports_below (turns : List (Turn G)) (h : engine.Accounted) :
    ∀ voice ∈ engine.gather reported turns,
      voice < (engine.afterTurns turns).scheduler.nextHandle := by
  induction turns generalizing engine with
  | nil => simp
  | cons turn turns ih =>
    intro voice hmem
    rcases List.mem_append.1 hmem with hmem | hmem
    · exact Nat.lt_of_lt_of_le (reported_below h turn voice hmem)
        (nextHandle_le_afterTurns (turn :: turns) engine)
    · exact ih (accounted_take turn h) voice hmem

/-- Nothing is reported in a turn that cuts a session short. -/
theorem reported_of_cuts (hcuts : engine.cuts turn = true) : engine.reported turn = [] := by
  cases turn with
  | host change => rfl
  | ask request =>
    cases request with
    | tick => cases hcuts
    | _ => rfl

/-! ## Sessions that begin -/

omit [AudioGraph G] in
/-- The voices of a session have been numbered. -/
theorem Accounted.handles_below (h : engine.Accounted) {session : Session}
    (hsession : engine.session = some session) :
    ∀ voice ∈ session.handles, voice < engine.scheduler.nextHandle := by
  intro voice hmem
  exact h.coherent.pending_below voice ((h.busy session hsession).mem_iff.1 hmem)

/-- A session that begins is new, and it is the one that an engine has then. -/
theorem of_mem_opened (h : engine.Accounted) {opening : Opening}
    (hmem : opening ∈ engine.opened turn) :
    engine.cuts turn = true ∧ (engine.take turn).2.session = some opening.session ∧
      ∀ voice ∈ opening.voices, engine.scheduler.nextHandle ≤ voice := by
  cases passage h turn with
  | stays _ _ _ opened _ _ => simp [opened] at hmem
  | ticks tick _ _ _ =>
    rw [tick] at hmem
    cases hmem
  | finishes tick _ _ _ _ _ _ =>
    rw [tick] at hmem
    cases hmem
  | stops _ _ opened _ _ => simp [opened] at hmem
  | begins cuts other session new opened _ _ =>
    rw [opened] at hmem
    obtain rfl := List.mem_singleton.1 hmem
    exact ⟨cuts, session, new⟩

/-- Sessions that begin in a run have new voices. -/
theorem openings_new (turns : List (Turn G)) (h : engine.Accounted) :
    ∀ opening ∈ engine.gather opened turns, ∀ voice ∈ opening.voices,
      engine.scheduler.nextHandle ≤ voice := by
  induction turns generalizing engine with
  | nil => simp
  | cons turn turns ih =>
    intro opening hmem voice hvoice
    rcases List.mem_append.1 hmem with hmem | hmem
    · exact (of_mem_opened h hmem).2.2 voice hvoice
    · exact Nat.le_trans (nextHandle_le_take turn engine)
        (ih (accounted_take turn h) opening hmem voice hvoice)

/-- When the run is over they have been numbered. -/
theorem openings_below (turns : List (Turn G)) (h : engine.Accounted) :
    ∀ opening ∈ engine.gather opened turns, ∀ voice ∈ opening.voices,
      voice < (engine.afterTurns turns).scheduler.nextHandle := by
  induction turns generalizing engine with
  | nil => simp
  | cons turn turns ih =>
    intro opening hmem voice hvoice
    have hnext := accounted_take turn h
    rcases List.mem_append.1 hmem with hmem | hmem
    · obtain ⟨-, hsession, -⟩ := of_mem_opened h hmem
      exact Nat.lt_of_lt_of_le (hnext.handles_below hsession voice hvoice)
        (nextHandle_le_afterTurns turns _)
    · exact ih hnext opening hmem voice hvoice

/-- What every turn tells of is told of by a run. -/
theorem forall_mem_gather {α : Type} {tell : Turn G → Engine G → List α} {P : α → Prop}
    (hstep : ∀ (turn : Turn G) {engine : Engine G}, engine.Accounted →
      ∀ item ∈ tell turn engine, P item)
    (turns : List (Turn G)) (h : engine.Accounted) : ∀ item ∈ engine.gather tell turns, P item := by
  induction turns generalizing engine with
  | nil => simp
  | cons turn turns ih =>
    intro item hmem
    rcases List.mem_append.1 hmem with hmem | hmem
    · exact hstep turn h item hmem
    · exact ih (accounted_take turn h) item hmem

/-- A session has one voice for each part. -/
theorem length_of_opened (h : engine.Accounted) {opening : Opening}
    (hmem : opening ∈ engine.opened turn) : opening.voices.length = opening.parts.length := by
  obtain ⟨name, track, parts, handles, stage, -, -, hparts, -, rfl⟩ := exists_of_mem_opened hmem
  obtain ⟨hlength, -⟩ := Stage.startParts_ok (h.loops_stop track.looping) hparts
  simpa using hlength

/-- No voice belongs to a session twice. -/
theorem nodup_of_opened (h : engine.Accounted) {opening : Opening}
    (hmem : opening ∈ engine.opened turn) : opening.voices.Nodup := by
  have hnext := accounted_take turn h
  obtain ⟨-, hsession, -⟩ := of_mem_opened h hmem
  exact (hnext.busy _ hsession).nodup_iff.2 hnext.coherent.pending_nodup

/-- No voice belongs to two sessions. -/
theorem openings_apart (turns : List (Turn G)) (h : engine.Accounted) :
    (engine.gather opened turns).Pairwise fun opening other =>
      ∀ voice ∈ opening.voices, voice ∉ other.voices := by
  induction turns generalizing engine with
  | nil => exact List.Pairwise.nil
  | cons turn turns ih =>
    have hnext := accounted_take turn h
    refine List.pairwise_append.2 ⟨?_, ih hnext, ?_⟩
    · cases passage h turn with
      | stays _ _ _ opened _ _ => simp [opened]
      | ticks tick _ _ _ =>
        subst tick
        exact List.Pairwise.nil
      | finishes tick _ _ _ _ _ _ =>
        subst tick
        exact List.Pairwise.nil
      | stops _ _ opened _ _ => simp [opened]
      | begins _ _ _ _ opened _ _ => simp [opened]
    · intro opening hmem other hother voice hvoice hin
      obtain ⟨-, hsession, -⟩ := of_mem_opened h hmem
      have hlt := hnext.handles_below hsession voice hvoice
      exact Nat.not_lt_of_le (openings_new turns hnext other hother voice hin) hlt

end Engine

/-! ## Sessions that loop -/

namespace Scheduler

variable {scheduler : Scheduler}

/-- No voice will ever end: all of them loop, and none has ended early. -/
structure Endless (scheduler : Scheduler) : Prop where
  early : scheduler.endedEarly = []
  loops : scheduler.Loops true

/-- A loop without tones is stuck at any time. -/
theorem isStuckLoop_nil (now : Seconds) : isStuckLoop now (Tone.totalLength []) = true := by
  have hlength : decide (Tone.totalLength [] ≤ 0) = true := by decide +kernel
  rw [isStuckLoop, hlength, Bool.true_or]

theorem endless_start (now : Seconds) (voice : Voice) (tones : List Tone) (announced : Bool)
    (h : scheduler.Endless) : (scheduler.start now voice tones true announced).2.Endless := by
  refine ⟨?_, loops_start now voice tones announced h.loops⟩
  rcases start_cases now voice tones true announced scheduler with
    ⟨-, -, hstart⟩ | ⟨hfree, rfl, -⟩ | ⟨-, -, hstart⟩
  · rw [hstart]
    exact h.early
  · rw [isStuckLoop_nil] at hfree
    cases hfree
  · rw [hstart]
    exact h.early

/-- The timers of voices that loop end none of them. -/
theorem ended_fireAll_of_loops (now : Seconds) (epoch : Nat) (timers : List Timer)
    {tasks : List Task} (h : ∀ task ∈ tasks, task.looping = true) :
    (fireAll now epoch timers tasks).ended = [] := by
  induction timers generalizing tasks with
  | nil => rfl
  | cons timer timers ih =>
    have hnext : ∀ task ∈ (fire now epoch timer tasks).tasks, task.looping = true := by
      intro task hmem
      obtain ⟨before, hbefore, heq⟩ := mem_fire_tasks hmem
      rw [heq]
      exact h before hbefore
    rw [fireAll, ih hnext, List.append_nil]
    rcases fire_cases now epoch timer tasks with
      ⟨-, hfire⟩ | ⟨task, -, -, -, hfire⟩ | ⟨task, hlive, -, hlooping, -⟩
    · rw [hfire]
    · rw [hfire]
    · have hmem := mem_of_task? (task?_of_liveTask? hlive).1
      rw [h task hmem] at hlooping
      cases hlooping

theorem Endless.poll (h : scheduler.Endless) (now : Seconds) :
    (scheduler.poll now).1.ended = [] ∧ (scheduler.poll now).2.Endless := by
  refine ⟨?_, rfl, loops_poll now h.loops⟩
  rw [poll_eq, firing, ended_fireAll_of_loops now _ _ h.loops, h.early]
  rfl

end Scheduler

theorem Stage.endless_startPart (part : PlannedPart) {stage : Stage G}
    (h : stage.scheduler.Endless) : (stage.startPart true part).2.scheduler.Endless := by
  cases hbuilt : NodeChain.build part.instrument destination stage.graph with
  | mk outcome graph =>
  cases outcome with
  | error fault =>
    unfold startPart
    rw [hbuilt]
    exact h
  | ok chain =>
    rw [startPart_of_build hbuilt]
    exact Scheduler.endless_start (now graph) ⟨chain⟩ part.tones false h

namespace Engine

variable {engine : Engine G} {turn : Turn G} {turns : List (Turn G)}

/-- As long as it is not cut short, a session without end reports nothing. -/
theorem endless_take (h : engine.Accounted) (hendless : engine.scheduler.Endless)
    (huncut : engine.cuts turn = false) :
    engine.reported turn = [] ∧ (engine.take turn).2.scheduler.Endless := by
  have htick : turn = .ask .tick →
      engine.reported turn = [] ∧ (engine.take turn).2.scheduler.Endless := by
    rintro rfl
    rw [take, serve, toStage_tick]
    exact hendless.poll (now engine.graph)
  cases passage h turn with
  | stays _ scheduler _ _ reported _ => exact ⟨reported, scheduler ▸ hendless⟩
  | ticks tick _ _ _ => exact htick tick
  | finishes tick _ _ _ _ _ _ => exact htick tick
  | stops cuts _ _ _ _ =>
    rw [huncut] at cuts
    cases cuts
  | begins cuts _ _ _ _ _ _ =>
    rw [huncut] at cuts
    cases cuts

theorem reports_of_endless (turns : List (Turn G)) (h : engine.Accounted)
    (hendless : engine.scheduler.Endless) :
    ∀ voice ∈ engine.gather reported turns, engine.scheduler.nextHandle ≤ voice := by
  induction turns generalizing engine with
  | nil => simp
  | cons turn turns ih =>
    intro voice hmem
    cases hcuts : engine.cuts turn with
    | true =>
      rw [gather_cons, reported_of_cuts hcuts] at hmem
      exact reports_of_cuts turns h hcuts voice hmem
    | false =>
      obtain ⟨hnone, hnext⟩ := endless_take h hendless hcuts
      rw [gather_cons, hnone] at hmem
      exact Nat.le_trans (nextHandle_le_take turn engine)
        (ih (accounted_take turn h) hnext voice hmem)

/-- A track that loops has a session without end. -/
theorem endless_of_opened (h : engine.Accounted) {opening : Opening}
    (hmem : opening ∈ engine.opened turn) (hlooping : opening.looping = true) :
    (engine.take turn).2.scheduler.Endless := by
  obtain ⟨name, track, parts, handles, stage, rfl, -, hparts, hplay, rfl⟩ :=
    exists_of_mem_opened hmem
  obtain ⟨-, hearly⟩ := List.append_eq_nil_iff.1 h.pending_stop
  have hstop : engine.stop.scheduler.Endless := ⟨hearly, h.loops_stop true⟩
  have hstarted := Stage.startParts_keep (P := fun stage => stage.scheduler.Endless)
    (fun part _ hstage => Stage.endless_startPart part hstage) parts [] hstop
  change track.looping = true at hlooping
  rw [hlooping] at hparts
  rw [hparts] at hstarted
  rw [take, serve, hplay]
  exact hstarted

/-- None of its voices is ever reported. -/
theorem not_reported_of_looping (turns : List (Turn G)) (h : engine.Accounted) :
    ∀ opening ∈ engine.gather opened turns, opening.looping = true →
      ∀ voice ∈ opening.voices, voice ∉ engine.gather reported turns := by
  induction turns generalizing engine with
  | nil => simp
  | cons turn turns ih =>
    intro opening hmem hlooping voice hvoice hreported
    have hnext := accounted_take turn h
    rcases List.mem_append.1 hmem with hmem | hmem
    · obtain ⟨hcuts, hsession, -⟩ := of_mem_opened h hmem
      rw [gather_cons, reported_of_cuts hcuts] at hreported
      have hle := reports_of_endless turns hnext (endless_of_opened h hmem hlooping) voice hreported
      exact Nat.not_lt_of_le hle (hnext.handles_below hsession voice hvoice)
    · rcases List.mem_append.1 hreported with hreported | hreported
      · have hle := openings_new turns hnext opening hmem voice hvoice
        have hlt := reported_below h turn voice hreported
        exact Nat.not_lt_of_le (Nat.le_trans (nextHandle_le_take turn engine) hle) hlt
      · exact ih hnext opening hmem hlooping voice hvoice hreported

end Engine

end Chiptune
