/-
  What an oscillator plays, told by all that has been asked of it.

  Steps of frequency may be issued in any order of their times, also for a time that has
  passed and several for one time, and samples are taken in between.  What is heard at a
  sample depends on the steps issued so far alone: on the latest one that is not later,
  and for one time on the step that was issued last.  The queue keeps of all these steps
  what later samples will need.  This is the invariant below: whatever time is sampled
  next, the queue and the frequency that was applied last give what the history gives.
-/
import Chiptune.Proofs.StepQueue

set_option autoImplicit false

namespace Chiptune.Oscillator

/-! ## Requests -/

/-- What is asked of an oscillator. -/
inductive Request where
  | start (time : Float)
  | stop (time : Float)
  | tune (hz : Float32) (time : Float)
  | sample (time : Float)
  deriving DecidableEq

/-- What a request makes of an oscillator. -/
def perform (request : Request) (oscillator : Oscillator) : Oscillator :=
  match request with
  | .start time => oscillator.start time
  | .stop time => oscillator.stop time
  | .tune hz time => oscillator.tune hz time
  | .sample time => (oscillator.sampleAt time).2

/-- Answers requests in order. -/
def after (requests : List Request) (oscillator : Oscillator) : Oscillator :=
  requests.foldl (fun oscillator request => oscillator.perform request) oscillator

/-- The steps that were issued, in the order of their issue. -/
def issued (requests : List Request) : List FrequencyStep :=
  requests.filterMap fun
    | .tune hz time => some ⟨time, hz⟩
    | _ => none

/-- The times that were sampled. -/
def sampled (requests : List Request) : List Float :=
  requests.filterMap fun
    | .sample time => some time
    | _ => none

/-- The issued steps that a sample has come to since. -/
def reached : List Request → List FrequencyStep
  | [] => []
  | .tune hz time :: requests =>
    if (sampled requests).any (time ≤ ·) then ⟨time, hz⟩ :: reached requests
    else reached requests
  | _ :: requests => reached requests

@[simp] theorem issued_append (first second : List Request) :
    issued (first ++ second) = issued first ++ issued second := List.filterMap_append

@[simp] theorem sampled_append (first second : List Request) :
    sampled (first ++ second) = sampled first ++ sampled second := List.filterMap_append

theorem mem_reached_tune (hz : Float32) (time : Float) (requests : List Request)
    (step : FrequencyStep) :
    step ∈ reached (.tune hz time :: requests) ↔
      step = ⟨time, hz⟩ ∧ (∃ later ∈ sampled requests, time ≤ later) ∨ step ∈ reached requests := by
  rw [reached]
  split
  · rename_i hany
    simp only [List.any_eq_true, decide_eq_true_eq] at hany
    simp [hany]
  · rename_i hnone
    simp only [List.any_eq_true, decide_eq_true_eq] at hnone
    simp [hnone]

/-- A sample comes to the issued steps that are not later; other requests come to none. -/
theorem mem_reached_append (requests : List Request) (request : Request) (step : FrequencyStep) :
    step ∈ reached (requests ++ [request]) ↔ step ∈ reached requests ∨
      step ∈ issued requests ∧ ∃ time ∈ sampled [request], step.time ≤ time := by
  induction requests with
  | nil => cases request <;> simp [reached, issued, sampled]
  | cons first requests ih =>
    cases first with
    | tune hz time =>
      have hissued : issued (.tune hz time :: requests) = ⟨time, hz⟩ :: issued requests := rfl
      rw [List.cons_append, mem_reached_tune, mem_reached_tune, ih, hissued, sampled_append]
      grind
    | _ => simpa [reached, issued] using ih

theorem mem_issued_of_mem_reached {requests : List Request} {step : FrequencyStep}
    (h : step ∈ reached requests) : step ∈ issued requests := by
  induction requests with
  | nil => exact h
  | cons request requests ih =>
    cases request with
    | tune hz time =>
      rcases (mem_reached_tune hz time requests step).1 h with ⟨rfl, -⟩ | h
      · exact List.mem_cons_self
      · exact List.mem_cons_of_mem _ (ih h)
    | _ => exact ih h

/-- Whether a request is in time after others: no time goes back behind the sampled ones
or the steps that were reached. -/
def Allows (before : List Request) : Request → Prop
  | .tune _ time => time.isNaN = false ∧ ∀ step ∈ reached before, step.time ≤ time
  | .sample time => time.isNaN = false ∧ ∀ earlier ∈ sampled before, earlier ≤ time
  | _ => True

instance (before : List Request) : DecidablePred (Allows before)
  | .tune _ _ => inferInstanceAs (Decidable (_ ∧ _))
  | .sample _ => inferInstanceAs (Decidable (_ ∧ _))
  | .start _ => instDecidableTrue
  | .stop _ => instDecidableTrue

/-- Whether requests are in time one after another. -/
def Lawful : (before requests : List Request) → Prop
  | _, [] => True
  | before, request :: requests => Allows before request ∧ Lawful (before ++ [request]) requests

instance decidableLawful : (before requests : List Request) → Decidable (Lawful before requests)
  | _, [] => instDecidableTrue
  | before, request :: requests =>
    have := decidableLawful (before ++ [request]) requests
    inferInstanceAs (Decidable (Allows before request ∧ Lawful (before ++ [request]) requests))

theorem lawful_append (before first second : List Request) :
    Lawful before (first ++ second) ↔ Lawful before first ∧ Lawful (before ++ first) second := by
  induction first generalizing before with
  | nil => simp [Lawful]
  | cons request first ih => simp [Lawful, ih, and_assoc]

/-! ## What is heard -/

/-- The step that gives the frequency at a time: no later than that, with the greatest time
of all these, and issued last for its time. -/
structure IsCurrent (steps : List FrequencyStep) (time : Float) (step : FrequencyStep) : Prop where
  reached : step.time ≤ time
  split : ∃ earlier later, steps = earlier ++ step :: later ∧
    (∀ other ∈ earlier, other.time ≤ time → other.time ≤ step.time) ∧
    ∀ other ∈ later, other.time ≤ time → other.time < step.time

/-- The frequency that issued steps give at a time.  Before the first of them it is 0. -/
def Gives (steps : List FrequencyStep) (time : Float) (hz : Float32) : Prop :=
  (∃ step, IsCurrent steps time step ∧ step.hz = hz) ∨
    (∀ step ∈ steps, ¬ step.time ≤ time) ∧ hz = 0

/-- How an oscillator stands to all that was asked of it. -/
structure Faithful (requests : List Request) (oscillator : Oscillator) : Prop where
  /-- After a sample the frequency is the one that the steps issued so far give at its time. -/
  heard : ∀ before time, requests = before ++ [.sample time] →
    ∀ hz, Gives (issued before) time hz ↔ oscillator.frequency = hz
  /-- The times of the steps to come increase. -/
  ordered : oscillator.steps.steps.Pairwise fun first second => first.time < second.time
  /-- A step later than all samples is to come, with the frequency issued last for its time. -/
  kept : ∀ step ∈ issued requests, (∀ time ∈ sampled requests, time < step.time) →
    ∃ pending ∈ oscillator.steps.steps, (pending.time == step.time) = true ∧
      ((issued requests).filter (·.time == step.time)).getLast?.map (·.hz) = some pending.hz

section Current

variable {steps : List FrequencyStep} {step last : FrequencyStep} {time : Float}

/-- No step that is not later has a greater time than the current one. -/
theorem IsCurrent.placeOf_le (h : IsCurrent steps time last)
    (hsteps : ∀ step ∈ steps, step.time.isNaN = false) (hmem : step ∈ steps)
    (hdue : step.time ≤ time) : placeOf step.time ≤ placeOf last.time := by
  obtain ⟨-, earlier, later, rfl, hearlier, hlater⟩ := h
  have hnumber := hsteps step hmem
  have hnumberLast := hsteps last (by simp)
  rcases List.mem_append.1 hmem with hmem | hmem
  · exact (le_iff_placeOf_le hnumber hnumberLast).1 (hearlier step hmem hdue)
  · rcases List.mem_cons.1 hmem with rfl | hmem
    · exact le_refl _
    · exact ((lt_iff_placeOf_lt hnumber hnumberLast).1 (hlater step hmem hdue)).le

/-- The current step is the one that was issued last for its time. -/
theorem IsCurrent.getLast?_eq {moment : Float} (h : IsCurrent steps time last)
    (hsteps : ∀ step ∈ steps, step.time.isNaN = false) (htime : time.isNaN = false)
    (hmoment : moment.isNaN = false) (heq : placeOf last.time = placeOf moment) :
    (steps.filter (·.time == moment)).getLast? = some last := by
  obtain ⟨hreached, earlier, later, rfl, -, hlater⟩ := h
  have hnumber := hsteps last (by simp)
  rw [le_iff_placeOf_le hnumber htime] at hreached
  have hsame : (last.time == moment) = true := (beq_iff_placeOf_eq hnumber hmoment).2 heq
  have hnone : later.filter (·.time == moment) = [] := by
    refine List.filter_eq_nil_iff.2 fun other hother hsame => ?_
    have hnumberOther := hsteps other (by simp [hother])
    have hplace := (beq_iff_placeOf_eq hnumberOther hmoment).1 hsame
    have hless := hlater other hother ((le_iff_placeOf_le hnumberOther htime).2 (by omega))
    rw [lt_iff_placeOf_lt hnumberOther hnumber] at hless
    omega
  rw [List.filter_append, List.filter_cons, if_pos hsame, hnone, List.getLast?_concat]

theorem IsCurrent.mem (h : IsCurrent steps time step) : step ∈ steps := by
  obtain ⟨-, earlier, later, rfl, -⟩ := h
  simp

/-- Issued steps give one frequency. -/
theorem Gives.unique {hz other : Float32} (h : Gives steps time hz) (h' : Gives steps time other)
    (hsteps : ∀ step ∈ steps, step.time.isNaN = false) (htime : time.isNaN = false) :
    hz = other := by
  rcases h with ⟨step, hstep, rfl⟩ | ⟨hlate, rfl⟩ <;>
    rcases h' with ⟨last, hlast, rfl⟩ | ⟨hlate', rfl⟩
  · have heq : placeOf last.time = placeOf step.time :=
      le_antisymm (hstep.placeOf_le hsteps hlast.mem hlast.reached)
        (hlast.placeOf_le hsteps hstep.mem hstep.reached)
    have hnumber := hsteps step hstep.mem
    have hgiven := hstep.getLast?_eq hsteps htime hnumber rfl
    rw [hlast.getLast?_eq hsteps htime hnumber heq] at hgiven
    rw [Option.some.inj hgiven]
  · exact absurd hstep.reached (hlate' step hstep.mem)
  · exact absurd hlast.reached (hlate last hlast.mem)
  · rfl

end Current

/-! ## Issuing another step -/

section Issuing

variable {steps : List FrequencyStep} {new : FrequencyStep} {time : Float} {hz : Float32}

/-- A step gives the frequency as soon as it has been issued, where no step lies between it
and the time. -/
theorem gives_append_of_latest (hsteps : ∀ step ∈ steps, step.time.isNaN = false)
    (hnew : new.time.isNaN = false) (htime : time.isNaN = false)
    (hreached : placeOf new.time ≤ placeOf time)
    (hlast : ∀ step ∈ steps, placeOf step.time ≤ placeOf time →
      placeOf step.time ≤ placeOf new.time) :
    Gives (steps ++ [new]) time new.hz := by
  refine .inl ⟨new, ⟨(le_iff_placeOf_le hnew htime).2 hreached, steps, [], rfl, ?_, by simp⟩, rfl⟩
  intro step hmem hdue
  rw [le_iff_placeOf_le (hsteps step hmem) htime] at hdue
  exact (le_iff_placeOf_le (hsteps step hmem) hnew).2 (hlast step hmem hdue)

/-- A step does not change what is given at a time that is earlier, or behind another step. -/
theorem gives_append_of_passed (hsteps : ∀ step ∈ steps, step.time.isNaN = false)
    (hnew : new.time.isNaN = false) (htime : time.isNaN = false)
    (hpassed : placeOf new.time ≤ placeOf time →
      ∃ step ∈ steps, placeOf new.time < placeOf step.time ∧ placeOf step.time ≤ placeOf time)
    (h : Gives steps time hz) : Gives (steps ++ [new]) time hz := by
  rcases h with ⟨step, ⟨hreached, earlier, later, rfl, hearlier, hlater⟩, rfl⟩ | ⟨hlate, rfl⟩
  · have hstep := hsteps step (by simp)
    -- The step that lies behind the new one is not later than the current one.
    have hnot : placeOf new.time ≤ placeOf time → placeOf new.time < placeOf step.time := by
      intro hdue
      obtain ⟨other, hmem, hbehind, hother⟩ := hpassed hdue
      have hnumber := hsteps other hmem
      rw [← le_iff_placeOf_le hnumber htime] at hother
      rcases List.mem_append.1 hmem with hmem | hmem
      · exact hbehind.trans_le ((le_iff_placeOf_le hnumber hstep).1 (hearlier other hmem hother))
      · rcases List.mem_cons.1 hmem with rfl | hmem
        · exact hbehind
        · exact hbehind.trans ((lt_iff_placeOf_lt hnumber hstep).1 (hlater other hmem hother))
    refine .inl ⟨step, ⟨hreached, earlier, later ++ [new], by simp, hearlier, ?_⟩, rfl⟩
    intro other hmem hdue
    rcases List.mem_append.1 hmem with hmem | hmem
    · exact hlater other hmem hdue
    · obtain rfl := List.mem_singleton.1 hmem
      exact (lt_iff_placeOf_lt hnew hstep).2 (hnot ((le_iff_placeOf_le hnew htime).1 hdue))
  · refine .inr ⟨fun step hmem hdue => ?_, rfl⟩
    rcases List.mem_append.1 hmem with hmem | hmem
    · exact hlate step hmem hdue
    · obtain rfl := List.mem_singleton.1 hmem
      obtain ⟨other, hmem, -, hother⟩ := hpassed ((le_iff_placeOf_le hnew htime).1 hdue)
      exact hlate other hmem ((le_iff_placeOf_le (hsteps other hmem) htime).2 hother)

end Issuing

/-! ## The invariant -/

@[simp] theorem frequency_advanceTo (time : Float) (oscillator : Oscillator) :
    (oscillator.advanceTo time).frequency =
      (oscillator.steps.applyUntil time oscillator.frequency).1 := rfl

@[simp] theorem frequency_tune (hz : Float32) (time : Float) (oscillator : Oscillator) :
    (oscillator.tune hz time).frequency = oscillator.frequency := rfl

@[simp] theorem steps_tune (hz : Float32) (time : Float) (oscillator : Oscillator) :
    (oscillator.tune hz time).steps = oscillator.steps.enter ⟨time, hz⟩ := rfl

@[simp] theorem frequency_sampleAt (time : Float) (oscillator : Oscillator) :
    (oscillator.sampleAt time).2.frequency =
      (oscillator.steps.applyUntil time oscillator.frequency).1 := by
  unfold sampleAt
  dsimp only
  split <;> rfl

@[simp] theorem steps_sampleAt (time : Float) (oscillator : Oscillator) :
    (oscillator.sampleAt time).2.steps =
      (oscillator.steps.applyUntil time oscillator.frequency).2 := by
  unfold sampleAt
  dsimp only
  split <;> rfl

/-- What holds of an oscillator and all that was asked of it.  Every issued step has been
reached or is waited for, and the queue gives what the history gives, at any time that may
be sampled next. -/
structure Follows (requests : List Request) (oscillator : Oscillator) : Prop where
  issued_numbers : ∀ step ∈ issued requests, step.time.isNaN = false
  sampled_numbers : ∀ time ∈ sampled requests, time.isNaN = false
  ordered : oscillator.steps.Ordered
  origin : ∀ pending ∈ oscillator.steps.steps,
    ∃ step ∈ issued requests, placeOf step.time = placeOf pending.time
  waiting : ∀ step ∈ issued requests, step ∈ reached requests ∨
    ∃ pending ∈ oscillator.steps.steps, placeOf pending.time = placeOf step.time
  passed : ∀ step ∈ reached requests, ∃ time ∈ sampled requests, placeOf step.time ≤ placeOf time
  gives : ∀ time, time.isNaN = false →
    (∀ earlier ∈ sampled requests, placeOf earlier ≤ placeOf time) →
    Gives (issued requests) time (oscillator.advanceTo time).frequency

theorem follows_silent (waveform : Waveform) (rate : Float32) :
    Follows [] (silent waveform rate) where
  issued_numbers := by simp [issued]
  sampled_numbers := by simp [sampled]
  ordered := StepRing.ordered_empty
  origin := by simp [silent, StepRing.empty]
  waiting := by simp [issued]
  passed := by simp [reached]
  gives := fun _ _ _ => .inr ⟨by simp [issued], rfl⟩

namespace Follows

variable {requests : List Request} {oscillator : Oscillator}

/-- What was issued for later than an allowed step is still waited for. -/
theorem exists_pending (h : Follows requests oscillator) {hz : Float32} {time : Float}
    (hallows : Allows requests (.tune hz time)) {step : FrequencyStep}
    (hstep : step ∈ issued requests) (hlater : placeOf time < placeOf step.time) :
    ∃ pending ∈ oscillator.steps.steps, placeOf pending.time = placeOf step.time := by
  refine (h.waiting step hstep).resolve_left fun hreached => ?_
  have hle := hallows.2 step hreached
  rw [le_iff_placeOf_le (h.issued_numbers step hstep) hallows.1] at hle
  exact hle.not_gt hlater

/-- Whichever steps lie between a new one and a time, they are issued steps and steps in the
queue alike. -/
theorem gives_tune (h : Follows requests oscillator) {hz : Float32} {time later : Float}
    (hallows : Allows requests (.tune hz time)) (hlater : later.isNaN = false)
    (hsamples : ∀ earlier ∈ sampled requests, placeOf earlier ≤ placeOf later) :
    Gives (issued requests ++ [⟨time, hz⟩]) later
      ((oscillator.tune hz time).advanceTo later).frequency := by
  have htime : time.isNaN = false := hallows.1
  by_cases hpassed : placeOf time ≤ placeOf later → ∃ step ∈ issued requests,
      placeOf time < placeOf step.time ∧ placeOf step.time ≤ placeOf later
  · have heq : ((oscillator.tune hz time).advanceTo later).frequency =
        (oscillator.advanceTo later).frequency := by
      simp only [frequency_advanceTo, steps_tune, frequency_tune]
      refine h.ordered.applyUntil_enter_of_passed ⟨time, hz⟩ htime hlater (fun hdue => ?_) _
      obtain ⟨step, hstep, hbehind, hstepDue⟩ := hpassed hdue
      obtain ⟨pending, hpending, hplace⟩ := h.exists_pending hallows hstep hbehind
      exact ⟨pending, hpending, hplace ▸ hbehind, hplace ▸ hstepDue⟩
    rw [heq]
    exact gives_append_of_passed h.issued_numbers htime hlater hpassed
      (h.gives later hlater hsamples)
  · push Not at hpassed
    obtain ⟨hdue, hnone⟩ := hpassed
    have hlast : ∀ step ∈ issued requests, placeOf step.time ≤ placeOf later →
        placeOf step.time ≤ placeOf time := fun step hstep hstepDue =>
      not_lt.1 fun hbehind => (hnone step hstep hbehind).not_ge hstepDue
    have heq : ((oscillator.tune hz time).advanceTo later).frequency = hz := by
      simp only [frequency_advanceTo, steps_tune, frequency_tune]
      refine h.ordered.applyUntil_enter_of_latest ⟨time, hz⟩ htime hlater hdue
        (fun pending hpending hpendingDue => ?_) _
      obtain ⟨step, hstep, hplace⟩ := h.origin pending hpending
      exact hplace ▸ hlast step hstep (hplace ▸ hpendingDue)
    rw [heq]
    exact gives_append_of_latest h.issued_numbers htime hlater hdue hlast

/-- A step that is issued in time is waited for in the place of those of its time. -/
theorem perform_tune (h : Follows requests oscillator) {hz : Float32} {time : Float}
    (hallows : Allows requests (.tune hz time)) :
    Follows (requests ++ [.tune hz time]) (oscillator.tune hz time) := by
  have htime : time.isNaN = false := hallows.1
  obtain ⟨hordered, entered, -, hentered, hmem⟩ :=
    h.ordered.exists_mem_enter ⟨time, hz⟩ htime
  have hissued : issued (requests ++ [.tune hz time]) = issued requests ++ [⟨time, hz⟩] :=
    issued_append _ _
  have hsampled : sampled (requests ++ [.tune hz time]) = sampled requests := by
    simp [sampled]
  have hreached : ∀ step, step ∈ reached (requests ++ [.tune hz time]) ↔ step ∈ reached requests :=
    fun step => by simp [mem_reached_append, sampled]
  refine
    { issued_numbers := ?_, sampled_numbers := hsampled ▸ h.sampled_numbers
      ordered := hordered, origin := ?_, waiting := ?_, passed := ?_, gives := ?_ }
  · intro step hstep
    rw [hissued] at hstep
    rcases List.mem_append.1 hstep with hstep | hstep
    · exact h.issued_numbers step hstep
    · exact List.mem_singleton.1 hstep ▸ htime
  · intro pending hpending
    rw [hissued]
    rcases (hmem pending).1 hpending with rfl | ⟨hpending, -⟩
    · exact ⟨_, by simp, hentered.symm⟩
    · obtain ⟨step, hstep, heq⟩ := h.origin pending hpending
      exact ⟨step, List.mem_append_left _ hstep, heq⟩
  · intro step hstep
    rw [hissued] at hstep
    rw [hreached]
    rcases List.mem_append.1 hstep with hstep | hstep
    · refine (h.waiting step hstep).imp_right fun ⟨pending, hpending, heq⟩ => ?_
      by_cases hsame : placeOf pending.time = placeOf time
      · exact ⟨entered, (hmem entered).2 (.inl rfl), hentered.trans (hsame.symm.trans heq)⟩
      · exact ⟨pending, (hmem pending).2 (.inr ⟨hpending, hsame⟩), heq⟩
    · obtain rfl := List.mem_singleton.1 hstep
      exact .inr ⟨entered, (hmem entered).2 (.inl rfl), hentered⟩
  · intro step hstep
    rw [hsampled]
    exact h.passed step ((hreached step).1 hstep)
  · intro later hlater hsamples
    rw [hsampled] at hsamples
    rw [hissued]
    exact h.gives_tune hallows hlater hsamples

/-- A sample takes away the steps that it comes to, and none of the others. -/
theorem perform_sample (h : Follows requests oscillator) {time : Float}
    (hallows : Allows requests (.sample time)) :
    Follows (requests ++ [.sample time]) (oscillator.sampleAt time).2 := by
  obtain ⟨htime, hsamples⟩ := hallows
  obtain ⟨hordered, hmem⟩ := h.ordered.applyUntil htime oscillator.frequency
  have hissued : issued (requests ++ [.sample time]) = issued requests := by
    simp [issued]
  have hsampled : sampled (requests ++ [.sample time]) = sampled requests ++ [time] :=
    sampled_append _ _
  have hreached : ∀ step ∈ issued requests, step ∈ reached (requests ++ [.sample time]) ↔
      step ∈ reached requests ∨ placeOf step.time ≤ placeOf time := fun step hstep => by
    rw [mem_reached_append, ← le_iff_placeOf_le (h.issued_numbers step hstep) htime]
    simp [sampled, hstep]
  refine
    { issued_numbers := hissued ▸ h.issued_numbers, sampled_numbers := ?_
      ordered := ?_, origin := ?_, waiting := ?_, passed := ?_, gives := ?_ }
  · intro other hother
    rw [hsampled] at hother
    rcases List.mem_append.1 hother with hother | hother
    · exact h.sampled_numbers other hother
    · exact List.mem_singleton.1 hother ▸ htime
  · rw [steps_sampleAt]
    exact hordered
  · intro pending hpending
    rw [steps_sampleAt] at hpending
    rw [hissued]
    exact h.origin pending ((hmem pending).1 hpending).1
  · intro step hstep
    rw [hissued] at hstep
    rw [hreached step hstep, steps_sampleAt]
    rcases h.waiting step hstep with hbefore | ⟨pending, hpending, heq⟩
    · exact .inl (.inl hbefore)
    · by_cases hdue : placeOf step.time ≤ placeOf time
      · exact .inl (.inr hdue)
      · exact .inr ⟨pending, (hmem pending).2 ⟨hpending, heq ▸ not_le.1 hdue⟩, heq⟩
  · intro step hstep
    rw [hsampled]
    have hin : step ∈ issued requests := hissued ▸ mem_issued_of_mem_reached hstep
    rcases (hreached step hin).1 hstep with hbefore | hdue
    · obtain ⟨earlier, hearlier, hle⟩ := h.passed step hbefore
      exact ⟨earlier, List.mem_append_left _ hearlier, hle⟩
    · exact ⟨time, by simp, hdue⟩
  · intro later hlater hbefore
    rw [hsampled] at hbefore
    rw [hissued]
    have heq : ((oscillator.sampleAt time).2.advanceTo later).frequency =
        (oscillator.advanceTo later).frequency := by
      simp only [frequency_advanceTo, steps_sampleAt, frequency_sampleAt]
      exact h.ordered.applyUntil_applyUntil htime hlater (hbefore time (by simp)) _
    rw [heq]
    exact h.gives later hlater fun earlier hearlier =>
      hbefore earlier (List.mem_append_left _ hearlier)

/-- A request that has to do with no step and no sample leaves everything to its history. -/
theorem perform_other (h : Follows requests oscillator) {request : Request} {other : Oscillator}
    (hissued : issued [request] = []) (hsampled : sampled [request] = [])
    (hsteps : other.steps = oscillator.steps)
    (hfrequency : other.frequency = oscillator.frequency) :
    Follows (requests ++ [request]) other := by
  have hreached : ∀ step, step ∈ reached (requests ++ [request]) ↔ step ∈ reached requests :=
    fun step => by simp [mem_reached_append, hsampled]
  constructor <;> simp only [issued_append, hissued, sampled_append, hsampled, List.append_nil,
    hsteps, hreached, frequency_advanceTo, hfrequency]
  · exact h.issued_numbers
  · exact h.sampled_numbers
  · exact h.ordered
  · exact h.origin
  · exact h.waiting
  · exact h.passed
  · exact h.gives

/-- A request that comes in time keeps an oscillator to its history. -/
theorem perform (h : Follows requests oscillator) {request : Request}
    (hallows : Allows requests request) :
    Follows (requests ++ [request]) (oscillator.perform request) := by
  cases request with
  | tune hz time => exact h.perform_tune hallows
  | sample time => exact h.perform_sample hallows
  | start time | stop time => exact h.perform_other rfl rfl rfl rfl

/-- So do requests that come in time one after another. -/
theorem after (h : Follows requests oscillator) {others : List Request}
    (hlawful : Lawful requests others) :
    Follows (requests ++ others) (oscillator.after others) := by
  induction others generalizing requests oscillator with
  | nil => simpa [Oscillator.after] using h
  | cons request others ih =>
    rw [List.append_cons]
    exact ih (h.perform hlawful.1) hlawful.2

/-- A step that no sample has come to is in the queue, with the frequency issued last for
its time. -/
theorem exists_kept (h : Follows requests oscillator) {step : FrequencyStep}
    (hstep : step ∈ issued requests) (hlater : ∀ time ∈ sampled requests, time < step.time) :
    ∃ pending ∈ oscillator.steps.steps, (pending.time == step.time) = true ∧
      ((issued requests).filter (·.time == step.time)).getLast?.map (·.hz) = some pending.hz := by
  have hnumber := h.issued_numbers step hstep
  have hplaces : ∀ time ∈ sampled requests, placeOf time < placeOf step.time := fun time hmem =>
    (lt_iff_placeOf_lt (h.sampled_numbers time hmem) hnumber).1 (hlater time hmem)
  have hnotReached : step ∉ reached requests := fun hreached => by
    obtain ⟨time, hmem, hle⟩ := h.passed step hreached
    exact (hplaces time hmem).not_ge hle
  obtain ⟨pending, hpending, hplace⟩ := (h.waiting step hstep).resolve_left hnotReached
  have hnumberPending := h.ordered.numbers pending hpending
  refine ⟨pending, hpending, (beq_iff_placeOf_eq hnumberPending hnumber).2 hplace, ?_⟩
  -- At the time of the step the queue gives what is pending, and the history what was issued last.
  have hlatest : IsLatest oscillator.steps.steps step.time pending :=
    ⟨hpending, hplace.le, fun _ _ hdue => hplace ▸ hdue⟩
  have hgives := h.gives step.time hnumber fun earlier hearlier => (hplaces earlier hearlier).le
  rw [frequency_advanceTo, h.ordered.applyUntil_of_isLatest hnumber hlatest] at hgives
  have hself : step.time ≤ step.time := (le_iff_placeOf_le hnumber hnumber).2 (le_refl _)
  rcases hgives with ⟨last, hlast, hhz⟩ | ⟨hnone, -⟩
  · have hle := hlast.reached
    rw [le_iff_placeOf_le (h.issued_numbers last hlast.mem) hnumber] at hle
    have heq := le_antisymm hle (hlast.placeOf_le h.issued_numbers hstep hself)
    rw [hlast.getLast?_eq h.issued_numbers hnumber hnumber heq, ← hhz]
    rfl
  · exact absurd hself (hnone step hstep)

end Follows

/-- **An oscillator plays what its history gives.**  Whatever steps are issued, in any order of
their times and between any samples, as long as all times are numbers, samples do not go back
and no step is issued for a time before a reached one: after every sample the frequency is that
of the latest step not later, issued last for its time, or else 0.  The steps to come stay in
the order of their times, and none of those that are later than the samples is lost. -/
theorem faithful_after (waveform : Waveform) (rate : Float32) (requests : List Request)
    (hlawful : Lawful [] requests) :
    Faithful requests ((silent waveform rate).after requests) := by
  have hfollows : Follows requests ((silent waveform rate).after requests) :=
    (follows_silent waveform rate).after hlawful
  refine ⟨?_, ?_, fun step hstep hlater => hfollows.exists_kept hstep hlater⟩
  · rintro before time rfl
    obtain ⟨hbefore, hallows, -⟩ := (lawful_append [] before [.sample time]).1 hlawful
    have hfollows : Follows before ((silent waveform rate).after before) :=
      (follows_silent waveform rate).after hbefore
    have hgives := hfollows.gives time hallows.1 fun earlier hearlier =>
      (le_iff_placeOf_le (hfollows.sampled_numbers earlier hearlier) hallows.1).1
        (hallows.2 earlier hearlier)
    have hfrequency : ((silent waveform rate).after (before ++ [.sample time])).frequency =
        (((silent waveform rate).after before).advanceTo time).frequency := by
      simp [after, Oscillator.perform]
    rw [hfrequency]
    exact fun hz => ⟨fun hother => hgives.unique hother hfollows.issued_numbers hallows.1,
      fun heq => heq ▸ hgives⟩
  · refine hfollows.ordered.increasing.imp_of_mem fun hfirst hsecond hless => ?_
    exact (lt_iff_placeOf_lt (hfollows.ordered.numbers _ hfirst)
      (hfollows.ordered.numbers _ hsecond)).2 hless

/-- Steps out of order, one late and two of them for a time that has a step already. -/
def unsortedSteps : List Request :=
  [.start 0, .tune 440 1, .tune 220 (-0.0), .tune 330 0, .sample 0.5, .tune 550 0.25,
    .tune 660 1, .sample 0.75]

/-- The late step is heard, and the step to come has the frequency issued last for its time. -/
theorem faithful_after_unsortedSteps :
    Lawful [] unsortedSteps ∧
      Faithful unsortedSteps ((silent .square 48000).after unsortedSteps) ∧
      ((silent .square 48000).after unsortedSteps).frequency = 550 ∧
      ((silent .square 48000).after unsortedSteps).steps.steps = [⟨1, 660⟩] := by
  have hlawful : Lawful [] unsortedSteps := by decide +kernel
  exact ⟨hlawful, faithful_after .square 48000 unsortedSteps hlawful, by decide +kernel,
    by decide +kernel⟩

end Chiptune.Oscillator
