/-
  The queue of frequency steps by its members.

  A queue is searched by halving, a step is entered into it or takes the place of
  another, and steps are applied from its beginning.  As long as all times are numbers
  and increase along the queue, what this makes of it is told by members alone: the
  entered step is added and the one of its time is gone, and what is applied is the
  latest step that is not later than a time.  Zeros of both signs are one time here.
-/
import Chiptune.Proofs.TimeOrder
import Chiptune.Sound.Oscillator
import Mathlib.Data.Int.Order.Basic
import Mathlib.Data.List.Basic
import Mathlib.Data.List.TakeWhile

set_option autoImplicit false

namespace Chiptune

/-! ## The search -/

section Search

variable {early : FrequencyStep → Bool} {steps : List FrequencyStep}

/-- Where whatever comes before an early step is early, the early steps are those that
come first. -/
theorem any_early_iff (h : steps.Pairwise fun first second => early second → early first)
    (i : Nat) : (steps[i]?).any early = true ↔ i < (steps.takeWhile early).length := by
  induction steps generalizing i with
  | nil => simp
  | cons step steps ih =>
    rw [List.pairwise_cons] at h
    by_cases hstep : early step = true
    · rw [List.takeWhile_cons_of_pos hstep]
      cases i with
      | zero => simp [hstep]
      | succ i => simpa using ih h.2 i
    · rw [List.takeWhile_cons_of_neg hstep]
      cases i with
      | zero => simpa using hstep
      | succ i =>
        have hnone : ∀ other ∈ steps, ¬ early other = true :=
          fun other hmem hother => hstep (h.1 other hmem hother)
        cases hother : steps[i]? with
        | none => simp [hother]
        | some other => simp [hother, hnone other (List.mem_of_getElem? hother)]

theorem not_early_of_mem_dropWhile
    (h : steps.Pairwise fun first second => early second → early first) {step : FrequencyStep}
    (hmem : step ∈ steps.dropWhile early) : ¬ early step = true := by
  induction steps with
  | nil => simp at hmem
  | cons other steps ih =>
    rw [List.pairwise_cons] at h
    by_cases hother : early other = true
    · rw [List.dropWhile_cons_of_pos hother] at hmem
      exact ih h.2 hmem
    · rw [List.dropWhile_cons_of_neg hother] at hmem
      rcases List.mem_cons.1 hmem with rfl | hmem
      · exact hother
      · exact fun hstep => hother (h.1 step hmem hstep)

theorem countEarly_eq_length (h : steps.Pairwise fun first second => early second → early first) :
    countEarly early steps = (steps.takeWhile early).length :=
  countEarly_eq early steps _ (any_early_iff h) (List.takeWhile_prefix early).length_le

/-- Whichever run of slots is searched, the place found is behind the early steps. -/
theorem StepRing.place_eq_length {ring : StepRing}
    (h : ring.steps.Pairwise fun first second => early second → early first) :
    ring.place early = (ring.steps.takeWhile early).length := by
  obtain ⟨steps, head, slots⟩ := ring
  obtain ⟨front, back, hfront, hback, hsteps⟩ : ∃ front back, steps.take (slots - head) = front ∧
      steps.drop (slots - head) = back ∧ steps = front ++ back :=
    ⟨_, _, rfl, rfl, (List.take_append_drop _ steps).symm⟩
  simp only [StepRing.place, hfront, hback]
  simp only [hsteps, List.pairwise_append] at h ⊢
  obtain ⟨hfrontOrdered, hbackOrdered, hacross⟩ := h
  rw [countEarly_eq_length hfrontOrdered, countEarly_eq_length hbackOrdered,
    List.takeWhile_append]
  by_cases hhead : back.head?.any early = true
  · -- The whole run before an early step is early as well.
    obtain ⟨step, hstep, hearly⟩ := (Option.any_eq_true _ _).1 hhead
    have hall : front.takeWhile early = front :=
      List.takeWhile_eq_self_iff.2 fun other hmem =>
        hacross other hmem step (List.mem_of_head? hstep) hearly
    rw [if_pos hhead, hall, if_pos rfl, List.length_append]
  · have hnone : back.takeWhile early = [] := by
      cases back with
      | nil => rfl
      | cons step back => exact List.takeWhile_cons_of_neg (by simpa using hhead)
    rw [if_neg hhead, hnone, List.append_nil]
    split
    · rename_i hlength
      exact hlength
    · rfl

end Search

/-! ## Queues in order -/

/-- A queue is in order when its times are numbers and increase. -/
structure StepRing.Ordered (ring : StepRing) : Prop where
  numbers : ∀ step ∈ ring.steps, step.time.isNaN = false
  increasing : ring.steps.Pairwise fun first second => placeOf first.time < placeOf second.time

/-- The latest step that is not later than a time. -/
structure IsLatest (steps : List FrequencyStep) (time : Float) (step : FrequencyStep) : Prop where
  mem : step ∈ steps
  reached : placeOf step.time ≤ placeOf time
  last : ∀ other ∈ steps, placeOf other.time ≤ placeOf time →
    placeOf other.time ≤ placeOf step.time

namespace StepRing

variable {ring : StepRing} {step : FrequencyStep} {time : Float}

theorem ordered_empty : empty.Ordered := ⟨by simp [empty], by simp [empty]⟩

/-- What comes before a step that is not later than a place is not later either. -/
theorem Ordered.downward (h : ring.Ordered) {early : FrequencyStep → Bool} {place : Int}
    (hearly : ∀ step ∈ ring.steps, early step = true ↔ placeOf step.time ≤ place) :
    ring.steps.Pairwise fun first second => early second = true → early first = true := by
  refine h.increasing.imp_of_mem fun {first second} hfirst hsecond hplace hdue => ?_
  rw [hearly first hfirst]
  exact hplace.le.trans ((hearly second hsecond).1 hdue)

/-- A queue in order is parted by a place: into the steps that are not later, and the
later ones. -/
theorem Ordered.exists_parts (h : ring.Ordered) {early : FrequencyStep → Bool} {place : Int}
    (hearly : ∀ step ∈ ring.steps, early step = true ↔ placeOf step.time ≤ place) :
    ∃ before after, ring.steps = before ++ after ∧ ring.steps.takeWhile early = before ∧
      (∀ step ∈ before, placeOf step.time ≤ place) ∧
      ∀ step ∈ after, place < placeOf step.time := by
  refine ⟨_, _, List.takeWhile_append_dropWhile.symm, rfl, fun step hmem => ?_,
    fun step hmem => ?_⟩
  · exact (hearly step ((List.takeWhile_prefix _).subset hmem)).1 (List.mem_takeWhile_imp hmem)
  · rw [← not_le, ← hearly step ((List.dropWhile_suffix _).subset hmem)]
    exact not_early_of_mem_dropWhile (h.downward hearly) hmem

/-- Times increase up to the last of the first steps. -/
theorem Ordered.lt_last (h : ring.Ordered) {front late : List FrequencyStep}
    {last : FrequencyStep} (hsteps : ring.steps = front ++ [last] ++ late) :
    ∀ other ∈ front, placeOf other.time < placeOf last.time := by
  have hincreasing := h.increasing
  rw [hsteps, List.pairwise_append, List.pairwise_append] at hincreasing
  exact fun other hmem => hincreasing.1.2.2 other hmem last (List.mem_singleton_self last)

/-! ### Entering a step -/

@[simp] theorem steps_withRoom (ring : StepRing) : ring.withRoom.steps = ring.steps := by
  unfold withRoom
  dsimp only
  split
  · rfl
  · split <;> rfl

theorem steps_insertAt (place : Nat) (step : FrequencyStep) (ring : StepRing) :
    (ring.insertAt place step).steps =
      ring.steps.take place ++ step :: ring.steps.drop place := by
  simp [insertAt]

/-- A step goes behind the steps that are not later. -/
theorem steps_enter_of_ne {early late : List FrequencyStep} (hsteps : ring.steps = early ++ late)
    (hplace : ring.place (fun other => other.time ≤ step.time) = early.length)
    (hlast : ∀ last ∈ early.getLast?, ¬ (last.time == step.time) = true) :
    (ring.enter step).steps = early ++ step :: late := by
  rcases List.eq_nil_or_concat' early with rfl | ⟨front, last, rfl⟩
  · simp [enter, hplace, steps_insertAt, hsteps]
  · have hne : ¬ (last.time == step.time) = true := hlast last (by simp)
    have hinsert : ring.enter step = ring.insertAt (front ++ [last]).length step := by
      simp [enter, hplace, hsteps, hne]
    rw [hinsert, steps_insertAt, hsteps, List.take_left, List.drop_left]

/-- A step for the time of the last of those takes its place. -/
theorem steps_enter_of_beq {front late : List FrequencyStep} {last : FrequencyStep}
    (hsteps : ring.steps = front ++ last :: late)
    (hplace : ring.place (fun other => other.time ≤ step.time) = front.length + 1)
    (hlast : (last.time == step.time) = true) :
    (ring.enter step).steps = front ++ { last with hz := step.hz } :: late := by
  simp [enter, hplace, hsteps, hlast]

/-- An entered step stands between the earlier steps and the later ones, and nothing else
of its time is left. -/
theorem Ordered.exists_enter (h : ring.Ordered) (hstep : step.time.isNaN = false) :
    ∃ before same after entered, ring.steps = before ++ same ++ after ∧
      (ring.enter step).steps = before ++ entered :: after ∧
      entered.hz = step.hz ∧ entered.time.isNaN = false ∧
      (∀ other ∈ entered :: same, placeOf other.time = placeOf step.time) ∧
      (∀ other ∈ before, placeOf other.time < placeOf step.time) ∧
      ∀ other ∈ after, placeOf step.time < placeOf other.time := by
  have hdue : ∀ other ∈ ring.steps,
      decide (other.time ≤ step.time) = true ↔ placeOf other.time ≤ placeOf step.time :=
    fun other hmem => by rw [decide_eq_true_iff, le_iff_placeOf_le (h.numbers other hmem) hstep]
  obtain ⟨early, late, hsteps, htake, hearly, hlate⟩ := h.exists_parts hdue
  have hplace := place_eq_length (h.downward hdue)
  rw [htake] at hplace
  rcases List.eq_nil_or_concat' early with rfl | ⟨front, last, rfl⟩
  · exact ⟨[], [], late, step, hsteps, steps_enter_of_ne hsteps hplace (by simp), rfl, hstep,
      by simp, by simp, hlate⟩
  · have hnumber : last.time.isNaN = false := h.numbers last (by simp [hsteps])
    have hlast : placeOf last.time ≤ placeOf step.time := hearly last (by simp)
    have hfront := h.lt_last hsteps
    by_cases hsame : (last.time == step.time) = true
    · have heq := (beq_iff_placeOf_eq hnumber hstep).1 hsame
      refine ⟨front, [last], late, { last with hz := step.hz }, hsteps,
        steps_enter_of_beq (by simpa using hsteps) (by simpa using hplace) hsame, rfl, hnumber,
        by simp [heq], fun other hmem => heq ▸ hfront other hmem, hlate⟩
    · have hless : placeOf last.time < placeOf step.time :=
        lt_of_le_of_ne hlast fun heq => hsame ((beq_iff_placeOf_eq hnumber hstep).2 heq)
      refine ⟨front ++ [last], [], late, step, by simpa using hsteps,
        steps_enter_of_ne hsteps hplace (by simpa using hsame), rfl, hstep, by simp,
        fun other hmem => ?_, hlate⟩
      rcases List.mem_append.1 hmem with hmem | hmem
      · exact (hfront other hmem).trans hless
      · exact List.mem_singleton.1 hmem ▸ hless

/-- What is in a queue once a step has been entered: the step, at its time, and what was
there for other times. -/
theorem Ordered.exists_mem_enter (h : ring.Ordered) (step : FrequencyStep)
    (hstep : step.time.isNaN = false) :
    (ring.enter step).Ordered ∧ ∃ entered, entered.hz = step.hz ∧
      placeOf entered.time = placeOf step.time ∧
      ∀ other, other ∈ (ring.enter step).steps ↔ other = entered ∨
        other ∈ ring.steps ∧ placeOf other.time ≠ placeOf step.time := by
  obtain ⟨before, same, after, entered, hsteps, henter, hhz, hnumber, hsame, hbefore, hafter⟩ :=
    h.exists_enter hstep
  have hentered : placeOf entered.time = placeOf step.time := hsame entered (by simp)
  have hmem : ∀ other, other ∈ (ring.enter step).steps ↔ other = entered ∨
      other ∈ ring.steps ∧ placeOf other.time ≠ placeOf step.time := by
    intro other
    rw [henter, hsteps]
    grind
  refine ⟨⟨fun other hother => ?_, ?_⟩, entered, hhz, hentered, hmem⟩
  · rcases (hmem other).1 hother with rfl | ⟨hother, -⟩
    · exact hnumber
    · exact h.numbers other hother
  · have hincreasing := h.increasing
    rw [hsteps, List.append_assoc] at hincreasing
    rw [henter]
    simp only [List.pairwise_append, List.pairwise_cons] at hincreasing ⊢
    refine ⟨hincreasing.1, ⟨fun other hother => ?_, hincreasing.2.1.2.1⟩,
      fun first hfirst second hsecond => ?_⟩
    · exact hentered ▸ hafter other hother
    · rcases List.mem_cons.1 hsecond with rfl | hsecond
      · exact hentered ▸ hbefore first hfirst
      · exact (hbefore first hfirst).trans (hafter second hsecond)

/-! ### Applying steps -/

/-- By a time the steps that are not later are applied, and the later ones are left. -/
theorem Ordered.exists_applyUntil (h : ring.Ordered) (htime : time.isNaN = false) :
    ∃ early late, ring.steps = early ++ late ∧
      (∀ step ∈ early, placeOf step.time ≤ placeOf time) ∧
      (∀ step ∈ late, placeOf time < placeOf step.time) ∧
      ∀ frequency, (ring.applyUntil time frequency).1 =
          (early.getLast?.map (·.hz)).getD frequency ∧
        (ring.applyUntil time frequency).2.steps = late := by
  have hdue : ∀ step ∈ ring.steps,
      (!decide (time < step.time)) = true ↔ placeOf step.time ≤ placeOf time := fun step hmem => by
    rw [Bool.not_eq_true', decide_eq_false_iff_not,
      lt_iff_placeOf_lt htime (h.numbers step hmem), not_lt]
  obtain ⟨early, late, hsteps, htake, hearly, hlate⟩ := h.exists_parts hdue
  refine ⟨early, late, hsteps, hearly, hlate, fun frequency => ⟨?_, ?_⟩⟩
  · rw [applyUntil, htake]
  · simp only [applyUntil, drop, htake]
    rw [hsteps, List.drop_left]

/-- What is left by a time are the later steps. -/
theorem Ordered.applyUntil (h : ring.Ordered) (htime : time.isNaN = false) (frequency : Float32) :
    (ring.applyUntil time frequency).2.Ordered ∧
      ∀ step, step ∈ (ring.applyUntil time frequency).2.steps ↔
        step ∈ ring.steps ∧ placeOf time < placeOf step.time := by
  obtain ⟨early, late, hsteps, hearly, hlate, hout⟩ := h.exists_applyUntil htime
  have hsuffix : late <:+ ring.steps := ⟨early, hsteps.symm⟩
  rw [← (hout frequency).2] at hsuffix hlate
  refine ⟨⟨fun step hmem => h.numbers step (hsuffix.subset hmem),
    h.increasing.sublist hsuffix.sublist⟩, fun step =>
      ⟨fun hmem => ⟨hsuffix.subset hmem, hlate step hmem⟩, fun ⟨hmem, hlater⟩ => ?_⟩⟩
  rw [hsteps] at hmem
  rcases List.mem_append.1 hmem with hmem | hmem
  · exact absurd (hearly step hmem) hlater.not_ge
  · exact (hout frequency).2 ▸ hmem

/-- Where all steps are later than a time, the frequency stays. -/
theorem Ordered.applyUntil_of_late (h : ring.Ordered) (htime : time.isNaN = false)
    (hall : ∀ step ∈ ring.steps, placeOf time < placeOf step.time) (frequency : Float32) :
    (ring.applyUntil time frequency).1 = frequency := by
  obtain ⟨early, late, hsteps, hearly, -, hout⟩ := h.exists_applyUntil htime
  have hnone : early = [] := List.eq_nil_iff_forall_not_mem.2 fun step hmem =>
    (hall step (by simp [hsteps, hmem])).not_ge (hearly step hmem)
  rw [(hout frequency).1, hnone]
  rfl

/-- The latest step that is not later than a time gives the frequency. -/
theorem Ordered.applyUntil_of_isLatest (h : ring.Ordered) (htime : time.isNaN = false)
    (hlatest : IsLatest ring.steps time step) (frequency : Float32) :
    (ring.applyUntil time frequency).1 = step.hz := by
  obtain ⟨early, late, hsteps, hearly, hlate, hout⟩ := h.exists_applyUntil htime
  have hmem := hlatest.mem
  rw [hsteps] at hmem
  have hmem : step ∈ early := (List.mem_append.1 hmem).resolve_right fun hmem =>
    (hlate step hmem).not_ge hlatest.reached
  rcases List.eq_nil_or_concat' early with rfl | ⟨front, last, rfl⟩
  · simp at hmem
  · -- Times increase, so that the last of the early steps is no other.
    have hlast := hlatest.last last (by simp [hsteps]) (hearly last (by simp))
    rw [(hout frequency).1]
    rcases List.mem_append.1 hmem with hmem | hmem
    · exact absurd hlast (h.lt_last hsteps step hmem).not_ge
    · simp [List.mem_singleton.1 hmem]

/-- Some step is the latest that is not later than a time, or all are later. -/
theorem Ordered.exists_isLatest (h : ring.Ordered) (htime : time.isNaN = false) :
    (∃ step, IsLatest ring.steps time step) ∨
      ∀ step ∈ ring.steps, placeOf time < placeOf step.time := by
  obtain ⟨early, late, hsteps, hearly, hlate, -⟩ := h.exists_applyUntil htime
  rcases List.eq_nil_or_concat' early with rfl | ⟨front, last, rfl⟩
  · exact .inr (by simpa [hsteps] using hlate)
  · refine .inl ⟨last, by simp [hsteps], hearly last (by simp), fun other hmem hdue => ?_⟩
    rw [hsteps] at hmem
    rcases List.mem_append.1 hmem with hmem | hmem
    · rcases List.mem_append.1 hmem with hmem | hmem
      · exact (h.lt_last hsteps other hmem).le
      · rw [List.mem_singleton.1 hmem]
    · exact absurd hdue (hlate other hmem).not_ge

/-- An entered step gives the frequency of a time when no step lies between them. -/
theorem Ordered.applyUntil_enter_of_latest (h : ring.Ordered) (step : FrequencyStep)
    (hstep : step.time.isNaN = false) (htime : time.isNaN = false)
    (hreached : placeOf step.time ≤ placeOf time)
    (hlast : ∀ other ∈ ring.steps, placeOf other.time ≤ placeOf time →
      placeOf other.time ≤ placeOf step.time) (frequency : Float32) :
    ((ring.enter step).applyUntil time frequency).1 = step.hz := by
  obtain ⟨hordered, entered, hhz, hplace, hmem⟩ := h.exists_mem_enter step hstep
  rw [← hhz]
  refine hordered.applyUntil_of_isLatest htime
    ⟨(hmem entered).2 (.inl rfl), hplace ▸ hreached, fun other hother hdue => ?_⟩ frequency
  rcases (hmem other).1 hother with rfl | ⟨hother, -⟩
  · exact le_refl _
  · exact hplace ▸ hlast other hother hdue

/-- It changes nothing at a time that is earlier, or behind another step. -/
theorem Ordered.applyUntil_enter_of_passed (h : ring.Ordered) (step : FrequencyStep)
    (hstep : step.time.isNaN = false) (htime : time.isNaN = false)
    (hpassed : placeOf step.time ≤ placeOf time → ∃ other ∈ ring.steps,
      placeOf step.time < placeOf other.time ∧ placeOf other.time ≤ placeOf time)
    (frequency : Float32) :
    ((ring.enter step).applyUntil time frequency).1 = (ring.applyUntil time frequency).1 := by
  obtain ⟨hordered, entered, -, hplace, hmem⟩ := h.exists_mem_enter step hstep
  rcases h.exists_isLatest htime with ⟨latest, hlatest⟩ | hall
  · have hbehind : placeOf step.time ≤ placeOf time →
        placeOf step.time < placeOf latest.time := fun hdue => by
      obtain ⟨other, hother, hlater, hotherDue⟩ := hpassed hdue
      exact hlater.trans_le (hlatest.last other hother hotherDue)
    have hne : placeOf latest.time ≠ placeOf step.time := fun heq =>
      (hbehind (heq ▸ hlatest.reached)).ne' heq
    rw [h.applyUntil_of_isLatest htime hlatest]
    refine hordered.applyUntil_of_isLatest htime
      ⟨(hmem latest).2 (.inr ⟨hlatest.mem, hne⟩), hlatest.reached, fun other hother hdue => ?_⟩ _
    rcases (hmem other).1 hother with rfl | ⟨hother, -⟩
    · rw [hplace] at hdue ⊢
      exact (hbehind hdue).le
    · exact hlatest.last other hother hdue
  · rw [h.applyUntil_of_late htime hall]
    refine hordered.applyUntil_of_late htime (fun other hother => ?_) _
    rcases (hmem other).1 hother with rfl | ⟨hother, -⟩
    · by_contra hdue
      rw [hplace, not_lt] at hdue
      obtain ⟨later, hlater, -, hlaterDue⟩ := hpassed hdue
      exact (hall later hlater).not_ge hlaterDue
    · exact hall other hother

/-- To apply steps at a time on the way makes no difference to a later one. -/
theorem Ordered.applyUntil_applyUntil {later : Float} (h : ring.Ordered)
    (htime : time.isNaN = false) (hlater : later.isNaN = false)
    (hle : placeOf time ≤ placeOf later) (frequency : Float32) :
    ((ring.applyUntil time frequency).2.applyUntil later (ring.applyUntil time frequency).1).1 =
      (ring.applyUntil later frequency).1 := by
  obtain ⟨hordered, hmem⟩ := h.applyUntil htime frequency
  rcases h.exists_isLatest hlater with ⟨step, hlatest⟩ | hall
  · rw [h.applyUntil_of_isLatest hlater hlatest]
    by_cases hreached : placeOf step.time ≤ placeOf time
    · -- Nothing is left between the two times.
      rw [hordered.applyUntil_of_late hlater, h.applyUntil_of_isLatest htime]
      · exact ⟨hlatest.mem, hreached, fun other hother hdue =>
          hlatest.last other hother (hdue.trans hle)⟩
      · intro other hother
        obtain ⟨hother, hlate⟩ := (hmem other).1 hother
        by_contra hdue
        exact hlate.not_ge ((hlatest.last other hother (not_lt.1 hdue)).trans hreached)
    · refine hordered.applyUntil_of_isLatest hlater ⟨?_, hlatest.reached, fun other hother => ?_⟩ _
      · exact (hmem step).2 ⟨hlatest.mem, not_le.1 hreached⟩
      · exact hlatest.last other ((hmem other).1 hother).1
  · rw [h.applyUntil_of_late hlater hall, hordered.applyUntil_of_late hlater,
      h.applyUntil_of_late htime]
    · exact fun other hother => hle.trans_lt (hall other hother)
    · exact fun other hother => hall other ((hmem other).1 hother).1

end StepRing

end Chiptune
