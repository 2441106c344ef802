/-
  Timers that wait in order.

  Arming puts a timer in its place and loses none.  While no deadline is undefined,
  the timers that are due stand in front of all others, so the firing of timers may
  stop at the first one that is not due.
-/
import Chiptune.Playback.Timer
import Chiptune.Proofs.TimeOrder

set_option autoImplicit false

namespace Chiptune.Timer

/-! ## The order of timers -/

/-- Timers wait in order when none of them precedes one that stands before it. -/
def Ordered (timers : List Timer) : Prop :=
  timers.Pairwise fun first second => second.precedes first = false

/-- No deadline is undefined. -/
def Numeric (timers : List Timer) : Prop :=
  ∀ timer ∈ timers, timer.due.isNaN = false

instance (timers : List Timer) : Decidable (Numeric timers) :=
  inferInstanceAs (Decidable (∀ timer ∈ timers, _))

theorem precedes_eq_false_iff {timer other : Timer} :
    timer.precedes other = false ↔
      other.due.rank < timer.due.rank ∨
        (other.due.rank = timer.due.rank ∧ other.handle ≤ timer.handle) := by
  simp only [precedes, Bool.or_eq_false_iff, Bool.and_eq_false_imp, decide_eq_false_iff_not,
    beq_iff_eq, VoiceId]
  omega

theorem precedes_eq_true_iff {timer other : Timer} :
    timer.precedes other = true ↔
      timer.due.rank < other.due.rank ∨
        (timer.due.rank = other.due.rank ∧ timer.handle < other.handle) := by
  simp only [precedes, Bool.or_eq_true, Bool.and_eq_true, decide_eq_true_eq, beq_iff_eq]

/-- A timer that waits behind another one waits behind all that this one waits behind. -/
theorem precedes_trans_false {first second third : Timer}
    (h : second.precedes first = false) (h' : third.precedes second = false) :
    third.precedes first = false := by
  simp only [precedes_eq_false_iff, VoiceId] at *
  omega

/-- A timer waits behind those that precede it. -/
theorem precedes_asymm {first second : Timer} (h : first.precedes second = true) :
    second.precedes first = false := by
  simp only [precedes_eq_true_iff, precedes_eq_false_iff, VoiceId] at *
  omega

/-! ## Arming -/

/-- Arming adds the timer and keeps all others. -/
theorem arm_perm (timer : Timer) (timers : List Timer) :
    (arm timer timers).Perm (timer :: timers) := by
  induction timers with
  | nil => exact .refl _
  | cons other others ih =>
    unfold arm
    split
    · exact .refl _
    · exact (ih.cons other).trans (.swap timer other others)

/-- Arming keeps the order. -/
theorem ordered_arm (timer : Timer) {timers : List Timer} (h : Ordered timers) :
    Ordered (arm timer timers) := by
  induction timers with
  | nil => exact List.pairwise_singleton _ _
  | cons other others ih =>
    obtain ⟨hother, hothers⟩ := List.pairwise_cons.1 h
    unfold arm
    split
    · rename_i hbefore
      refine List.pairwise_cons.2 ⟨fun later hlater => ?_, h⟩
      have hfirst := precedes_asymm hbefore
      rcases List.mem_cons.1 hlater with rfl | hlater
      · exact hfirst
      · exact precedes_trans_false hfirst (hother later hlater)
    · rename_i hbehind
      refine List.pairwise_cons.2 ⟨fun later hlater => ?_, ih hothers⟩
      rcases List.mem_cons.1 ((arm_perm timer others).mem_iff.1 hlater) with rfl | hlater
      · exact Bool.eq_false_iff.2 hbehind
      · exact hother later hlater

/-- Arming one timer after another adds all of them. -/
theorem foldl_arm_perm (armed timers : List Timer) :
    (armed.foldl (fun timers timer => timer.arm timers) timers).Perm (armed ++ timers) := by
  induction armed generalizing timers with
  | nil => exact .refl _
  | cons timer armed ih =>
    rw [List.foldl_cons, List.cons_append]
    exact (ih (timer.arm timers)).trans
      ((List.Perm.append_left armed (arm_perm timer timers)).trans List.perm_middle)

/-- Arming one timer after another keeps the order. -/
theorem ordered_foldl_arm (armed : List Timer) {timers : List Timer} (h : Ordered timers) :
    Ordered (armed.foldl (fun timers timer => timer.arm timers) timers) := by
  induction armed generalizing timers with
  | nil => exact h
  | cons timer armed ih => exact ih (ordered_arm timer h)

/-! ## Timers that are due -/

/-- Where a timer is due, those that stand before it are. -/
theorem due_of_precedes_eq_false {first second : Timer} {now : Seconds}
    (hnumber : first.due.isNaN = false) (hbefore : second.precedes first = false)
    (hdue : second.due ≤ now) : first.due ≤ now := by
  refine Seconds.le_of_rank_le hnumber ?_ hdue
  rw [precedes_eq_false_iff] at hbefore
  omega

/-- The timers that are due stand in front. -/
theorem takeWhile_due {timers : List Timer} (now : Seconds) (hordered : Ordered timers)
    (hnumeric : Numeric timers) :
    timers.takeWhile (fun timer => decide (timer.due ≤ now)) =
        timers.filter (fun timer => decide (timer.due ≤ now)) ∧
      timers.dropWhile (fun timer => decide (timer.due ≤ now)) =
        timers.filter (fun timer => !decide (timer.due ≤ now)) := by
  induction timers with
  | nil => exact ⟨rfl, rfl⟩
  | cons timer timers ih =>
    obtain ⟨hfirst, hrest⟩ := List.pairwise_cons.1 hordered
    obtain ⟨htake, hdrop⟩ := ih hrest fun other hm => hnumeric other (List.mem_cons_of_mem _ hm)
    by_cases hdue : timer.due ≤ now
    · simp [hdue, htake, hdrop]
    · have hnone : ∀ other ∈ timers, ¬ other.due ≤ now := by
        intro other hm hlate
        exact hdue (due_of_precedes_eq_false (hnumeric timer List.mem_cons_self)
          (hfirst other hm) hlate)
      have hfilter : timers.filter (fun timer => decide (timer.due ≤ now)) = [] :=
        List.filter_eq_nil_iff.2 fun other hm => by simp [hnone other hm]
      have hkeep : timers.filter (fun timer => !decide (timer.due ≤ now)) = timers :=
        List.filter_eq_self.2 fun other hm => by simp [hnone other hm]
      simp [hdue, hfilter, hkeep]

end Chiptune.Timer
