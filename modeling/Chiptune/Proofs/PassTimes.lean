/-
  The times of a pass.

  A pass steps the frequency of its voice at times that are added up tone by tone, and its
  end is told by a sum of its own.  As long as tones have lengths and the end is a time, the
  steps come in order, none of them before the anchor and none behind the end.
-/
import Chiptune.Proofs.Rearming
import Chiptune.Proofs.TimeSums

set_option autoImplicit false

namespace Chiptune

/-! ## Lengths -/

namespace Tone

/-- The length of several tones together, added up behind a cursor. -/
def lengthFrom (cursor : Seconds) (tones : List Tone) : Seconds :=
  tones.foldl (fun sum tone => sum + tone.seconds) cursor

variable {tones : List Tone} {cursor cursor' : Seconds}

/-- No tone is shorter than nothing. -/
def HaveLengths (tones : List Tone) : Prop := ∀ tone ∈ tones, 0 ≤ tone.seconds

instance (tones : List Tone) : Decidable (HaveLengths tones) :=
  inferInstanceAs (Decidable (∀ tone ∈ tones, _))

/-- Behind a length there are only longer ones. -/
theorem le_lengthFrom (h : HaveLengths tones) (hcursor : 0 ≤ cursor) :
    cursor ≤ lengthFrom cursor tones := by
  induction tones generalizing cursor with
  | nil => exact Seconds.le_refl (Seconds.isNaN_of_le hcursor).2
  | cons tone tones ih =>
    obtain ⟨htone, htones⟩ := List.forall_mem_cons.1 h
    have hsum := Seconds.isNaN_add_of_nonneg hcursor htone
    have hle := Seconds.le_add (Seconds.isNaN_of_le hcursor).2 htone hsum
    exact Seconds.le_trans hle (ih htones (Seconds.le_trans hcursor hle))

/-- Tones behind a later cursor end later. -/
theorem lengthFrom_le (h : HaveLengths tones) (hcursor : 0 ≤ cursor) (hle : cursor ≤ cursor') :
    lengthFrom cursor tones ≤ lengthFrom cursor' tones := by
  induction tones generalizing cursor cursor' with
  | nil => exact hle
  | cons tone tones ih =>
    obtain ⟨htone, htones⟩ := List.forall_mem_cons.1 h
    have hsum := Seconds.isNaN_add_of_nonneg hcursor htone
    have hsum' := Seconds.isNaN_add_of_nonneg (Seconds.le_trans hcursor hle) htone
    have hadded := Seconds.le_add (Seconds.isNaN_of_le hcursor).2 htone hsum
    exact ih htones (Seconds.le_trans hcursor hadded)
      (Seconds.add_le_add_right hle (Seconds.isNaN_of_le htone).2 hsum hsum')

/-- The length of a voice, which is added up from negative zero, is not below the sum from
zero. -/
theorem lengthFrom_zero_le (h : HaveLengths tones) :
    lengthFrom 0 tones ≤ totalLength tones :=
  lengthFrom_le h (by decide +kernel) (by decide +kernel)

end Tone

/-! ## Times behind an anchor -/

/-- Tones that are stepped through behind an anchor begin in order, and between the first one
and the end of all. -/
theorem onsets_between {anchor cursor : Seconds} {tones : List Tone}
    (hanchor : anchor.isNaN = false) (hcursor : 0 ≤ cursor) (htones : Tone.HaveLengths tones)
    (hend : (anchor + Tone.lengthFrom cursor tones).isNaN = false) :
    (onsets anchor cursor tones).Pairwise (· ≤ ·) ∧
      ∀ time ∈ onsets anchor cursor tones,
        anchor + cursor ≤ time ∧ time ≤ anchor + Tone.lengthFrom cursor tones := by
  induction tones generalizing cursor with
  | nil => exact ⟨.nil, nofun⟩
  | cons tone tones ih =>
    obtain ⟨htone, hothers⟩ := List.forall_mem_cons.1 htones
    have hsum := Seconds.isNaN_add_of_nonneg hcursor htone
    have hnext := Seconds.le_add (Seconds.isNaN_of_le hcursor).2 htone hsum
    have hnext' := Seconds.le_trans hcursor hnext
    have htotal := Tone.le_lengthFrom htones hcursor
    obtain ⟨hordered, hbetween⟩ := ih hnext' hothers hend
    have hfirst := Seconds.isNaN_add_of_le hanchor hcursor htotal hend
    have hsecond := Seconds.isNaN_add_of_le hanchor hnext' (Tone.le_lengthFrom hothers hnext') hend
    have hstep := Seconds.add_le_add_left hnext hanchor hfirst hsecond
    rw [onsets]
    refine ⟨.cons (fun time hmem => Seconds.le_trans hstep (hbetween time hmem).1) hordered, ?_⟩
    intro time hmem
    rcases List.mem_cons.1 hmem with rfl | hmem
    · exact ⟨Seconds.le_refl hfirst, Seconds.add_le_add_left htotal hanchor hfirst hend⟩
    · obtain ⟨hlower, hupper⟩ := hbetween time hmem
      exact ⟨Seconds.le_trans hstep hlower, hupper⟩

/-! ## Passes -/

namespace Scheduler.Pass

/-- The time at which a pass ends. -/
def finish (pass : Pass) : Seconds := pass.anchor + pass.task.total

/-- The times at which a pass steps the frequency. -/
def times (pass : Pass) : List Seconds := onsets pass.anchor 0 pass.task.tones

/-- The steps of frequency of a pass. -/
def tunings (pass : Pass) : List (NodeId × Float × Seconds) :=
  List.zipWith (fun tone time => (pass.task.voice.oscillator, tone.hz, time)) pass.task.tones
    pass.times

/-- A pass begins and ends at some time, and its tones have lengths, those that are counted. -/
structure Timely (pass : Pass) : Prop where
  anchor : pass.anchor.isNaN = false
  lengths : Tone.HaveLengths pass.task.tones
  total : pass.task.total = Tone.totalLength pass.task.tones
  finish : pass.finish.isNaN = false

variable {pass : Pass}

/-- The tones of a pass are no longer than they are counted. -/
theorem Timely.length_le_total (h : pass.Timely) :
    0 ≤ Tone.lengthFrom 0 pass.task.tones ∧
      Tone.lengthFrom 0 pass.task.tones ≤ pass.task.total := by
  rw [h.total]
  exact ⟨Tone.le_lengthFrom h.lengths (Seconds.le_refl Seconds.isNaN_zero),
    Tone.lengthFrom_zero_le h.lengths⟩

/-- The steps of a pass come in order, none before its anchor and none behind its end. -/
theorem Timely.times (h : pass.Timely) :
    pass.times.Pairwise (· ≤ ·) ∧
      ∀ time ∈ pass.times, pass.anchor ≤ time ∧ time ≤ pass.finish := by
  have hzero := Seconds.le_refl Seconds.isNaN_zero
  obtain ⟨hlength, htotal⟩ := h.length_le_total
  have hend := Seconds.isNaN_add_of_le h.anchor hlength htotal h.finish
  have hfirst := Seconds.isNaN_add_of_le h.anchor hzero hlength hend
  obtain ⟨hordered, hbetween⟩ := onsets_between h.anchor hzero h.lengths hend
  refine ⟨hordered, fun time hmem => ?_⟩
  obtain ⟨hlower, hupper⟩ := hbetween time hmem
  exact ⟨Seconds.le_trans (Seconds.le_add h.anchor hzero hfirst) hlower,
    Seconds.le_trans hupper (Seconds.add_le_add_left htotal h.anchor hend h.finish)⟩

/-- A pass does not end before it begins. -/
theorem Timely.anchor_le_finish (h : pass.Timely) : pass.anchor ≤ pass.finish := by
  obtain ⟨hlength, htotal⟩ := h.length_le_total
  exact Seconds.le_add h.anchor (Seconds.le_trans hlength htotal) h.finish

end Scheduler.Pass

end Chiptune
