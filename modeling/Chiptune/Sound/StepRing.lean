/-
  Steps of frequency that are still to come.

  The steps are kept in the order of their times, one for each time.  They lie in the
  slots of a ring, which is doubled when it is full, and a step moves the fewer of the
  others when it enters.  Where it enters is found by halving: in the run of slots up to
  the end of the ring, or in the run that goes on at its beginning.  While all times are
  numbers this is the place behind the steps that are not later; a time that is no
  number is neither late nor early, and then the place depends on the slots that the
  search comes by.
-/
set_option autoImplicit false

namespace Chiptune

/-- A step to a frequency at a time. -/
structure FrequencyStep where
  time : Float
  hz : Float32
  deriving DecidableEq

/-! ## Halving -/

/-- The last place, from `base` on, that halving leaves of `size` many, when it goes to
the upper half whenever the first step of that is early. -/
def halve (early : FrequencyStep → Bool) (steps : List FrequencyStep) (base size : Nat) : Nat :=
  if size ≤ 1 then base
  else
    let half := size / 2
    let base := if (steps[base + half]?).any early then base + half else base
    halve early steps base (size - half)
termination_by size
decreasing_by omega

/-- How many steps at the beginning are early, as halving finds it. -/
def countEarly (early : FrequencyStep → Bool) (steps : List FrequencyStep) : Nat :=
  let base := halve early steps 0 steps.length
  if (steps[base]?).any early then base + 1 else base

/-- Halving keeps between the last early step and the first other one. -/
theorem halve_bounds (early : FrequencyStep → Bool) (steps : List FrequencyStep) (count : Nat)
    (early_iff : ∀ i, (steps[i]?).any early = true ↔ i < count) (base size : Nat)
    (low : base = 0 ∨ base < count) (high : count ≤ base + size) :
    (halve early steps base size = 0 ∨ halve early steps base size < count) ∧
      count ≤ halve early steps base size + 1 := by
  induction size using Nat.strongRecOn generalizing base with
  | _ size ih =>
    unfold halve
    split
    · exact ⟨low, by omega⟩
    · have middle := early_iff (base + size / 2)
      by_cases isEarly : (steps[base + size / 2]?).any early = true
      · simp only [isEarly, if_true]
        exact ih (size - size / 2) (by omega) (base + size / 2)
          (.inr (middle.1 isEarly)) (by omega)
      · simp only [isEarly, Bool.false_eq_true, if_false]
        have : ¬ base + size / 2 < count := fun less => isEarly (middle.2 less)
        exact ih (size - size / 2) (by omega) base low (by omega)

/-- Where the early steps come first, halving finds how many there are. -/
theorem countEarly_eq (early : FrequencyStep → Bool) (steps : List FrequencyStep) (count : Nat)
    (early_iff : ∀ i, (steps[i]?).any early = true ↔ i < count) (le : count ≤ steps.length) :
    countEarly early steps = count := by
  have bounds := halve_bounds early steps count early_iff 0 steps.length (.inl rfl) (by omega)
  have last := early_iff (halve early steps 0 steps.length)
  unfold countEarly
  by_cases isEarly : (steps[halve early steps 0 steps.length]?).any early = true
  · have := last.1 isEarly
    simp only [isEarly, if_true]
    omega
  · have : ¬ halve early steps 0 steps.length < count := fun less => isEarly (last.2 less)
    simp only [isEarly, Bool.false_eq_true, if_false]
    omega

/-! ## The ring -/

/-- Steps in a ring of slots. -/
structure StepRing where
  /-- The steps, from the first one on. -/
  steps : List FrequencyStep
  /-- The slot of the first step. -/
  head : Nat
  /-- How many slots there are. -/
  slots : Nat
  deriving DecidableEq

namespace StepRing

/-- The ring without slots. -/
def empty : StepRing := ⟨[], 0, 0⟩

instance : Inhabited StepRing := ⟨empty⟩

/-- A ring with room for another step.  When the slots have been doubled, the shorter run
of steps is moved, to the end of the ring or behind the end of the other run. -/
def withRoom (ring : StepRing) : StepRing :=
  let count := ring.steps.length
  if count < ring.slots then ring
  else
    let slots := max 4 (2 * ring.slots)
    let front := ring.slots - ring.head
    let back := count - front
    if ring.head = 0 || (back < front && back ≤ slots - ring.slots) then
      { ring with slots }
    else { ring with slots, head := slots - front }

/-- Puts a step at a place.  The steps before the place move down when they are not more
than those behind it. -/
def insertAt (place : Nat) (step : FrequencyStep) (ring : StepRing) : StepRing :=
  let ring := ring.withRoom
  let behind := ring.steps.length - place
  { ring with
    steps := ring.steps.take place ++ step :: ring.steps.drop place
    head :=
      if behind < place then ring.head
      else if ring.head = 0 then ring.slots - 1
      else ring.head - 1 }

/-- Takes the first steps away. -/
def drop (count : Nat) (ring : StepRing) : StepRing :=
  let head := ring.head + count
  { ring with
    steps := ring.steps.drop count
    head := if head < ring.slots then head else head - ring.slots }

/-- The place where the steps that are not early begin, as halving finds it. -/
def place (early : FrequencyStep → Bool) (ring : StepRing) : Nat :=
  let front := ring.steps.take (ring.slots - ring.head)
  let back := ring.steps.drop (ring.slots - ring.head)
  if back.head?.any early then front.length + countEarly early back
  else countEarly early front

/-- Enters a step behind those that are not later.  A step for the time of the last of
them takes its place. -/
def enter (step : FrequencyStep) (ring : StepRing) : StepRing :=
  let place := ring.place fun other => other.time ≤ step.time
  let last := if place = 0 then none else ring.steps[place - 1]?
  match last with
  | some other =>
    if other.time == step.time then
      { ring with steps := ring.steps.set (place - 1) { other with hz := step.hz } }
    else ring.insertAt place step
  | none => ring.insertAt place step

/-- Applies steps in order, up to the first one that is later than a time. -/
def applyUntil (time : Float) (ring : StepRing) (frequency : Float32) : Float32 × StepRing :=
  let applied := ring.steps.takeWhile fun step => !(time < step.time)
  ((applied.getLast?.map (·.hz)).getD frequency, ring.drop applied.length)

end StepRing

end Chiptune
