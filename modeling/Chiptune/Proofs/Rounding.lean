/-
  Rounding of floating point numbers.

  The result of an operation on numbers is the exact result, cut off to the digits that are
  kept and rounded to the nearest number, to an even one between two.  Numbers are counted
  in the least magnitudes there are, and rounding takes a count to the place of a number;
  it keeps the order, and leaves what need not be rounded.
-/
import Chiptune.Proofs.TimeOrder
import Mathlib.Algebra.Order.Field.Rat
import Mathlib.Tactic.FieldSimp
import Mathlib.Tactic.Linarith

set_option autoImplicit false

namespace Chiptune.Seconds

open Float.Model (UnpackedFloat totalExponent)
open Float.Model.Format (binary64)
open Float.Model.UnpackedFloat

/-! ## Rounding to whole numbers -/

/-- What the digits kept of a number say of it: the mantissa is its whole part, and where it lies
above that is told by the two digits behind. -/
def Tells (digits : ExtendedMantissa) (number : ℚ) : Prop :=
  match digits.accuracy with
  | .exact => number = digits.mantissa
  | .inexact .lt => digits.mantissa < number ∧ number < digits.mantissa + 1 / 2
  | .inexact .eq => number = digits.mantissa + 1 / 2
  | .inexact .gt => digits.mantissa + 1 / 2 < number ∧ number < digits.mantissa + 1

/-- The digits of a whole number. -/
def whole (number : Nat) : ExtendedMantissa := .ofMantissaAndAccuracy number .exact

theorem tells_whole (number : Nat) : Tells (whole number) number := rfl

theorem Tells.shiftRightOne {digits : ExtendedMantissa} {number : ℚ} (h : Tells digits number) :
    Tells digits.shiftRightOne (number / 2) := by
  obtain ⟨mantissa, round, sticky⟩ := digits
  have hhalf : ((mantissa % 2 : Nat) : ℚ) + 2 * ((mantissa / 2 : Nat) : ℚ) = mantissa := by
    exact_mod_cast Nat.mod_add_div mantissa 2
  rcases Nat.mod_two_eq_zero_or_one mantissa with hlast | hlast <;> rw [hlast] at hhalf <;>
    cases round <;> cases sticky <;>
    simp [Tells, ExtendedMantissa.shiftRightOne, ExtendedMantissa.accuracy, hlast] at h hhalf ⊢ <;>
    first
    | linarith
    | constructor <;> linarith

theorem Tells.shiftRight {digits : ExtendedMantissa} {number : ℚ} (h : Tells digits number)
    (count : Nat) : Tells (digits >>> count) (number / 2 ^ count) := by
  change Tells (count.repeat ExtendedMantissa.shiftRightOne digits) _
  induction count with
  | zero => simpa [Nat.repeat] using h
  | succ count ih =>
    rw [Nat.repeat, pow_succ, ← div_div]
    exact ih.shiftRightOne

/-- Rounding keeps the order of numbers. -/
theorem Tells.rounded_le {digits digits' : ExtendedMantissa} {number number' : ℚ}
    (h : Tells digits number) (h' : Tells digits' number') (hle : number ≤ number') :
    digits.roundedMantissa ≤ digits'.roundedMantissa := by
  obtain ⟨mantissa, round, sticky⟩ := digits
  obtain ⟨mantissa', round', sticky'⟩ := digits'
  have hmantissa : mantissa ≤ mantissa' := by
    by_contra hgt
    have hgt : (mantissa' : ℚ) + 1 ≤ mantissa := by exact_mod_cast Nat.lt_of_not_le hgt
    cases round <;> cases sticky <;> cases round' <;> cases sticky' <;>
      simp [Tells, ExtendedMantissa.accuracy] at h h' <;> linarith
  rcases Nat.eq_or_lt_of_le hmantissa with rfl | hlt
  · cases round <;> cases sticky <;> cases round' <;> cases sticky' <;>
      simp [Tells, ExtendedMantissa.accuracy] at h h' <;>
      simp only [ExtendedMantissa.roundedMantissa, ExtendedMantissa.accuracy,
        Accuracy.roundToNearestEven] <;>
      first
      | omega
      | exfalso; linarith
  · cases round <;> cases sticky <;> cases round' <;> cases sticky' <;>
      simp only [ExtendedMantissa.roundedMantissa, ExtendedMantissa.accuracy,
        Accuracy.roundToNearestEven] <;> omega

theorem rounded_whole (number : Nat) : (whole number).roundedMantissa = number := rfl

/-- A number is rounded to one that lies between the same whole numbers. -/
theorem Tells.le_rounded {digits : ExtendedMantissa} {number : ℚ} (h : Tells digits number)
    {bound : Nat} (hle : (bound : ℚ) ≤ number) : bound ≤ digits.roundedMantissa :=
  (tells_whole bound).rounded_le h hle

theorem Tells.rounded_le_whole {digits : ExtendedMantissa} {number : ℚ} (h : Tells digits number)
    {bound : Nat} (hle : number ≤ bound) : digits.roundedMantissa ≤ bound :=
  h.rounded_le (tells_whole bound) hle

/-- Two ways to keep the digits of one number are rounded alike. -/
theorem Tells.rounded_eq {digits digits' : ExtendedMantissa} {number : ℚ}
    (h : Tells digits number) (h' : Tells digits' number) :
    digits.roundedMantissa = digits'.roundedMantissa :=
  Nat.le_antisymm (h.rounded_le h' (le_refl _)) (h'.rounded_le h (le_refl _))

/-! ## Grades -/

/-- How many digits of a number are cut off when it is rounded. -/
def cutOff (number : Nat) : Nat := number.log2 - 52

/-- The place of the magnitude to which a number of the least magnitudes is rounded. -/
def grade (number : Nat) : Nat :=
  cutOff number * 2 ^ 52 + (whole number >>> cutOff number).roundedMantissa

theorem tells_cut (number count : Nat) :
    Tells (whole number >>> count) (number / 2 ^ count) :=
  (tells_whole number).shiftRight count

theorem lt_cutOff (number : Nat) : number < 2 ^ 53 * 2 ^ cutOff number := by
  rw [← Nat.pow_add]
  refine Nat.lt_of_lt_of_le Nat.lt_log2_self (Nat.pow_le_pow_right (by decide) ?_)
  rw [cutOff]
  omega

theorem cutOff_le {number : Nat} (h : cutOff number ≠ 0) :
    2 ^ 52 * 2 ^ cutOff number ≤ number := by
  have hnumber : number ≠ 0 := by
    rintro rfl
    exact h (by decide)
  have hlog : 52 + cutOff number = number.log2 := by
    rw [cutOff] at h ⊢
    omega
  rw [← Nat.pow_add, hlog]
  exact Nat.log2_self_le hnumber

/-- What is left of a number has at most one digit too many, when it is rounded up. -/
theorem rounded_cut_le (number : Nat) :
    (whole number >>> cutOff number).roundedMantissa ≤ 2 ^ 53 := by
  refine (tells_cut number _).rounded_le_whole ?_
  rw [div_le_iff₀ (by positivity)]
  exact_mod_cast (lt_cutOff number).le

theorem le_rounded_cut {number : Nat} (h : cutOff number ≠ 0) :
    2 ^ 52 ≤ (whole number >>> cutOff number).roundedMantissa := by
  refine (tells_cut number _).le_rounded ?_
  rw [le_div_iff₀ (by positivity)]
  exact_mod_cast cutOff_le h

/-- Greater numbers have greater grades. -/
theorem grade_mono {number number' : Nat} (h : number ≤ number') :
    grade number ≤ grade number' := by
  have hcut : cutOff number ≤ cutOff number' := by
    rcases Nat.eq_zero_or_pos number with rfl | hpos
    · exact Nat.zero_le _
    · refine Nat.sub_le_sub_right ?_ 52
      exact (Nat.le_log2 (by omega)).2 ((Nat.log2_self_le (by omega)).trans h)
  rcases Nat.eq_or_lt_of_le hcut with heq | hlt
  · rw [grade, grade, ← heq]
    refine Nat.add_le_add_left ((tells_cut number _).rounded_le (tells_cut number' _) ?_) _
    gcongr
  · have hupper := rounded_cut_le number
    have hlower := @le_rounded_cut number' (by omega)
    rw [grade, grade]
    omega

/-- The magnitude at a place. -/
def magnitude (place : Nat) : Nat :=
  if place < 2 ^ 53 then place else (2 ^ 52 + place % 2 ^ 52) * 2 ^ (place / 2 ^ 52 - 1)

theorem log2_scaled {mantissa : Nat} (hpos : 0 < mantissa) (count : Nat) :
    (mantissa * 2 ^ count).log2 = mantissa.log2 + count := by
  rw [Nat.log2_eq_iff (by positivity), Nat.add_right_comm, Nat.pow_add, Nat.pow_add]
  exact ⟨Nat.mul_le_mul_right _ (Nat.log2_self_le (by omega)),
    Nat.mul_lt_mul_of_pos_right Nat.lt_log2_self (by positivity)⟩

/-- Magnitudes need not be rounded. -/
theorem grade_scaled {mantissa : Nat} (hupper : mantissa < 2 ^ 53) (count : Nat)
    (hlower : 2 ^ 52 ≤ mantissa ∨ count = 0) :
    grade (mantissa * 2 ^ count) = count * 2 ^ 52 + mantissa := by
  have hcut : cutOff (mantissa * 2 ^ count) = count := by
    rcases Nat.eq_zero_or_pos mantissa with rfl | hpos
    · simp [cutOff]
      omega
    · have hmost : mantissa.log2 < 53 := (Nat.log2_lt (by omega)).2 hupper
      rw [cutOff, log2_scaled hpos]
      rcases hlower with hlower | rfl
      · have hleast := (Nat.le_log2 (by omega)).2 hlower
        omega
      · omega
  have htells := tells_cut (mantissa * 2 ^ count) count
  have hwhole : ((mantissa * 2 ^ count : Nat) : ℚ) / 2 ^ count = mantissa := by
    push_cast
    field_simp
  rw [hwhole] at htells
  rw [grade, hcut, htells.rounded_eq (tells_whole mantissa), rounded_whole]

theorem grade_magnitude (place : Nat) : grade (magnitude place) = place := by
  unfold magnitude
  split
  · rename_i hlt
    have h := grade_scaled hlt 0 (.inr rfl)
    rw [Nat.pow_zero, Nat.mul_one] at h
    omega
  · have h := @grade_scaled (2 ^ 52 + place % 2 ^ 52) (by omega) (place / 2 ^ 52 - 1)
      (.inl (by omega))
    rw [h]
    omega

theorem magnitude_mono {place place' : Nat} (h : place ≤ place') :
    magnitude place ≤ magnitude place' := by
  by_contra hgt
  have hgrade := grade_mono (Nat.le_of_not_le hgt)
  rw [grade_magnitude, grade_magnitude] at hgrade
  rw [Nat.le_antisymm h hgrade] at hgt
  exact hgt (Nat.le_refl _)

theorem magnitude_scaled {mantissa : Nat} (hupper : mantissa < 2 ^ 53) (count : Nat)
    (hlower : 2 ^ 52 ≤ mantissa ∨ count = 0) :
    magnitude (count * 2 ^ 52 + mantissa) = mantissa * 2 ^ count := by
  unfold magnitude
  split
  · have hcount : count = 0 := by omega
    subst hcount
    omega
  · have hcount : (count * 2 ^ 52 + mantissa) / 2 ^ 52 - 1 = count := by omega
    have hmantissa : 2 ^ 52 + (count * 2 ^ 52 + mantissa) % 2 ^ 52 = mantissa := by omega
    rw [hcount, hmantissa]

/-! ## Rounding numbers -/

/-- A number has the one form that it has as a result, before it is found to be too large. -/
def IsRounded : UnpackedFloat → Prop
  | .zero _ => True
  | .finite _ mantissa exponent _ =>
    mantissa < 2 ^ 53 ∧ -1074 ≤ exponent ∧ (2 ^ 52 ≤ mantissa ∨ exponent = -1074)
  | _ => False

/-- A number counted in the least magnitudes. -/
def counted (mantissa : Nat) (exponent : Int) : Nat := mantissa * 2 ^ (exponent + 1074).toNat

variable {mantissa : Nat} {exponent : Int}

theorem targetExponent_eq (hpos : 0 < mantissa) (hexponent : -1074 ≤ exponent) :
    binary64.targetExponent (totalExponent mantissa exponent) =
      cutOff (counted mantissa exponent) - 1074 := by
  have hdigits : binary64.mantissaBits = 53 := rfl
  have hleast : binary64.minExponent = -1074 := by decide
  rw [Float.Model.Format.targetExponent, Float.Model.totalExponent, hdigits, hleast, cutOff,
    counted, log2_scaled hpos]
  omega

/-- The first shift cuts a number off to the digits that are kept. -/
theorem rounded_shiftToTargetExponent (hpos : 0 < mantissa) (hexponent : -1074 ≤ exponent)
    (hle : exponent ≤ cutOff (counted mantissa exponent) - 1074) :
    (shiftToTargetExponent binary64 mantissa exponent .exact).1.roundedMantissa =
        (whole (counted mantissa exponent) >>> cutOff (counted mantissa exponent)).roundedMantissa ∧
      (shiftToTargetExponent binary64 mantissa exponent .exact).2 =
        cutOff (counted mantissa exponent) - 1074 := by
  rw [shiftToTargetExponent, targetExponent_eq hpos hexponent]
  generalize hcount : cutOff (counted mantissa exponent) = count at hle ⊢
  refine ⟨?_, by change exponent + _ = _; omega⟩
  obtain ⟨shift, hshift⟩ : ∃ shift, (count - 1074 - exponent).toNat = shift := ⟨_, rfl⟩
  have hsplit : count = (exponent + 1074).toNat + shift := by omega
  have htells := tells_cut (counted mantissa exponent) count
  have hsame : ((counted mantissa exponent : Nat) : ℚ) / 2 ^ count = mantissa / 2 ^ shift := by
    rw [counted, hsplit, pow_add]
    push_cast
    field_simp
  rw [hsame] at htells
  rw [shiftToExponent, hshift]
  exact (tells_cut mantissa shift).rounded_eq htells

/-- Rounding may have given one digit too many; the second shift takes it off. -/
theorem shiftToTargetExponent_of_le (hupper : mantissa ≤ 2 ^ 53) (hexponent : -1074 ≤ exponent) :
    let shifted := shiftToTargetExponent binary64 mantissa exponent .exact
    (mantissa < 2 ^ 53 ∧ shifted.1.mantissa = mantissa ∧ shifted.2 = exponent) ∨
      (mantissa = 2 ^ 53 ∧ shifted.1.mantissa = 2 ^ 52 ∧ shifted.2 = exponent + 1) := by
  have hdigits : binary64.mantissaBits = 53 := rfl
  have hleast : binary64.minExponent = -1074 := by decide
  rcases Nat.lt_or_eq_of_le hupper with hlt | rfl
  · have hlog : mantissa.log2 ≤ 52 := by
      rcases Nat.eq_zero_or_pos mantissa with rfl | hpos
      · decide
      · exact Nat.le_of_lt_succ ((Nat.log2_lt (by omega)).2 hlt)
    have hshift : (binary64.targetExponent (totalExponent mantissa exponent) - exponent).toNat
        = 0 := by
      rw [Float.Model.Format.targetExponent, Float.Model.totalExponent, hdigits, hleast]
      omega
    refine .inl ⟨hlt, ?_, ?_⟩
    · rw [shiftToTargetExponent, shiftToExponent, hshift]
      rfl
    · rw [shiftToTargetExponent, shiftToExponent, hshift]
      exact Int.add_zero exponent
  · have hshift : (binary64.targetExponent (totalExponent (2 ^ 53) exponent) - exponent).toNat
        = 1 := by
      rw [Float.Model.Format.targetExponent, Float.Model.totalExponent, hdigits, hleast,
        Nat.log2_two_pow]
      omega
    refine .inr ⟨rfl, ?_, ?_⟩
    · rw [shiftToTargetExponent, shiftToExponent, hshift]
      rfl
    · rw [shiftToTargetExponent, shiftToExponent, hshift]
      rfl

/-- What is put together from the digits and the exponent that a shift leaves. -/
def leftBy (sign : Sign) (shifted : ExtendedMantissa × Int) : UnpackedFloat :=
  if h : shifted.1.mantissa = 0 then .zero sign
  else .finite sign shifted.1.mantissa shifted.2 (Nat.pos_of_ne_zero h)

/-- A number that has been rounded is put together from what the second shift leaves. -/
theorem level_carried (sign : Sign) {rounded count : Nat} (hmost : rounded ≤ 2 ^ 53)
    (hleast : count ≠ 0 → 2 ^ 52 ≤ rounded) :
    let result := leftBy sign (shiftToTargetExponent binary64 rounded (count - 1074) .exact)
    IsRounded result ∧ level result = sign.apply (count * 2 ^ 52 + rounded : Nat) := by
  intro result
  rcases @shiftToTargetExponent_of_le rounded (count - 1074) hmost (by omega) with
    ⟨hlt, hmantissa, hshifted⟩ | ⟨rfl, hmantissa, hshifted⟩
  · by_cases hzero : rounded = 0
    · obtain rfl : count = 0 := by
        by_contra hcut
        have := hleast hcut
        omega
      subst hzero
      exact ⟨trivial, by cases sign <;> rfl⟩
    · have hresult : result = .finite sign rounded (count - 1074) (Nat.pos_of_ne_zero hzero) :=
        (dif_neg (by rwa [hmantissa])).trans (finite_congr rfl hmantissa hshifted)
      rw [hresult]
      refine ⟨⟨hlt, by omega, ?_⟩, ?_⟩
      · by_cases hcut : count = 0
        · exact .inr (by omega)
        · exact .inl (hleast hcut)
      · rw [level_finite]
        congr 1
        omega
  · have hresult : result = .finite sign (2 ^ 52) (count - 1074 + 1) (by decide) :=
      (dif_neg (by rw [hmantissa]; decide)).trans (finite_congr rfl hmantissa hshifted)
    rw [hresult]
    refine ⟨⟨by decide, by omega, .inl (Nat.le_refl _)⟩, ?_⟩
    rw [level_finite]
    congr 1
    omega

theorem roundWithAccuracy_spec (sign : Sign) (hpos : 0 < mantissa) (hexponent : -1074 ≤ exponent)
    (hle : exponent ≤ cutOff (counted mantissa exponent) - 1074) :
    IsRounded (roundWithAccuracy binary64 sign mantissa exponent .exact) ∧
      level (roundWithAccuracy binary64 sign mantissa exponent .exact) =
        sign.apply (grade (counted mantissa exponent)) := by
  obtain ⟨hrounded, htarget⟩ := rounded_shiftToTargetExponent hpos hexponent hle
  have hleft : roundWithAccuracy binary64 sign mantissa exponent .exact =
      leftBy sign (shiftToTargetExponent binary64
        (shiftToTargetExponent binary64 mantissa exponent .exact).1.roundedMantissa
        (shiftToTargetExponent binary64 mantissa exponent .exact).2 .exact) := rfl
  rw [hleft, hrounded, htarget]
  exact level_carried sign (rounded_cut_le _) le_rounded_cut

/-- A number is rounded to that of its grade. -/
theorem round_spec (sign : Sign) (hpos : 0 < mantissa) (hexponent : -1074 ≤ exponent) :
    IsRounded (UnpackedFloat.round binary64 sign mantissa exponent) ∧
      level (UnpackedFloat.round binary64 sign mantissa exponent) =
        sign.apply (grade (counted mantissa exponent)) := by
  rw [UnpackedFloat.round, targetExponent_eq hpos hexponent]
  simp only [decreaseExponent]
  generalize hshift : (exponent - (cutOff (counted mantissa exponent) - 1074)).toNat = shift
  have hsame : counted (mantissa <<< shift) (exponent - shift) = counted mantissa exponent := by
    have hsplit : (exponent + 1074).toNat = shift + (exponent - shift + 1074).toNat := by omega
    rw [counted, counted, hsplit, Nat.shiftLeft_eq, Nat.pow_add, Nat.mul_assoc]
  have hpos' : 0 < mantissa <<< shift := by
    rw [Nat.shiftLeft_eq]
    positivity
  have h := @roundWithAccuracy_spec _ (exponent - shift) sign hpos' (by omega)
    (by rw [hsame]; omega)
  rwa [hsame] at h

end Chiptune.Seconds
