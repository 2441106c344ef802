/-
  Sums of times.

  A sum is the exact sum of two numbers, rounded; beyond the greatest number it is
  infinite, and opposite infinities have none.  So sums keep the order of what is added,
  and adding a length to a time leads to no earlier one.
-/
import Chiptune.Proofs.Rounding
import Mathlib.Tactic.Ring

set_option autoImplicit false

namespace Chiptune.Seconds

open Float.Model (UnpackedFloat)
open Float.Model.Format (binary64)
open Float.Model.UnpackedFloat

variable {mantissa : Nat} {exponent : Int}

/-! ## Both signs -/

/-- What is done to magnitudes is done to numbers on both sides of zero. -/
def signed (f : Nat → Nat) (number : Int) : Int :=
  if 0 ≤ number then f number.toNat else -f (-number).toNat

theorem signed_mono {f : Nat → Nat}
    (hmono : ∀ {number number'}, number ≤ number' → f number ≤ f number')
    {number number' : Int} (h : number ≤ number') : signed f number ≤ signed f number' := by
  have hright := @hmono number.toNat number'.toNat
  have hleft := @hmono (-number').toNat (-number).toNat
  unfold signed
  split <;> split <;> omega

theorem signed_apply {f : Nat → Nat} (hzero : f 0 = 0) (sign : Sign) (number : Nat) :
    signed f (sign.apply number) = sign.apply (f number) := by
  unfold signed
  cases sign with
  | positive => simp [Sign.apply]
  | negative =>
    rcases Nat.eq_zero_or_pos number with rfl | hpos
    · simp [Sign.apply, hzero]
    · rw [Sign.apply, if_neg (by omega)]
      simp [Sign.apply]

theorem signed_grade_magnitude (place : Int) : signed grade (signed magnitude place) = place := by
  have hzero : grade 0 = 0 := by decide
  have hzero' : magnitude 0 = 0 := by decide
  have hsign : ∃ (sign : Sign) (count : Nat), place = sign.apply count := by
    rcases Int.le_total 0 place with hle | hle
    · exact ⟨.positive, place.toNat, by simp [Sign.apply, hle]⟩
    · exact ⟨.negative, (-place).toNat, by simp only [Sign.apply]; omega⟩
  obtain ⟨sign, count, rfl⟩ := hsign
  rw [signed_apply hzero', signed_apply hzero, grade_magnitude]

theorem normalize_spec (number : Int) (hexponent : -1074 ≤ exponent) :
    IsRounded (UnpackedFloat.normalize binary64 number exponent .positive) ∧
      level (UnpackedFloat.normalize binary64 number exponent .positive) =
        signed grade (number * 2 ^ (exponent + 1074).toNat) := by
  have hscale : (0 : Int) < 2 ^ (exponent + 1074).toNat := by positivity
  unfold UnpackedFloat.normalize
  rcases Int.lt_trichotomy number 0 with hlt | rfl | hgt
  · obtain ⟨hrounded, hlevel⟩ := @round_spec (-number).toNat exponent .negative (by omega) hexponent
    rw [Int.compare_eq_lt.2 hlt]
    refine ⟨hrounded, hlevel.trans ?_⟩
    rw [← signed_apply (by decide)]
    congr 1
    rw [Sign.apply, counted]
    push_cast
    rw [Int.toNat_of_nonneg (by omega)]
    ring
  · rw [Int.compare_eq_eq.2 rfl, zero_mul]
    exact ⟨trivial, rfl⟩
  · obtain ⟨hrounded, hlevel⟩ := @round_spec number.toNat exponent .positive (by omega) hexponent
    rw [Int.compare_eq_gt.2 hgt]
    refine ⟨hrounded, hlevel.trans ?_⟩
    rw [← signed_apply (by decide)]
    congr 1
    rw [Sign.apply, counted]
    push_cast
    rw [Int.toNat_of_nonneg (by omega)]

/-! ## Sums of numbers -/

/-- A number is told by its place. -/
theorem signed_magnitude_level {sign : Sign} {hpos : 0 < mantissa}
    (h : IsRounded (.finite sign mantissa exponent hpos)) :
    signed magnitude (level (.finite sign mantissa exponent hpos)) =
      sign.apply (counted mantissa exponent) := by
  obtain ⟨hupper, hexponent, hlower⟩ := h
  have hplace : (exponent + 1074) * 2 ^ 52 + mantissa =
      (((exponent + 1074).toNat * 2 ^ 52 + mantissa : Nat) : Int) := by
    push_cast
    rw [Int.toNat_of_nonneg (by omega)]
  rw [level_finite, hplace, signed_apply (by decide), magnitude_scaled hupper _ (by omega), counted]

/-- Two numbers are added at the lesser of their exponents. -/
theorem add_finite (sign sign' : Sign) {mantissa mantissa' : Nat} (exponent exponent' : Int)
    (hpos : 0 < mantissa) (hpos' : 0 < mantissa') :
    UnpackedFloat.add binary64 (.finite sign mantissa exponent hpos)
        (.finite sign' mantissa' exponent' hpos') =
      normalize binary64
        (sign.apply (mantissa <<< (exponent - min exponent exponent').toNat : Nat) +
          sign'.apply (mantissa' <<< (exponent' - min exponent exponent').toNat : Nat))
        (min exponent exponent') .positive := rfl

/-- The sum of two numbers is the exact sum, rounded. -/
theorem add_spec {first second : UnpackedFloat} (hfirst : IsRounded first)
    (hsecond : IsRounded second) :
    IsRounded (UnpackedFloat.add binary64 first second) ∧
      level (UnpackedFloat.add binary64 first second) =
        signed grade (signed magnitude (level first) + signed magnitude (level second)) := by
  have hzero : ∀ sign, signed magnitude (level (.zero sign)) = 0 := fun _ => rfl
  cases first with
  | infinity | notANumber => exact hfirst.elim
  | zero sign =>
    rw [hzero, zero_add, signed_grade_magnitude]
    cases second with
    | infinity | notANumber => exact hsecond.elim
    | zero sign' => cases sign <;> cases sign' <;> exact ⟨trivial, rfl⟩
    | finite sign' mantissa' exponent' hpos' => exact ⟨hsecond, rfl⟩
  | finite sign mantissa exponent hpos =>
    cases second with
    | infinity | notANumber => exact hsecond.elim
    | zero sign' =>
      rw [hzero, add_zero, signed_grade_magnitude]
      exact ⟨hfirst, rfl⟩
    | finite sign' mantissa' exponent' hpos' =>
      rw [signed_magnitude_level hfirst, signed_magnitude_level hsecond]
      rw [add_finite]
      obtain ⟨-, hexponent, -⟩ := hfirst
      obtain ⟨-, hexponent', -⟩ := hsecond
      have haligned : ∀ {sign : Sign} {mantissa : Nat} {exponent least : Int}, -1074 ≤ least →
          least ≤ exponent →
          sign.apply (mantissa <<< (exponent - least).toNat : Nat) * 2 ^ (least + 1074).toNat =
            sign.apply (counted mantissa exponent) := by
        intro sign mantissa exponent least hleast hle
        have hsplit : (exponent + 1074).toNat =
            (exponent - least).toNat + (least + 1074).toNat := by
          omega
        rw [counted, hsplit, Nat.shiftLeft_eq, pow_add]
        cases sign <;> simp only [Sign.apply] <;> push_cast <;> ring
      obtain ⟨hrounded, hlevel⟩ := @normalize_spec (min exponent exponent')
        (sign.apply (mantissa <<< (exponent - min exponent exponent').toNat : Nat) +
          sign'.apply (mantissa' <<< (exponent' - min exponent exponent').toNat : Nat)) (by omega)
      refine ⟨hrounded, hlevel.trans ?_⟩
      rw [Int.add_mul, haligned (by omega) (by omega), haligned (by omega) (by omega)]

/-- The place of the infinities, on both sides. -/
def limit : Int := 2047 * 2 ^ 52

/-- Places behind the infinities are theirs. -/
def capped (place : Int) : Int := max (-limit) (min limit place)

theorem unpack_pack_spec {result : UnpackedFloat} (h : IsRounded result) :
    (unpack binary64 (pack binary64 result)).isNaN = false ∧
      level (unpack binary64 (pack binary64 result)) = capped (level result) := by
  cases result with
  | infinity | notANumber => exact h.elim
  | zero sign => cases sign <;> exact ⟨rfl, by decide⟩
  | finite sign mantissa exponent hpos =>
    obtain ⟨hupper, hexponent, hlower⟩ := h
    have hplace : level (.finite sign mantissa exponent hpos) =
        sign.apply ((exponent + 1074) * 2 ^ 52 + mantissa) := rfl
    by_cases hmost : exponent ≤ 971
    · -- the number has fields of its own
      obtain ⟨word, hword⟩ : ∃ word, (exponent + 1074) * 2 ^ 52 + mantissa = (word : Nat) :=
        Int.eq_ofNat_of_zero_le (by omega)
      have hfields : UnpackedFloat.finite sign mantissa exponent hpos =
          ofFields sign (word / 2 ^ 52) (word % 2 ^ 52) := by
        rcases Nat.lt_or_ge mantissa (2 ^ 52) with hsmall | hlarge
        · obtain rfl : exponent = -1074 := by omega
          have hnone : word / 2 ^ 52 = 0 := by omega
          have hfraction : word % 2 ^ 52 = mantissa := by omega
          rw [hnone, hfraction, ofFields_subnormal sign hpos.ne']
        · have hsome : word / 2 ^ 52 ≠ 0 := by omega
          have hfull : word / 2 ^ 52 ≠ 2047 := by omega
          have hfraction : 2 ^ 52 + word % 2 ^ 52 = mantissa := by omega
          have hplace : ((word / 2 ^ 52 : Nat) : Int) - 1075 = exponent := by omega
          rw [ofFields_normal sign _ hfull hsome]
          exact finite_congr rfl hfraction.symm hplace.symm
      have hread := @unpack_pack_ofFields sign (word / 2 ^ 52) (word % 2 ^ 52) (by omega)
        (Nat.mod_lt _ (by decide))
      rw [← hfields] at hread
      rw [hread]
      refine ⟨rfl, ?_⟩
      rw [hplace, hword]
      unfold capped limit
      cases sign <;> simp only [Sign.apply] <;> omega
    · -- the number is too large
      have hpacked : pack binary64 (.finite sign mantissa exponent hpos) =
          packedInfinity binary64 sign := by
        rw [pack_finite, if_pos (by omega)]
      have hread : unpack binary64 (packedInfinity binary64 sign) = .infinity sign := by
        cases sign <;> rfl
      rw [hpacked, hread, hplace]
      refine ⟨rfl, ?_⟩
      unfold capped limit
      cases sign <;> simp only [Sign.apply, level_infinity] <;> omega

/-- The order of the summands makes no difference. -/
theorem unpacked_add_comm (first second : UnpackedFloat) :
    UnpackedFloat.add binary64 first second = UnpackedFloat.add binary64 second first := by
  cases first with
  | notANumber => cases second <;> rfl
  | infinity sign =>
    cases second with
    | infinity sign' => cases sign <;> cases sign' <;> rfl
    | _ => rfl
  | zero sign =>
    cases second with
    | zero sign' => cases sign <;> cases sign' <;> rfl
    | _ => rfl
  | finite sign mantissa exponent hpos =>
    cases second with
    | finite sign' mantissa' exponent' hpos' =>
      rw [add_finite, add_finite, Int.min_comm, Int.add_comm]
    | _ => rfl

theorem eq_notANumber {number : UnpackedFloat} (h : number.isNaN = true) :
    number = .notANumber := by
  cases number with
  | notANumber => rfl
  | _ => cases h

/-! ## Sums of times -/

variable {first second third : Seconds}

/-- The sum of two times stands for the sum of what they stand for. -/
theorem number_add (hfirst : first.isNaN = false) (hsecond : second.isNaN = false) :
    (first + second).number =
      unpack binary64 (pack binary64 (UnpackedFloat.add binary64 first.number second.number)) := by
  have hsum : (first.toFloat + second.toFloat).toModel.unpack =
      unpack binary64 (pack binary64 (UnpackedFloat.add binary64 first.number second.number)) := by
    rw [← unpack_toFloat first, ← unpack_toFloat second]
    rfl
  change (add first second).number = _
  rw [add, hfirst, hsecond]
  simp only [Bool.false_eq_true, if_false, ofResult]
  split
  · rename_i hnone
    change (first.toFloat + second.toFloat).toModel.unpack.isNaN = true at hnone
    have hundefined : undefined.isNaN = true := by decide +kernel
    rw [isNaN_eq] at hundefined
    rw [← hsum, eq_notANumber hnone, eq_notANumber hundefined]
  · exact hsum

theorem number_add_comm (hfirst : first.isNaN = false) (hsecond : second.isNaN = false) :
    (first + second).number = (second + first).number := by
  rw [number_add hfirst hsecond, number_add hsecond hfirst, unpacked_add_comm]

/-- A time is infinite, or its place lies between those of the infinities. -/
theorem number_cases (h : first.isNaN = false) :
    (∃ sign, first.number = .infinity sign ∧ first.place = sign.apply limit) ∨
      (IsRounded first.number ∧ -limit < first.place ∧ first.place < limit) := by
  obtain ⟨hproper, hplace⟩ := level_number h
  rw [isNaN_eq] at h
  rw [← hplace]
  cases hnumber : first.number with
  | notANumber => rw [hnumber] at h; cases h
  | infinity sign => exact .inl ⟨sign, rfl, rfl⟩
  | zero sign =>
    have hzero : level (.zero sign) = 0 := rfl
    rw [hzero]
    exact .inr ⟨trivial, by decide, by decide⟩
  | finite sign mantissa exponent hpos =>
    rw [hnumber] at hproper
    obtain ⟨place, hlevel, hlow, hhigh⟩ := level_between hproper
    obtain ⟨hupper, hexponent, -, hlower⟩ := hproper
    refine .inr ⟨⟨hupper, hexponent, hlower⟩, ?_⟩
    rw [hlevel, limit]
    cases sign <;> simp only [Sign.apply] <;> omega

/-- The place of a sum of finite times is that of the exact sum, rounded. -/
theorem place_add (hfirst : first.isNaN = false) (hsecond : second.isNaN = false)
    (hrounded : IsRounded first.number) (hrounded' : IsRounded second.number) :
    (first + second).isNaN = false ∧ (first + second).place =
      capped (signed grade (signed magnitude first.place + signed magnitude second.place)) := by
  obtain ⟨hsum, hlevel⟩ := add_spec hrounded hrounded'
  obtain ⟨hnumber, hplace⟩ := unpack_pack_spec hsum
  rw [← number_add hfirst hsecond] at hnumber hplace
  rw [← isNaN_eq] at hnumber
  rw [← (level_number hnumber).2, hplace, hlevel, (level_number hfirst).2,
    (level_number hsecond).2]
  exact ⟨hnumber, rfl⟩

/-- The sum of an infinity and anything but the opposite one is itself. -/
theorem number_add_infinite {sign : Sign} (hfirst : first.number = .infinity sign)
    (hsecond : second.isNaN = false) :
    ((first + second).number = .infinity sign ∧ second.place ≠ -sign.apply limit) ∨
      ((first + second).isNaN = true ∧ second.place = -sign.apply limit) := by
  have hnumber : first.isNaN = false := by
    rw [isNaN_eq, hfirst]
    rfl
  have hkept : unpack binary64 (pack binary64 (.infinity sign)) = .infinity sign := by
    cases sign <;> rfl
  have hsum := number_add hnumber hsecond
  rw [hfirst] at hsum
  rcases number_cases hsecond with ⟨sign', hinfinite, hplace⟩ | ⟨hrounded, hbounds⟩
  · rw [hinfinite] at hsum
    rw [isNaN_eq (first + second), hsum, hplace]
    cases sign <;> cases sign' <;>
      first
      | exact .inl ⟨rfl, by decide⟩
      | exact .inr ⟨rfl, rfl⟩
  · refine .inl ⟨hsum.trans ?_, ?_⟩
    · cases hcase : second.number with
      | infinity | notANumber =>
        rw [hcase] at hrounded
        exact hrounded.elim
      | _ => exact hkept
    · cases sign <;> simp only [Sign.apply] <;> omega

/-- Only opposite infinities have no sum. -/
theorem isNaN_add_iff (hfirst : first.isNaN = false) (hsecond : second.isNaN = false) :
    (first + second).isNaN = true ↔
      (first.place = limit ∨ first.place = -limit) ∧ second.place = -first.place := by
  have hlimit : 0 < limit := by decide
  rcases number_cases hfirst with ⟨sign, hinfinite, hplace⟩ | ⟨hrounded, hbounds⟩
  · have hside : first.place = limit ∨ first.place = -limit := by
      rw [hplace]
      cases sign <;> simp [Sign.apply]
    rcases number_add_infinite hinfinite hsecond with ⟨hsum, hne⟩ | ⟨hsum, heq⟩
    · have hdefined : (first + second).isNaN = false := by
        rw [isNaN_eq, hsum]
        rfl
      rw [hdefined, hplace]
      exact ⟨fun h => absurd h Bool.false_ne_true, fun h => absurd h.2 hne⟩
    · exact ⟨fun _ => ⟨hside, hplace ▸ heq⟩, fun _ => hsum⟩
  · refine ⟨fun hnone => ?_, fun h => by omega⟩
    rcases number_cases hsecond with ⟨sign, hinfinite, hplace⟩ | ⟨hrounded', hbounds'⟩
    · rw [isNaN_eq, number_add_comm hfirst hsecond, ← isNaN_eq] at hnone
      rcases number_add_infinite hinfinite hfirst with ⟨hsum, hne⟩ | ⟨hsum, heq⟩
      · rw [isNaN_eq, hsum] at hnone
        cases hnone
      · cases sign <;> simp only [Sign.apply] at heq <;> omega
    · rw [(place_add hfirst hsecond hrounded hrounded').1] at hnone
      cases hnone

/-- An infinity takes all sums that there are with it to its place. -/
theorem place_add_infinite {sign : Sign} (hfirst : first.number = .infinity sign)
    (hsecond : second.isNaN = false) (hsum : (first + second).isNaN = false) :
    (first + second).place = sign.apply limit := by
  rcases number_add_infinite hfirst hsecond with ⟨hnumber, -⟩ | ⟨hnone, -⟩
  · rw [← (level_number hsum).2, hnumber]
    rfl
  · rw [hsum] at hnone
    cases hnone

/-- The places of all times lie between those of the infinities. -/
theorem place_bounds (h : first.isNaN = false) : -limit ≤ first.place ∧ first.place ≤ limit := by
  rcases number_cases h with ⟨sign, -, hplace⟩ | ⟨-, hlower, hupper⟩
  · rw [hplace]
    cases sign <;> decide
  · exact ⟨hlower.le, hupper.le⟩

theorem capped_mono {place place' : Int} (h : place ≤ place') : capped place ≤ capped place' := by
  unfold capped
  omega

/-- Times that stand for one number have one place. -/
theorem place_congr (h : first.number = second.number) (hfirst : first.isNaN = false) :
    first.place = second.place := by
  have hsecond : second.isNaN = false := by rwa [isNaN_eq, ← h, ← isNaN_eq]
  rw [← (level_number hfirst).2, ← (level_number hsecond).2, h]

theorem isNaN_add_comm (hfirst : first.isNaN = false) (hsecond : second.isNaN = false) :
    (first + second).isNaN = (second + first).isNaN := by
  rw [isNaN_eq, isNaN_eq, number_add_comm hfirst hsecond]

/-- The sums of times with one other time are in the order of the times. -/
theorem add_le_add_right (h : first ≤ second) (hthird : third.isNaN = false)
    (hsum : (first + third).isNaN = false) (hsum' : (second + third).isNaN = false) :
    first + third ≤ second + third := by
  obtain ⟨hfirst, hsecond⟩ := isNaN_of_le h
  rw [le_iff_place_le hfirst hsecond] at h
  rw [le_iff_place_le hsum hsum']
  have hbounds := place_bounds hsum
  have hbounds' := place_bounds hsum'
  rcases number_cases hthird with ⟨sign, hinfinite, -⟩ | ⟨hrounded, -⟩
  · -- both sums are that infinity
    rw [place_congr (number_add_comm hfirst hthird) hsum,
      place_congr (number_add_comm hsecond hthird) hsum',
      place_add_infinite hinfinite hfirst (isNaN_add_comm hfirst hthird ▸ hsum),
      place_add_infinite hinfinite hsecond (isNaN_add_comm hsecond hthird ▸ hsum')]
  · rcases number_cases hfirst with ⟨sign, hinfinite, hplace⟩ | ⟨hrounded', hlower, -⟩ <;>
      rcases number_cases hsecond with ⟨sign', hinfinite', hplace'⟩ | ⟨hrounded'', -, hupper⟩
    · rwa [place_add_infinite hinfinite hthird hsum, place_add_infinite hinfinite' hthird hsum',
        ← hplace, ← hplace']
    · rw [place_add_infinite hinfinite hthird hsum]
      cases sign with
      | negative => exact hbounds'.1
      | positive =>
        rw [hplace] at h
        exact absurd hupper (not_lt_of_ge h)
    · rw [place_add_infinite hinfinite' hthird hsum']
      cases sign' with
      | negative =>
        rw [hplace'] at h
        exact absurd hlower (not_lt_of_ge h)
      | positive => exact hbounds.2
    · rw [(place_add hfirst hthird hrounded' hrounded).2,
        (place_add hsecond hthird hrounded'' hrounded).2]
      exact capped_mono (signed_mono grade_mono
        (Int.add_le_add_right (signed_mono magnitude_mono h) _))

theorem add_le_add_left (h : second ≤ third) (hfirst : first.isNaN = false)
    (hsum : (first + second).isNaN = false) (hsum' : (first + third).isNaN = false) :
    first + second ≤ first + third := by
  obtain ⟨hsecond, hthird⟩ := isNaN_of_le h
  have hturned := add_le_add_right h hfirst (isNaN_add_comm hfirst hsecond ▸ hsum)
    (isNaN_add_comm hfirst hthird ▸ hsum')
  rwa [le_iff, number_add_comm hsecond hfirst, number_add_comm hthird hfirst, ← le_iff] at hturned

/-! ## Times and lengths -/

theorem le_refl (h : first.isNaN = false) : first ≤ first :=
  (le_iff_place_le h h).2 (Int.le_refl _)

theorem le_trans (h : first ≤ second) (h' : second ≤ third) : first ≤ third := by
  obtain ⟨hfirst, hsecond⟩ := isNaN_of_le h
  obtain ⟨-, hthird⟩ := isNaN_of_le h'
  rw [le_iff_place_le hfirst hsecond] at h
  rw [le_iff_place_le hsecond hthird] at h'
  rw [le_iff_place_le hfirst hthird]
  exact Int.le_trans h h'

theorem le_of_lt (h : first < second) : first ≤ second :=
  ((float_lt_iff first.toFloat second.toFloat).1 h).1

/-- A time that has not been reached is still to come. -/
theorem lt_of_not_le (hfirst : first.isNaN = false) (hsecond : second.isNaN = false)
    (h : ¬ second ≤ first) : first < second := by
  refine (float_lt_iff first.toFloat second.toFloat).2 ⟨?_, h⟩
  change first ≤ second
  rw [le_iff_place_le hsecond hfirst] at h
  rw [le_iff_place_le hfirst hsecond]
  omega

/-- A length is a number that is not below zero. -/
theorem place_nonneg (h : 0 ≤ first) : 0 ≤ first.place :=
  (le_iff_place_le (isNaN_of_le h).1 (isNaN_of_le h).2).1 h

theorem isNaN_zero : (0 : Seconds).isNaN = false := by decide +kernel

/-- Adding nothing leaves a time at its place. -/
theorem add_zero (h : first.isNaN = false) :
    (first + 0).isNaN = false ∧ (first + 0).place = first.place := by
  have hzero : (0 : Seconds).place = 0 := by decide +kernel
  have hdefined : (first + 0).isNaN = false := by
    rw [Bool.eq_false_iff, Ne, isNaN_add_iff h isNaN_zero, hzero]
    have hlimit : 0 < limit := by decide
    omega
  refine ⟨hdefined, ?_⟩
  rcases number_cases h with ⟨sign, hinfinite, hplace⟩ | ⟨hrounded, hlower, hupper⟩
  · rw [place_add_infinite hinfinite isNaN_zero hdefined, hplace]
  · rcases number_cases isNaN_zero with ⟨sign, -, hplace⟩ | ⟨hrounded', -⟩
    · rw [hzero] at hplace
      cases sign <;> exact absurd hplace (by decide)
    · have hnothing : signed magnitude 0 = 0 := by decide
      rw [(place_add h isNaN_zero hrounded hrounded').2, hzero, hnothing, Int.add_zero,
        signed_grade_magnitude, capped]
      omega

/-- Adding a length leads to no earlier time. -/
theorem le_add (hfirst : first.isNaN = false) (h : 0 ≤ second)
    (hsum : (first + second).isNaN = false) : first ≤ first + second := by
  obtain ⟨hdefined, hplace⟩ := add_zero hfirst
  have hle := add_le_add_left h hfirst hdefined hsum
  rwa [le_iff_place_le hdefined hsum, hplace, ← le_iff_place_le hfirst hsum] at hle

/-- Lengths have a sum. -/
theorem isNaN_add_of_nonneg (h : 0 ≤ first) (h' : 0 ≤ second) :
    (first + second).isNaN = false := by
  have hplace := place_nonneg h
  have hplace' := place_nonneg h'
  rw [Bool.eq_false_iff, Ne, isNaN_add_iff (isNaN_of_le h).2 (isNaN_of_le h').2]
  have hlimit : 0 < limit := by decide
  omega

/-- When there is a time behind a length, there is one behind any shorter length. -/
theorem isNaN_add_of_le (hfirst : first.isNaN = false) (h : 0 ≤ second) (hle : second ≤ third)
    (hsum : (first + third).isNaN = false) : (first + second).isNaN = false := by
  obtain ⟨hsecond, hthird⟩ := isNaN_of_le hle
  have hplace := place_nonneg h
  have hbounds := place_bounds hthird
  rw [le_iff_place_le hsecond hthird] at hle
  rw [Bool.eq_false_iff, Ne, isNaN_add_iff hfirst hthird] at hsum
  rw [Bool.eq_false_iff, Ne, isNaN_add_iff hfirst hsecond]
  have hlimit : 0 < limit := by decide
  omega

/-! ## The two zeros -/

variable {time : Seconds}

theorem number_zero : (0 : Seconds).number = .zero .positive := rfl

theorem number_negativeZero : negativeZero.number = .zero .negative := rfl

/-- Only one time stands for negative zero. -/
theorem eq_negativeZero (h : time.number = .zero .negative) : time = negativeZero := by
  have hdefined : time.isNaN = false := by rw [isNaN_eq, h]; rfl
  have hplace : time.place = 0 := by
    rw [← (level_number hdefined).2, h]
    rfl
  by_cases hlow : time.bits.toNat < 2 ^ 63
  · -- the other zero has another sign
    have hzero : time = 0 := by
      have hnone : time.bits.toNat = 0 := by
        rw [place, if_pos hlow] at hplace
        omega
      cases time
      exact congrArg mk (UInt64.toNat_inj.1 hnone)
    rw [hzero, number_zero] at h
    cases h
  · have hbits : time.bits.toNat = 2 ^ 63 := by
      rw [place, if_neg hlow] at hplace
      omega
    cases time
    exact congrArg mk (UInt64.toNat_inj.1 hbits)

/-- Sums of numbers are told by what is added. -/
theorem add_congr (hfirst : first.isNaN = false) (hsecond : second.isNaN = false)
    (h : UnpackedFloat.add binary64 first.number third.number =
      UnpackedFloat.add binary64 second.number third.number) :
    first + third = second + third := by
  have hsum : first.toFloat + third.toFloat = second.toFloat + third.toFloat := by
    rw [← unpack_toFloat first, ← unpack_toFloat second, ← unpack_toFloat third] at h
    exact congrArg (fun sum => Float.ofModel (Float.Model.pack sum)) h
  change add first third = add second third
  rw [add, add, hfirst, hsecond, hsum]
  rfl

/-- A sum begins with zero as it begins with negative zero, unless negative zero is added. -/
theorem zero_add_of_ne (h : time ≠ negativeZero) : 0 + time = negativeZero + time := by
  have hnegative : negativeZero.isNaN = false := by decide +kernel
  refine add_congr isNaN_zero hnegative ?_
  rw [number_zero, number_negativeZero]
  cases hnumber : time.number with
  | zero sign =>
    cases sign with
    | positive => rfl
    | negative => exact absurd (eq_negativeZero hnumber) h
  | _ => rfl

end Chiptune.Seconds
