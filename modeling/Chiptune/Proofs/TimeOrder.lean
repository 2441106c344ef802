/-
  The two orders of times.

  Deadlines are compared with the clock as numbers are, and put in order among each
  other by the rank of their words.  Here both orders are read off the word: on times
  that are numbers, the first compares signed magnitudes, and the second refines it.
  So whatever is ranked before a time that is due is due as well.  Times that are kept as
  floating point numbers are placed in the same way.
-/
import Chiptune.Music.Seconds
import Mathlib.Algebra.Ring.Int.Defs
import Mathlib.Algebra.Ring.Nat

set_option autoImplicit false

namespace Chiptune.Seconds

open Float.Model (UnpackedFloat)
open Float.Model.Format (binary64)
open Float.Model.UnpackedFloat

/-! ## The fields of a word -/

/-- The sign of a word: its first bit. -/
def signOf (word : BitVec 64) : Sign :=
  if word.toNat < 2 ^ 63 then .positive else .negative

/-- The exponent of a word: the eleven bits behind the sign. -/
def exponentOf (word : BitVec 64) : Nat := word.toNat / 2 ^ 52 % 2 ^ 11

/-- The fraction of a word: the bits behind the exponent. -/
def fractionOf (word : BitVec 64) : Nat := word.toNat % 2 ^ 52

theorem toNat_unpackMantissa (word : BitVec 64) :
    (@unpackMantissa binary64 word).toNat = fractionOf word := by
  simp [unpackMantissa, fractionOf]

theorem toNat_unpackExponent (word : BitVec 64) :
    (@unpackExponent binary64 word).toNat = exponentOf word := by
  simp [unpackExponent, exponentOf, Nat.shiftRight_eq_div_pow]

theorem ofBitVec_unpackSign (word : BitVec 64) :
    Sign.ofBitVec (@unpackSign binary64 word) = signOf word := by
  have hword : word.toNat < 2 ^ 64 := word.isLt
  have hbit : (@unpackSign binary64 word).toNat = word.toNat / 2 ^ 63 % 2 := by
    change (word.extractLsb 63 63).toNat = _
    simp [Nat.shiftRight_eq_div_pow]
  have hclear : @unpackSign binary64 word = 0#1 ↔ word.toNat < 2 ^ 63 := by
    rw [← BitVec.toNat_inj, hbit]
    change word.toNat / 2 ^ 63 % 2 = 0 ↔ _
    omega
  simp only [Sign.ofBitVec, signOf, hclear]

/-- The leading digit that is not stored stands in front of the others. -/
theorem toNat_one_append (fraction : BitVec 52) :
    (1#1 ++ fraction).toNat = 2 ^ 52 + fraction.toNat := by
  have hlt : fraction.toNat < 2 ^ 52 := fraction.isLt
  rw [BitVec.toNat_append, ← Nat.shiftLeft_add_eq_or_of_lt hlt]
  rfl

/-- What fields stand for. -/
def ofFields (sign : Sign) (exponent fraction : Nat) : UnpackedFloat :=
  if exponent = 2047 then
    if fraction = 0 then .infinity sign else .notANumber
  else if exponent = 0 then
    if h : fraction = 0 then .zero sign
    else .finite sign fraction (-1074) (Nat.pos_of_ne_zero h)
  else
    .finite sign (2 ^ 52 + fraction) (exponent - 1075)
      (Nat.lt_of_lt_of_le (by decide) (Nat.le_add_right _ _))

/-- Fields without exponent and with a fraction stand for a number below the least
exponent. -/
theorem ofFields_subnormal (sign : Sign) {fraction : Nat} (h : fraction ≠ 0) :
    ofFields sign 0 fraction = .finite sign fraction (-1074) (Nat.pos_of_ne_zero h) := by
  rw [ofFields, if_neg (by decide), if_pos rfl, dif_neg h]

/-- All other exponents but the last stand for numbers with a leading digit. -/
theorem ofFields_normal (sign : Sign) {exponent : Nat} (fraction : Nat)
    (hfull : exponent ≠ 2047) (hnone : exponent ≠ 0) :
    ofFields sign exponent fraction =
      .finite sign (2 ^ 52 + fraction) (exponent - 1075)
        (Nat.lt_of_lt_of_le (by decide) (Nat.le_add_right _ _)) := by
  rw [ofFields, if_neg hfull, if_neg hnone]

/-- Numbers are equal when their parts are. -/
theorem finite_congr {sign sign' : Sign} {mantissa mantissa' : Nat} {exponent exponent' : Int}
    {hpos : 0 < mantissa} {hpos' : 0 < mantissa'} (hsign : sign = sign')
    (hmantissa : mantissa = mantissa') (hexponent : exponent = exponent') :
    UnpackedFloat.finite sign mantissa exponent hpos = .finite sign' mantissa' exponent' hpos' := by
  subst hsign hmantissa hexponent
  rfl

/-- A word is read by its fields. -/
theorem unpack_eq_ofFields (word : BitVec 64) :
    unpack binary64 word = ofFields (signOf word) (exponentOf word) (fractionOf word) := by
  have hfull : @unpackExponent binary64 word = -1#11 ↔ exponentOf word = 2047 := by
    rw [← BitVec.toNat_inj, toNat_unpackExponent]; rfl
  have hnone : @unpackExponent binary64 word = 0#11 ↔ exponentOf word = 0 := by
    rw [← BitVec.toNat_inj, toNat_unpackExponent]; rfl
  have hempty : @unpackMantissa binary64 word = 0#52 ↔ fractionOf word = 0 := by
    rw [← BitVec.toNat_inj, toNat_unpackMantissa]; rfl
  have hexponent : ((@unpackExponent binary64 word).toNat : Int) - (1023 + 52) =
      exponentOf word - 1075 := by
    rw [toNat_unpackExponent]; rfl
  rw [ofFields]
  by_cases hlast : exponentOf word = 2047
  · refine (if_pos (hfull.2 hlast)).trans ?_
    rw [if_pos hlast]
    by_cases hzero : fractionOf word = 0
    · refine (if_pos (hempty.2 hzero)).trans ?_
      rw [if_pos hzero, ofBitVec_unpackSign]
    · rw [if_neg hzero]
      exact if_neg (mt hempty.1 hzero)
  · refine (if_neg (mt hfull.1 hlast)).trans ?_
    rw [if_neg hlast]
    by_cases hfirst : exponentOf word = 0
    · refine (if_pos (hnone.2 hfirst)).trans ?_
      rw [if_pos hfirst]
      by_cases hzero : fractionOf word = 0
      · refine (dif_pos (hempty.2 hzero)).trans ?_
        rw [dif_pos hzero, ofBitVec_unpackSign]
      · refine (dif_neg (mt hempty.1 hzero)).trans ?_
        rw [dif_neg hzero]
        refine finite_congr (ofBitVec_unpackSign word) (toNat_unpackMantissa word) ?_
        exact (congrArg (· + 1) hexponent).trans (by rw [hfirst]; rfl)
    · refine (if_neg (mt hnone.1 hfirst)).trans ?_
      rw [if_neg hfirst]
      refine finite_congr (ofBitVec_unpackSign word) ?_ hexponent
      rw [toNat_one_append, toNat_unpackMantissa]

/-- A word that is put together has the fields that are put in. -/
theorem unpack_packComponents (sign : Sign) (exponent : BitVec 11) (fraction : BitVec 52) :
    unpack binary64 (packComponents binary64 sign exponent fraction) =
      ofFields sign exponent.toNat fraction.toNat := by
  have hsign : signOf (packComponents binary64 sign exponent fraction) = sign := by
    have he : exponent.toNat < 2 ^ 11 := exponent.isLt
    have hf : fraction.toNat < 2 ^ 52 := fraction.isLt
    have hword : (packComponents binary64 sign exponent fraction).toNat =
        (sign.toBitVec.toNat * 2 ^ 11 + exponent.toNat) * 2 ^ 52 + fraction.toNat := by
      rw [packComponents, BitVec.toNat_append, BitVec.toNat_append,
        ← Nat.shiftLeft_add_eq_or_of_lt he, ← Nat.shiftLeft_add_eq_or_of_lt hf,
        Nat.shiftLeft_eq, Nat.shiftLeft_eq]
    unfold signOf
    rw [hword]
    cases sign
    · exact if_neg (by change ¬ (1 * 2 ^ 11 + _) * 2 ^ 52 + _ < _; omega)
    · exact if_pos (by change (0 * 2 ^ 11 + _) * 2 ^ 52 + _ < _; omega)
  have hexponent := toNat_unpackExponent (packComponents binary64 sign exponent fraction)
  have hfraction := toNat_unpackMantissa (packComponents binary64 sign exponent fraction)
  rw [unpackExponent_packComponents] at hexponent
  rw [unpackMantissa_packComponents] at hfraction
  rw [unpack_eq_ofFields, hsign, ← hexponent, ← hfraction]

/-- A number is put together with a leading digit or without, or is too great. -/
theorem pack_finite (sign : Sign) {mantissa : Nat} (exponent : Int) (hpos : 0 < mantissa) :
    pack binary64 (.finite sign mantissa exponent hpos) =
      if 2 ^ 11 ≤ (exponent + (1023 : Nat) + (52 : Nat)).toNat + 1 then
        packedInfinity binary64 sign
      else if mantissa.log2 + 1 = 53 then
        packComponents binary64 sign (BitVec.ofNat 11 (exponent + (1023 : Nat) + (52 : Nat)).toNat)
          (BitVec.ofNat 52 mantissa)
      else packComponents binary64 sign 0#11 (BitVec.ofNat 52 mantissa) := rfl

theorem pack_subnormal (sign : Sign) {fraction : Nat} (hsome : fraction ≠ 0)
    (hfraction : fraction < 2 ^ 52) :
    pack binary64 (ofFields sign 0 fraction) =
      packComponents binary64 sign 0#11 (BitVec.ofNat 52 fraction) := by
  have hlog : fraction.log2 < 52 := (Nat.log2_lt hsome).2 hfraction
  rw [ofFields_subnormal sign hsome, pack_finite, if_neg (by decide), if_neg (by omega)]

theorem pack_normal (sign : Sign) {exponent fraction : Nat} (hfull : exponent ≠ 2047)
    (hsome : exponent ≠ 0) (hexponent : exponent < 2048) (hfraction : fraction < 2 ^ 52) :
    pack binary64 (ofFields sign exponent fraction) =
      packComponents binary64 sign (BitVec.ofNat 11 exponent) (BitVec.ofNat 52 fraction) := by
  have hlog : (2 ^ 52 + fraction).log2 = 52 := by
    rw [Nat.log2_eq_iff (by omega)]
    omega
  have hbiased : ((exponent : Int) - 1075 + (1023 : Nat) + (52 : Nat)).toNat = exponent := by omega
  have hstored : BitVec.ofNat 52 (2 ^ 52 + fraction) = BitVec.ofNat 52 fraction :=
    BitVec.eq_of_toNat_eq (by simp)
  rw [ofFields_normal sign fraction hfull hsome, pack_finite, hbiased, hstored,
    if_neg (by omega), if_pos (by rw [hlog])]

/-- Putting a number together and reading it again gives it back. -/
theorem unpack_pack_ofFields (sign : Sign) {exponent fraction : Nat}
    (hexponent : exponent < 2048) (hfraction : fraction < 2 ^ 52) :
    unpack binary64 (pack binary64 (ofFields sign exponent fraction)) =
      ofFields sign exponent fraction := by
  have htoNat : (BitVec.ofNat 52 fraction).toNat = fraction := Nat.mod_eq_of_lt hfraction
  by_cases hfull : exponent = 2047
  · subst hfull
    unfold ofFields
    rw [if_pos rfl]
    split
    · cases sign <;> rfl
    · rfl
  · by_cases hnone : exponent = 0
    · subst hnone
      by_cases hempty : fraction = 0
      · subst hempty
        cases sign <;> rfl
      · rw [pack_subnormal sign hempty hfraction, unpack_packComponents, htoNat]
        rfl
    · rw [pack_normal sign hfull hnone hexponent hfraction, unpack_packComponents, htoNat,
        BitVec.toNat_ofNat, Nat.mod_eq_of_lt hexponent]

/-! ## The order of numbers -/

/-- A number is proper when it has the one form that fields give it. -/
def IsProper : UnpackedFloat → Prop
  | .finite _ fraction exponent _ =>
    fraction < 2 ^ 53 ∧ -1074 ≤ exponent ∧ exponent ≤ 971 ∧
      (2 ^ 52 ≤ fraction ∨ exponent = -1074)
  | _ => True

/-- The place of a number among all others, counted from zero to both sides. -/
def level : UnpackedFloat → Int
  | .infinity sign => sign.apply (2047 * 2 ^ 52)
  | .notANumber => 0
  | .zero _ => 0
  | .finite sign fraction exponent _ => sign.apply ((exponent + 1074) * 2 ^ 52 + fraction)

theorem level_infinity (sign : Sign) : level (.infinity sign) = sign.apply (2047 * 2 ^ 52) := rfl

theorem level_zero (sign : Sign) : level (.zero sign) = 0 := rfl

theorem level_finite (sign : Sign) {mantissa : Nat} (exponent : Int) (hpos : 0 < mantissa) :
    level (.finite sign mantissa exponent hpos) =
      sign.apply ((exponent + 1074) * 2 ^ 52 + mantissa) := rfl

/-- What fields stand for is proper, and its place is told by the fields in one. -/
theorem isProper_ofFields (sign : Sign) {exponent fraction : Nat}
    (hexponent : exponent < 2048) (hfraction : fraction < 2 ^ 52) :
    IsProper (ofFields sign exponent fraction) ∧
      ((ofFields sign exponent fraction).isNaN = false →
        level (ofFields sign exponent fraction) =
          sign.apply (exponent * 2 ^ 52 + fraction : Nat)) := by
  by_cases hfull : exponent = 2047
  · subst hfull
    unfold ofFields
    rw [if_pos rfl]
    split
    · rename_i hempty
      subst hempty
      exact ⟨trivial, fun _ => rfl⟩
    · exact ⟨trivial, fun h => absurd h (by decide)⟩
  · by_cases hnone : exponent = 0
    · subst hnone
      by_cases hempty : fraction = 0
      · subst hempty
        exact ⟨trivial, fun _ => by cases sign <;> rfl⟩
      · rw [ofFields_subnormal sign hempty]
        refine ⟨⟨by omega, by omega, by omega, Or.inr rfl⟩, fun _ => ?_⟩
        rw [level_finite]
        congr 1
    · rw [ofFields_normal sign fraction hfull hnone]
      refine ⟨⟨by omega, by omega, by omega, Or.inl (by omega)⟩, fun _ => ?_⟩
      rw [level_finite]
      congr 1
      omega

/-- Numbers of one sign are compared by their exponents and then by their fractions,
which is to compare their places. -/
theorem isLE_compare_iff {exponent exponent' : Int} {fraction fraction' : Nat}
    (h : fraction < 2 ^ 53 ∧ -1074 ≤ exponent ∧ exponent ≤ 971 ∧
      (2 ^ 52 ≤ fraction ∨ exponent = -1074))
    (h' : fraction' < 2 ^ 53 ∧ -1074 ≤ exponent' ∧ exponent' ≤ 971 ∧
      (2 ^ 52 ≤ fraction' ∨ exponent' = -1074)) :
    ((compare exponent exponent').then (compare fraction fraction')).isLE = true ↔
      (exponent + 1074) * 2 ^ 52 + fraction ≤ (exponent' + 1074) * 2 ^ 52 + (fraction' : Int) := by
  rcases Int.lt_trichotomy exponent exponent' with hlt | heq | hgt
  · rw [Int.compare_eq_lt.2 hlt]
    simp [Ordering.then]
    omega
  · subst heq
    rw [Int.compare_eq_eq.2 rfl]
    simp [Ordering.then, Nat.isLE_compare]
  · rw [Int.compare_eq_gt.2 hgt]
    simp [Ordering.then]
    omega

/-- A proper number that is neither zero nor infinite lies between these. -/
theorem level_between {sign : Sign} {fraction : Nat} {exponent : Int} {hpos : 0 < fraction}
    (h : IsProper (.finite sign fraction exponent hpos)) :
    ∃ place : Int, level (.finite sign fraction exponent hpos) = sign.apply place ∧
      0 < place ∧ place < 2047 * 2 ^ 52 := by
  obtain ⟨hupper, hleast, hmost, -⟩ := h
  exact ⟨(exponent + 1074) * 2 ^ 52 + fraction, rfl, by omega, by omega⟩

/-- Proper numbers are compared by their places. -/
theorem le_iff_level_le {first second : UnpackedFloat}
    (hfirst : IsProper first) (hsecond : IsProper second)
    (hnumber : first.isNaN = false) (hnumber' : second.isNaN = false) :
    first.le second = true ↔ level first ≤ level second := by
  cases first with
  | notANumber => exact absurd hnumber (by decide)
  | infinity sign =>
    cases second with
    | notANumber => exact absurd hnumber' (by decide)
    | infinity sign' => cases sign <;> cases sign' <;> decide
    | zero sign' => cases sign <;> cases sign' <;> decide
    | finite sign' fraction' exponent' hpos' =>
      obtain ⟨place', hplace', hlow', hhigh'⟩ := level_between hsecond
      rw [hplace']
      cases sign with
      | negative =>
        refine iff_of_true rfl ?_
        cases sign' <;> simp only [level_infinity, Sign.apply] <;> omega
      | positive =>
        refine iff_of_false Bool.false_ne_true ?_
        cases sign' <;> simp only [level_infinity, Sign.apply] <;> omega
  | zero sign =>
    cases second with
    | notANumber => exact absurd hnumber' (by decide)
    | infinity sign' => cases sign <;> cases sign' <;> decide
    | zero sign' => cases sign <;> cases sign' <;> decide
    | finite sign' fraction' exponent' hpos' =>
      obtain ⟨place', hplace', hlow', -⟩ := level_between hsecond
      rw [hplace']
      cases sign' with
      | negative =>
        exact iff_of_false Bool.false_ne_true (by simp only [level_zero, Sign.apply]; omega)
      | positive => exact iff_of_true rfl (by simp only [level_zero, Sign.apply]; omega)
  | finite sign fraction exponent hpos =>
    obtain ⟨place, hplace, hlow, hhigh⟩ := level_between hfirst
    cases second with
    | notANumber => exact absurd hnumber' (by decide)
    | infinity sign' =>
      rw [hplace]
      cases sign' with
      | negative =>
        refine iff_of_false Bool.false_ne_true ?_
        cases sign <;> simp only [level_infinity, Sign.apply] <;> omega
      | positive =>
        refine iff_of_true rfl ?_
        cases sign <;> simp only [level_infinity, Sign.apply] <;> omega
    | zero sign' =>
      rw [hplace]
      cases sign with
      | negative => exact iff_of_true rfl (by simp only [level_zero, Sign.apply]; omega)
      | positive =>
        exact iff_of_false Bool.false_ne_true (by simp only [level_zero, Sign.apply]; omega)
    | finite sign' fraction' exponent' hpos' =>
      obtain ⟨place', hplace', hlow', -⟩ := level_between hsecond
      cases sign with
      | negative =>
        cases sign' with
        | negative =>
          change ((compare exponent exponent').then (compare fraction fraction')).swap.isLE = true
            ↔ _
          rw [Ordering.swap_then, Int.compare_swap, Nat.compare_swap,
            isLE_compare_iff hsecond hfirst]
          exact Int.neg_le_neg_iff.symm
        | positive =>
          rw [hplace, hplace']
          exact iff_of_true rfl (by simp only [Sign.apply]; omega)
      | positive =>
        cases sign' with
        | negative =>
          rw [hplace, hplace']
          exact iff_of_false Bool.false_ne_true (by simp only [Sign.apply]; omega)
        | positive => exact isLE_compare_iff hfirst hsecond

/-- To compare two numbers the other way round turns the outcome over. -/
theorem compare_comm (first second : UnpackedFloat) :
    second.compare first = (first.compare second).map Ordering.swap := by
  cases first with
  | notANumber => cases second <;> rfl
  | infinity sign =>
    cases second with
    | infinity sign' => cases sign <;> cases sign' <;> rfl
    | _ => cases sign <;> rfl
  | zero sign =>
    cases second with
    | notANumber => rfl
    | zero sign' => rfl
    | infinity sign' => cases sign' <;> rfl
    | finite sign' => cases sign' <;> rfl
  | finite sign fraction exponent =>
    cases second with
    | notANumber => rfl
    | zero sign' => cases sign <;> rfl
    | infinity sign' => cases sign' <;> rfl
    | finite sign' fraction' exponent' =>
      have hturned : (compare exponent' exponent).then (compare fraction' fraction) =
          ((compare exponent exponent').then (compare fraction fraction')).swap := by
        rw [Ordering.swap_then, Int.compare_swap, Nat.compare_swap]
      cases sign with
      | negative =>
        cases sign' with
        | negative => exact congrArg (fun order => some order.swap) hturned
        | positive => rfl
      | positive =>
        cases sign' with
        | negative => rfl
        | positive => exact congrArg some hturned

/-- One number is less than another when only that is at least the one. -/
theorem unpacked_lt_iff (first second : UnpackedFloat) :
    first.lt second = true ↔ first.le second = true ∧ ¬ second.le first = true := by
  unfold UnpackedFloat.lt UnpackedFloat.le
  rw [compare_comm first second]
  cases first.compare second with
  | none => decide
  | some order => cases order <;> decide

/-- Two numbers are equal when each is at least the other. -/
theorem unpacked_beq_iff (first second : UnpackedFloat) :
    first.beq second = true ↔ first.le second = true ∧ second.le first = true := by
  unfold UnpackedFloat.beq UnpackedFloat.le
  rw [compare_comm first second]
  cases first.compare second with
  | none => decide
  | some order => cases order <;> decide

/-- Only numbers are compared. -/
theorem unpacked_isNaN_of_le {first second : UnpackedFloat} (h : first.le second = true) :
    first.isNaN = false ∧ second.isNaN = false := by
  cases first with
  | notANumber => exact absurd h Bool.false_ne_true
  | _ =>
    cases second with
    | notANumber => exact absurd h Bool.false_ne_true
    | _ => exact ⟨rfl, rfl⟩

/-! ## Times as numbers -/

/-- What a time stands for. -/
def number (time : Seconds) : UnpackedFloat := unpack binary64 time.bits.toBitVec

/-- A time as a floating point number stands for the same. -/
theorem unpack_toFloat (time : Seconds) : time.toFloat.toModel.unpack = time.number := by
  have hexponent : exponentOf time.bits.toBitVec < 2048 := Nat.mod_lt _ (by omega)
  have hfraction : fractionOf time.bits.toBitVec < 2 ^ 52 := Nat.mod_lt _ (by omega)
  change unpack binary64 (pack binary64 (unpack binary64 time.bits.toBitVec)) = _
  rw [number, unpack_eq_ofFields time.bits.toBitVec,
    unpack_pack_ofFields _ hexponent hfraction]

theorem isNaN_eq (time : Seconds) : time.isNaN = time.number.isNaN := by
  change time.toFloat.toModel.unpack.isNaN = _
  rw [unpack_toFloat]

theorem le_iff (first second : Seconds) :
    first ≤ second ↔ first.number.le second.number = true := by
  change decide (first.toFloat.toModel.unpack.le second.toFloat.toModel.unpack = true) = true ↔ _
  rw [unpack_toFloat, unpack_toFloat, decide_eq_true_iff]

/-- The place of a time that is a number, by its word: the magnitude with its sign. -/
def place (time : Seconds) : Int :=
  if time.bits.toNat < 2 ^ 63 then time.bits.toNat else 2 ^ 63 - time.bits.toNat

/-- The place of a time is that of the number it stands for. -/
theorem level_number {time : Seconds} (h : time.isNaN = false) :
    IsProper time.number ∧ level time.number = time.place := by
  have hword : time.bits.toNat < 2 ^ 64 := time.bits.toNat_lt
  have hexponent : exponentOf time.bits.toBitVec < 2048 := Nat.mod_lt _ (by omega)
  have hfraction : fractionOf time.bits.toBitVec < 2 ^ 52 := Nat.mod_lt _ (by omega)
  have hproper := isProper_ofFields (signOf time.bits.toBitVec) hexponent hfraction
  rw [isNaN_eq, number, unpack_eq_ofFields] at h
  rw [number, unpack_eq_ofFields]
  refine ⟨hproper.1, ?_⟩
  rw [hproper.2 h]
  simp only [signOf, exponentOf, fractionOf, place, UInt64.toNat_toBitVec]
  split
  · simp only [Sign.apply]
    omega
  · simp only [Sign.apply]
    omega

/-- Times that are numbers are compared by their places. -/
theorem le_iff_place_le {first second : Seconds}
    (hfirst : first.isNaN = false) (hsecond : second.isNaN = false) :
    first ≤ second ↔ first.place ≤ second.place := by
  obtain ⟨hproper, hlevel⟩ := level_number hfirst
  obtain ⟨hproper', hlevel'⟩ := level_number hsecond
  rw [isNaN_eq] at hfirst hsecond
  rw [le_iff, le_iff_level_le hproper hproper' hfirst hsecond, hlevel, hlevel']

/-- Only times that are numbers are compared. -/
theorem isNaN_of_le {first second : Seconds} (h : first ≤ second) :
    first.isNaN = false ∧ second.isNaN = false := by
  rw [isNaN_eq, isNaN_eq]
  exact unpacked_isNaN_of_le ((le_iff first second).1 h)

/-- What is ranked before another time is placed before it. -/
theorem place_le_of_rank_le {first second : Seconds} (h : first.rank ≤ second.rank) :
    first.place ≤ second.place := by
  have hfirst : first.bits.toNat < 2 ^ 64 := first.bits.toNat_lt
  have hsecond : second.bits.toNat < 2 ^ 64 := second.bits.toNat_lt
  simp only [rank] at h
  simp only [place]
  omega

/-- Whatever is ranked before a time that is due is due as well. -/
theorem le_of_rank_le {first second now : Seconds} (hnumber : first.isNaN = false)
    (hrank : first.rank ≤ second.rank) (hdue : second ≤ now) : first ≤ now := by
  obtain ⟨hsecond, hnow⟩ := isNaN_of_le hdue
  have hplace := place_le_of_rank_le hrank
  rw [le_iff_place_le hsecond hnow] at hdue
  rw [le_iff_place_le hnumber hnow]
  exact Int.le_trans hplace hdue

end Chiptune.Seconds

namespace Chiptune

/-! ## Times as floating point numbers -/

/-- The place of a time among all times that are numbers. -/
def placeOf (time : Float) : Int := (Seconds.ofFloat time).place

section Places

variable {first second : Float}

/-- Times are compared by what they stand for. -/
theorem float_le_iff (first second : Float) :
    first ≤ second ↔ first.toModel.unpack.le second.toModel.unpack = true := by
  change decide (first.toModel.unpack.le second.toModel.unpack = true) = true ↔ _
  rw [decide_eq_true_iff]

theorem le_iff_placeOf_le (hfirst : first.isNaN = false) (hsecond : second.isNaN = false) :
    first ≤ second ↔ placeOf first ≤ placeOf second := by
  have hseconds := @Seconds.le_iff_place_le (.ofFloat first) (.ofFloat second)
    ((Seconds.isNaN_eq _).trans hfirst) ((Seconds.isNaN_eq _).trans hsecond)
  rw [Seconds.le_iff] at hseconds
  exact (float_le_iff first second).trans hseconds

/-- One time is before another when only that is at least the one. -/
theorem float_lt_iff (first second : Float) :
    first < second ↔ first ≤ second ∧ ¬ second ≤ first := by
  change decide (first.toModel.unpack.lt second.toModel.unpack = true) = true ↔ _
  rw [decide_eq_true_iff, Seconds.unpacked_lt_iff, ← float_le_iff, ← float_le_iff]

theorem lt_iff_placeOf_lt (hfirst : first.isNaN = false) (hsecond : second.isNaN = false) :
    first < second ↔ placeOf first < placeOf second := by
  rw [float_lt_iff, le_iff_placeOf_le hfirst hsecond, le_iff_placeOf_le hsecond hfirst]
  omega

theorem beq_iff_placeOf_eq (hfirst : first.isNaN = false) (hsecond : second.isNaN = false) :
    (first == second) = true ↔ placeOf first = placeOf second := by
  change first.toModel.unpack.beq second.toModel.unpack = true ↔ _
  rw [Seconds.unpacked_beq_iff, ← float_le_iff, ← float_le_iff,
    le_iff_placeOf_le hfirst hsecond, le_iff_placeOf_le hsecond hfirst]
  omega

/-- Zeros of both signs have one place. -/
example : placeOf (-0.0) = placeOf 0 := by decide +kernel

end Places

end Chiptune
