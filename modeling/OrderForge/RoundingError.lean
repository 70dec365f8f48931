/-
This file extends the library about binary64 by how far a rounded result is from the
exact one. An extended mantissa stands for a number: the mantissa is what is in front
of its last bit, and its two residual bits say where behind it the number is. Shifting
keeps what it stands for, and rounding moves it by half a unit at most; with a full
mantissa that is a part in `2 ^ 53` of the number. Quotients of integers and products
with an integer are rounded once.
-/

import OrderForge.Binary64

namespace Binary64

open Float.Model Float.Model.UnpackedFloat

/-! ### What an extended mantissa stands for -/

/-- Whether an extended mantissa stands for a number, in units of its last bit. -/
def Stands (extended : ExtendedMantissa) (number : ℚ) : Prop :=
  match extended.roundBit, extended.stickyBit with
  | false, false => number = extended.mantissa
  | false, true => extended.mantissa < number ∧ number < extended.mantissa + 1 / 2
  | true, false => number = extended.mantissa + 1 / 2
  | true, true => extended.mantissa + 1 / 2 < number ∧ number < extended.mantissa + 1

theorem Stands.shiftRightOne {extended : ExtendedMantissa} {number : ℚ}
    (stands : Stands extended number) : Stands extended.shiftRightOne (number / 2) := by
  obtain ⟨mantissa, roundBit, stickyBit⟩ := extended
  rcases Nat.even_or_odd' mantissa with ⟨half, rfl | rfl⟩
  · have bit : (2 * half % 2 != 0) = false := by simp
    have same : 2 * half / 2 = half := by omega
    cases roundBit <;> cases stickyBit <;>
      simp only [Stands, ExtendedMantissa.shiftRightOne, bit, same, Bool.or_self, Bool.or_true,
        Bool.or_false, Nat.cast_mul, Nat.cast_ofNat] at stands ⊢ <;>
      first | linarith | exact ⟨by linarith, by linarith⟩
  · have bit : ((2 * half + 1) % 2 != 0) = true := by
      rw [bne_iff_ne]
      omega
    have same : (2 * half + 1) / 2 = half := by omega
    cases roundBit <;> cases stickyBit <;>
      simp only [Stands, ExtendedMantissa.shiftRightOne, bit, same, Bool.or_self, Bool.or_true,
        Bool.or_false, Nat.cast_add, Nat.cast_mul, Nat.cast_ofNat, Nat.cast_one] at stands ⊢ <;>
      first | linarith | exact ⟨by linarith, by linarith⟩

theorem shiftRight_succ (extended : ExtendedMantissa) (shift : Nat) :
    extended >>> (shift + 1) = (extended >>> shift).shiftRightOne := by
  change Nat.repeat ExtendedMantissa.shiftRightOne (shift + 1) extended = _
  rfl

theorem Stands.shiftRight {extended : ExtendedMantissa} {number : ℚ}
    (stands : Stands extended number) (shift : Nat) :
    Stands (extended >>> shift) (number / 2 ^ shift) := by
  induction shift with
  | zero =>
    rw [pow_zero, div_one]
    exact stands
  | succ shift inductionHypothesis =>
    rw [shiftRight_succ, pow_succ, ← div_div]
    exact inductionHypothesis.shiftRightOne

theorem mantissa_shiftRight (extended : ExtendedMantissa) (shift : Nat) :
    (extended >>> shift).mantissa = extended.mantissa / 2 ^ shift := by
  induction shift with
  | zero => exact (Nat.div_one _).symm
  | succ shift inductionHypothesis =>
    rw [shiftRight_succ, ExtendedMantissa.shiftRightOne, inductionHypothesis,
      Nat.div_div_eq_div_mul, pow_succ]

theorem Stands.least {extended : ExtendedMantissa} {number : ℚ} (stands : Stands extended number) :
    (extended.mantissa : ℚ) ≤ number := by
  obtain ⟨mantissa, roundBit, stickyBit⟩ := extended
  cases roundBit <;> cases stickyBit <;> simp only [Stands] at stands ⊢ <;> linarith

/-- Rounding moves what an extended mantissa stands for by half a unit at most. -/
theorem Stands.rounded {extended : ExtendedMantissa} {number : ℚ}
    (stands : Stands extended number) :
    |(extended.roundedMantissa : ℚ) - number| ≤ 1 / 2 ∧
      extended.mantissa ≤ extended.roundedMantissa ∧
      extended.roundedMantissa ≤ extended.mantissa + 1 := by
  obtain ⟨mantissa, roundBit, stickyBit⟩ := extended
  have parity : mantissa % 2 = 0 ∨ mantissa % 2 = 1 := by omega
  cases roundBit <;> cases stickyBit <;>
    simp only [Stands, ExtendedMantissa.roundedMantissa, ExtendedMantissa.accuracy,
      Accuracy.roundToNearestEven] at stands ⊢
  · rw [stands]
    simp
  · refine ⟨abs_le.mpr ⟨by linarith, by linarith⟩, by omega, by omega⟩
  · rcases parity with even | odd
    · rw [even, stands]
      refine ⟨abs_le.mpr ⟨?_, ?_⟩, by omega, by omega⟩ <;> simp
    · rw [odd, stands]
      refine ⟨abs_le.mpr ⟨?_, ?_⟩, by omega, by omega⟩ <;> push_cast <;> linarith
  · refine ⟨abs_le.mpr ⟨?_, ?_⟩, by omega, by omega⟩ <;> push_cast <;> linarith

/-! ### One rounding -/

/-- A float that is a positive number but for the sign and a part in `2 ^ 53`. -/
inductive Near (sign : Sign) (number : ℚ) (least most : Int) : UnpackedFloat → Prop
  | finite (mantissa : Nat) (exponent : Int) (positive : 0 < mantissa)
      (full : mantissa.log2 = 52) (low : least ≤ exponent) (high : exponent ≤ most)
      (close : |mantissa * 2 ^ exponent - number| * 2 ^ 53 ≤ number) :
      Near sign number least most (.finite sign mantissa exponent positive)

theorem shiftToTarget_of_full {mantissa : Nat} {exponent : Int} (accuracy : Accuracy)
    (full : 52 ≤ mantissa.log2) (low : -1074 ≤ exponent + (mantissa.log2 - 52 : Nat)) :
    shiftToTargetExponent Format.binary64 mantissa exponent accuracy =
      (ExtendedMantissa.ofMantissaAndAccuracy mantissa accuracy >>> (mantissa.log2 - 52),
        exponent + (mantissa.log2 - 52 : Nat)) := by
  have target : Format.binary64.targetExponent (totalExponent mantissa exponent) =
      exponent + (mantissa.log2 - 52 : Nat) := by
    rw [totalExponent, Format.targetExponent]
    simp only [Format.mantissaBits, Format.minExponent]
    omega
  have amount : (exponent + (mantissa.log2 - 52 : Nat) - exponent).toNat = mantissa.log2 - 52 := by
    omega
  rw [shiftToTargetExponent, target, shiftToExponent]
  simp only [amount]

theorem mantissa_ofMantissaAndAccuracy (mantissa : Nat) (accuracy : Accuracy) :
    (ExtendedMantissa.ofMantissaAndAccuracy mantissa accuracy).mantissa = mantissa := by
  rcases accuracy with _ | _ | _ | _ <;> rfl

/-- What rounding does to a mantissa with bits to spare. -/
theorem roundWithAccuracy_of_full (sign : Sign) {mantissa : Nat} {exponent : Int}
    {accuracy : Accuracy} {rounded : Nat} (full : 52 ≤ mantissa.log2)
    (low : -1074 ≤ exponent + (mantissa.log2 - 52 : Nat))
    (same : (ExtendedMantissa.ofMantissaAndAccuracy mantissa accuracy >>>
      (mantissa.log2 - 52)).roundedMantissa = rounded)
    (least : 2 ^ 52 ≤ rounded) (most : rounded ≤ 2 ^ 53) :
    roundWithAccuracy Format.binary64 sign mantissa exponent accuracy =
      if small : rounded < 2 ^ 53 then
        .finite sign rounded (exponent + (mantissa.log2 - 52 : Nat)) (by omega)
      else .finite sign (2 ^ 52) (exponent + (mantissa.log2 - 52 : Nat) + 1) (by decide) := by
  have some : rounded ≠ 0 := by omega
  rw [roundWithAccuracy, shiftToTarget_of_full accuracy full low]
  by_cases small : rounded < 2 ^ 53
  · have log : rounded.log2 = 52 := (Nat.log2_eq_iff some).mpr ⟨least, small⟩
    have again := @shiftToTarget_of_full rounded (exponent + (mantissa.log2 - 52 : Nat)) .exact
      (Nat.le_of_eq log.symm) (by omega)
    simp only [same, again, mantissa_shiftRight, mantissa_ofMantissaAndAccuracy, log, Nat.sub_self,
      pow_zero, Nat.div_one, Nat.cast_zero, add_zero, dif_neg some, dif_pos small]
  · obtain rfl : rounded = 2 ^ 53 := by omega
    have log : (2 ^ 53 : Nat).log2 = 53 := Nat.log2_two_pow
    have again := @shiftToTarget_of_full (2 ^ 53) (exponent + (mantissa.log2 - 52 : Nat)) .exact
      (by omega) (by omega)
    simp only [same, again, mantissa_shiftRight, mantissa_ofMantissaAndAccuracy, log]
    rfl

/-- What is left of a mantissa with bits to spare is a full one. -/
theorem truncated_full {mantissa : Nat} (full : 52 ≤ mantissa.log2) :
    2 ^ 52 ≤ mantissa / 2 ^ (mantissa.log2 - 52) ∧
      mantissa / 2 ^ (mantissa.log2 - 52) < 2 ^ 53 := by
  have some : mantissa ≠ 0 := by
    rintro rfl
    simp at full
  have split : 2 ^ mantissa.log2 = 2 ^ 52 * 2 ^ (mantissa.log2 - 52) := by
    rw [← Nat.pow_add, Nat.add_sub_cancel' full]
  constructor
  · exact (Nat.le_div_iff_mul_le (Nat.two_pow_pos _)).mpr (split ▸ Nat.log2_self_le some)
  · refine (Nat.div_lt_iff_lt_mul (Nat.two_pow_pos _)).mpr ?_
    have log := Nat.lt_log2_self (n := mantissa)
    rw [Nat.pow_succ, split] at log
    omega

/-- Rounding a mantissa with bits to spare is off by a part in `2 ^ 53` at most. -/
theorem round_near (sign : Sign) {mantissa : Nat} {exponent : Int} {accuracy : Accuracy}
    {number : ℚ} (full : 52 ≤ mantissa.log2)
    (stands : Stands (.ofMantissaAndAccuracy mantissa accuracy) number) {least most : Int}
    (subnormal : -1074 ≤ least) (low : least ≤ exponent + (mantissa.log2 - 52 : Nat))
    (high : exponent + (mantissa.log2 - 52 : Nat) < most) :
    Near sign (number * 2 ^ exponent) least most
      (roundWithAccuracy Format.binary64 sign mantissa exponent accuracy) := by
  have shifted := stands.shiftRight (mantissa.log2 - 52)
  obtain ⟨close, lower, upper⟩ := shifted.rounded
  have floor := shifted.least
  have value := mantissa_shiftRight (.ofMantissaAndAccuracy mantissa accuracy) (mantissa.log2 - 52)
  rw [mantissa_ofMantissaAndAccuracy] at value
  rw [value] at lower upper floor
  obtain ⟨below, above⟩ := truncated_full full
  generalize rounds : (ExtendedMantissa.ofMantissaAndAccuracy mantissa accuracy >>>
    (mantissa.log2 - 52)).roundedMantissa = rounded at close lower upper
  have least52 : 2 ^ 52 ≤ rounded := below.trans lower
  -- the rounded mantissa is off by half a unit, of which the number has `2 ^ 52` or more
  have error : |rounded * 2 ^ (exponent + (mantissa.log2 - 52 : Nat)) - number * 2 ^ exponent| *
      2 ^ 53 ≤ number * 2 ^ exponent := by
    have whole : number * 2 ^ exponent = number / 2 ^ (mantissa.log2 - 52) *
        2 ^ (exponent + (mantissa.log2 - 52 : Nat)) := by
      rw [zpow_add₀ two_ne_zero, zpow_natCast]
      field_simp
    have unit : (0 : ℚ) < 2 ^ (exponent + (mantissa.log2 - 52 : Nat)) := by positivity
    have size : (2 ^ 52 : ℚ) ≤ number / 2 ^ (mantissa.log2 - 52) :=
      le_trans (by exact_mod_cast below) floor
    rw [whole, ← sub_mul, abs_mul, abs_of_pos unit]
    nlinarith
  rw [roundWithAccuracy_of_full sign full (subnormal.trans low) rounds least52 (by omega)]
  split_ifs with small
  · exact .finite _ _ _ ((Nat.log2_eq_iff (by omega)).mpr ⟨least52, small⟩) low high.le error
  · obtain rfl : rounded = 2 ^ 53 := by omega
    refine .finite _ _ _ Nat.log2_two_pow (by omega) (by omega) ?_
    have double : ((2 ^ 52 : Nat) : ℚ) * 2 ^ (exponent + (mantissa.log2 - 52 : Nat) + 1) =
        ((2 ^ 53 : Nat) : ℚ) * 2 ^ (exponent + (mantissa.log2 - 52 : Nat)) := by
      rw [zpow_add_one₀ two_ne_zero]
      push_cast
      ring
    rwa [double]

/-- A float whose exponent is in range is packed as it is. -/
theorem Near.unpack_pack {sign : Sign} {number : ℚ} {least most : Int} {float : UnpackedFloat}
    (near : Near sign number least most float) (low : -1074 ≤ least) (high : most ≤ 971) :
    (Float.Model.pack float).unpack = float := by
  cases near with
  | finite mantissa exponent positive full least most close =>
    exact unpack_pack_normal sign positive full (by omega) (by omega)

/-! ### Quotients and products -/

/-- A quotient with the accuracy of its remainder stands for the exact quotient. -/
theorem stands_quotient (dividend : Nat) {divisor : Nat} (positive : 0 < divisor) :
    Stands (.ofMantissaAndAccuracy (dividend / divisor)
      (accuracyOfFraction (dividend % divisor) divisor)) ((dividend : ℚ) / divisor) := by
  have rest := Nat.mod_lt dividend positive
  have whole := Nat.div_add_mod dividend divisor
  generalize dividend / divisor = quotient at whole ⊢
  generalize dividend % divisor = remainder at whole rest ⊢
  have some : (0 : ℚ) < divisor := by exact_mod_cast positive
  have split : (dividend : ℚ) / divisor = quotient + remainder / divisor := by
    rw [← whole]
    push_cast
    field_simp
  rw [split, accuracyOfFraction]
  by_cases none : remainder = 0
  · simp [none, Stands, ExtendedMantissa.ofMantissaAndAccuracy]
  rw [if_neg none]
  have fraction : (0 : ℚ) < remainder / divisor :=
    div_pos (by exact_mod_cast Nat.pos_of_ne_zero none) some
  have below : (remainder : ℚ) / divisor < 1 := (div_lt_one some).mpr (by exact_mod_cast rest)
  rcases lt_trichotomy (2 * remainder) divisor with less | half | more
  · have half : (remainder : ℚ) / divisor < 1 / 2 := by
      rw [div_lt_div_iff₀ some two_pos]
      exact_mod_cast (by omega : remainder * 2 < 1 * divisor)
    rw [Nat.compare_eq_lt.mpr less]
    simp only [Stands, ExtendedMantissa.ofMantissaAndAccuracy]
    constructor <;> linarith
  · have isHalf : (remainder : ℚ) / divisor = 1 / 2 := by
      rw [div_eq_div_iff some.ne' two_ne_zero]
      exact_mod_cast (by omega : remainder * 2 = 1 * divisor)
    rw [Nat.compare_eq_eq.mpr half, isHalf]
    rfl
  · have half : 1 / 2 < (remainder : ℚ) / divisor := by
      rw [div_lt_div_iff₀ two_pos some]
      exact_mod_cast (by omega : 1 * divisor < remainder * 2)
    rw [Nat.compare_eq_gt.mpr more]
    simp only [Stands, ExtendedMantissa.ofMantissaAndAccuracy]
    constructor <;> linarith

theorem log2_ofNat {magnitude : Nat} (positive : 0 < magnitude) (small : magnitude < 2 ^ 53) :
    (magnitude * 2 ^ (52 - magnitude.log2)).log2 = 52 := by
  have log : magnitude.log2 < 53 := (Nat.log2_lt positive.ne').mpr small
  rw [log2_mul_two_pow positive]
  omega

theorem cast_ofNat {magnitude : Nat} (positive : 0 < magnitude) (small : magnitude < 2 ^ 53) :
    ((magnitude * 2 ^ (52 - magnitude.log2) : Nat) : ℚ) * 2 ^ ((magnitude.log2 : Int) - 52) =
      magnitude := by
  have log : magnitude.log2 < 53 := (Nat.log2_lt positive.ne').mpr small
  have exponent : (magnitude.log2 : Int) - 52 = -((52 - magnitude.log2 : Nat) : Int) := by omega
  rw [exponent, zpow_neg, zpow_natCast]
  push_cast
  field_simp

/-- A quotient of integers is rounded once. -/
theorem div_near (firstSign secondSign : Sign) {first second : Nat} (firstPositive : 0 < first)
    (secondPositive : 0 < second) (firstSmall : first < 2 ^ 53) (secondSmall : second < 2 ^ 53) :
    Near (firstSign / secondSign) ((first : ℚ) / second) (-105) 55
      (UnpackedFloat.div Format.binary64 (ofNat firstSign first firstPositive)
        (ofNat secondSign second secondPositive)) := by
  have firstLog : first.log2 < 53 := (Nat.log2_lt firstPositive.ne').mpr firstSmall
  have secondLog : second.log2 < 53 := (Nat.log2_lt secondPositive.ne').mpr secondSmall
  have firstFull := log2_ofNat firstPositive firstSmall
  have secondFull := log2_ofNat secondPositive secondSmall
  have firstValue := cast_ofNat firstPositive firstSmall
  have secondValue := cast_ofNat secondPositive secondSmall
  have someFirst : 0 < first * 2 ^ (52 - first.log2) :=
    Nat.mul_pos firstPositive (Nat.two_pow_pos _)
  have someSecond : 0 < second * 2 ^ (52 - second.log2) :=
    Nat.mul_pos secondPositive (Nat.two_pow_pos _)
  rw [ofNat, ofNat, UnpackedFloat.div]
  generalize first * 2 ^ (52 - first.log2) = dividend at *
  generalize second * 2 ^ (52 - second.log2) = divisor at *
  obtain ⟨dividendLeast, dividendMost⟩ := (Nat.log2_eq_iff someFirst.ne').mp firstFull
  obtain ⟨divisorLeast, divisorMost⟩ := (Nat.log2_eq_iff someSecond.ne').mp secondFull
  have target : min ((first.log2 : Int) - 52 - ((second.log2 : Int) - 52))
      (Format.binary64.targetExponent (totalExponent dividend ((first.log2 : Int) - 52) -
        totalExponent divisor ((second.log2 : Int) - 52))) =
      (first.log2 : Int) - second.log2 - 53 := by
    rw [totalExponent, totalExponent, firstFull, secondFull, Format.targetExponent]
    simp only [Format.mantissaBits, Format.minExponent]
    omega
  have amount : ((first.log2 : Int) - 52 - ((second.log2 : Int) - 52) -
      ((first.log2 : Int) - second.log2 - 53)).toNat = 53 := by omega
  rw [divCore, target, amount, Nat.shiftLeft_eq]
  have least : 2 ^ 52 ≤ dividend * 2 ^ 53 / divisor :=
    (Nat.le_div_iff_mul_le someSecond).mpr (by omega)
  have most : dividend * 2 ^ 53 / divisor < 2 ^ 54 :=
    (Nat.div_lt_iff_lt_mul someSecond).mpr (by omega)
  have low : 52 ≤ (dividend * 2 ^ 53 / divisor).log2 := (Nat.le_log2 (by omega)).mpr least
  have high : (dividend * 2 ^ 53 / divisor).log2 < 54 := (Nat.log2_lt (by omega)).mpr most
  have value : ((dividend * 2 ^ 53 : Nat) : ℚ) / divisor *
      2 ^ ((first.log2 : Int) - second.log2 - 53) = first / second := by
    rw [← firstValue, ← secondValue, sub_sub, zpow_sub₀ two_ne_zero, zpow_sub₀ two_ne_zero,
      zpow_sub₀ two_ne_zero, zpow_add₀ two_ne_zero]
    push_cast
    field_simp
  rw [← value]
  exact round_near _ low (stands_quotient _ someSecond) (by decide) (by omega) (by omega)

/-- A product with an integer is rounded once. -/
theorem Near.mul {sign : Sign} {number : ℚ} {least most : Int} {float : UnpackedFloat}
    (near : Near sign number least most float) (low : -1074 ≤ least) (factorSign : Sign)
    {factor : Nat} (positive : 0 < factor) (small : factor < 2 ^ 53) :
    ∃ exact : ℚ, |exact - number * factor| * 2 ^ 53 ≤ number * factor ∧
      Near (sign * factorSign) exact least (most + 54)
        (UnpackedFloat.mul Format.binary64 float (ofNat factorSign factor positive)) := by
  have log : factor.log2 < 53 := (Nat.log2_lt positive.ne').mpr small
  have full := log2_ofNat positive small
  have value := cast_ofNat positive small
  have some : 0 < factor * 2 ^ (52 - factor.log2) := Nat.mul_pos positive (Nat.two_pow_pos _)
  cases near with
  | finite mantissa exponent mantissaPositive mantissaFull atLeast atMost close =>
    rw [ofNat, UnpackedFloat.mul]
    generalize factor * 2 ^ (52 - factor.log2) = factorMantissa at *
    obtain ⟨factorLow, factorHigh⟩ := (Nat.log2_eq_iff some.ne').mp full
    obtain ⟨mantissaLow, mantissaHigh⟩ := (Nat.log2_eq_iff mantissaPositive.ne').mp mantissaFull
    have productLow : 2 ^ 52 * 2 ^ 52 ≤ mantissa * factorMantissa :=
      Nat.mul_le_mul mantissaLow factorLow
    have productHigh : mantissa * factorMantissa < 2 ^ (52 + 1) * 2 ^ (52 + 1) :=
      Nat.mul_lt_mul'' mantissaHigh factorHigh
    have someProduct : mantissa * factorMantissa ≠ 0 := by omega
    rw [← Nat.pow_add] at productLow productHigh
    have logLow := (Nat.le_log2 someProduct).mpr productLow
    have logHigh := (Nat.log2_lt someProduct).mpr productHigh
    refine ⟨mantissa * 2 ^ exponent * factor, ?_, ?_⟩
    · have factorRat : (0 : ℚ) < factor := by exact_mod_cast positive
      rw [← sub_mul, abs_mul, abs_of_pos factorRat]
      nlinarith
    · have exact_ : (mantissa * 2 ^ exponent * factor : ℚ) =
          (mantissa * factorMantissa : Nat) * 2 ^ (exponent + ((factor.log2 : Int) - 52)) := by
        rw [← value, zpow_add₀ two_ne_zero]
        push_cast
        ring
      rw [exact_]
      exact round_near _ (by omega) (by simp [Stands, ExtendedMantissa.ofMantissaAndAccuracy]) low
        (by omega) (by omega)

/-! ### Truncation -/

/-- Truncating a float that is near a number is taking the integral part of what it stands for. -/
theorem Near.toInt {sign : Sign} {number : ℚ} {least most : Int} {float : UnpackedFloat}
    (near : Near sign number least most float) :
    ∃ value : ℚ, |value - number| * 2 ^ 53 ≤ number ∧
      ∀ negativeInfinity positiveInfinity : Int,
        float.toInt negativeInfinity positiveInfinity = sign.apply ⌊value⌋₊ := by
  cases near with
  | finite mantissa exponent positive full atLeast atMost close =>
    refine ⟨_, close, fun negativeInfinity positiveInfinity => ?_⟩
    rw [UnpackedFloat.toInt, roundToInt]
    simp only [decreaseExponent, shiftToExponent, mantissa_shiftRight,
      mantissa_ofMantissaAndAccuracy, Nat.shiftLeft_eq]
    refine congrArg sign.apply ?_
    rcases Int.le_total 0 exponent with whole | fraction
    · obtain ⟨shift, rfl⟩ := Int.eq_ofNat_of_zero_le whole
      have none : (0 - ((shift : Int) - ((shift : Int) - 0).toNat)).toNat = 0 := by omega
      have amount : ((shift : Int) - 0).toNat = shift := by omega
      rw [none, amount, pow_zero, Nat.div_one, zpow_natCast]
      exact_mod_cast (Nat.floor_natCast (R := ℚ) (mantissa * 2 ^ shift)).symm
    · obtain ⟨shift, same⟩ := Int.eq_ofNat_of_zero_le (Int.neg_nonneg.mpr fraction)
      obtain rfl : exponent = -(shift : Int) := by omega
      have none : (-(shift : Int) - 0).toNat = 0 := by omega
      have amount : (0 - (-(shift : Int) - ((0 : Nat) : Int))).toNat = shift := by omega
      rw [none, amount, pow_zero, Nat.mul_one, zpow_neg, zpow_natCast, ← div_eq_mul_inv]
      have floor := Nat.floor_div_natCast (K := ℚ) mantissa (2 ^ shift)
      push_cast at floor
      rw [floor, Nat.floor_natCast]

/-! ### An integer over a scale -/

section Scale

variable {scale : Nat}

theorem unpack_scale (positive : 0 < scale) (fits : scale < 2 ^ 53) :
    (Float.Model.ofInt scale).unpack = ofNat .positive scale positive := by
  have some : (scale : Int) ≠ 0 := by omega
  rw [unpack_ofInt some (by rwa [Int.natAbs_natCast]), whole]
  simp only [Int.natAbs_natCast, signOf, Int.natCast_nonneg, not_lt.mpr, if_false]

theorem div_positive (sign : Sign) : sign / Sign.positive = sign := by cases sign <;> rfl

theorem mul_positive (sign : Sign) : sign * Sign.positive = sign := by cases sign <;> rfl

theorem unpack_zero_div (positive : 0 < scale) (fits : scale < 2 ^ 53) :
    (Float.Model.ofInt 0 / Float.Model.ofInt scale).unpack = .zero .positive := by
  have zero : (Float.Model.ofInt 0).unpack = .zero .positive := unpack_pack_zero .positive
  change (Float.Model.pack (UnpackedFloat.div _ (Float.Model.ofInt 0).unpack
    (Float.Model.ofInt scale).unpack)).unpack = _
  rw [zero, unpack_scale positive fits]
  exact unpack_pack_zero .positive

/-- An integer over a scale is near the quotient. -/
theorem unpack_div_near (positive : 0 < scale) (fits : scale < 2 ^ 53) {number : Int}
    (some : number ≠ 0) (small : number.natAbs < 2 ^ 53) :
    Near (signOf number) ((number.natAbs : ℚ) / scale) (-105) 55
      (Float.Model.ofInt number / Float.Model.ofInt scale).unpack := by
  have near := div_near (signOf number) .positive (Int.natAbs_pos.mpr some) positive small fits
  rw [div_positive] at near
  change Near _ _ _ _ (Float.Model.pack (UnpackedFloat.div _ (Float.Model.ofInt number).unpack
    (Float.Model.ofInt scale).unpack)).unpack
  rw [unpack_ofInt some small, unpack_scale positive fits, whole,
    near.unpack_pack (by decide) (by decide)]
  exact near

/-- Two numbers that a float is near have its sign, and differ by a part in `2 ^ 53` of both. -/
theorem Near.unique {firstSign secondSign : Sign} {first second : ℚ} {least most : Int}
    {float : UnpackedFloat} (near : Near firstSign first least most float)
    (other : Near secondSign second least most float) :
    firstSign = secondSign ∧ |first - second| * 2 ^ 53 ≤ first + second := by
  cases near with
  | finite mantissa exponent positive full low high close =>
    cases other with
    | finite _ _ _ _ _ _ otherClose =>
      refine ⟨rfl, ?_⟩
      have triangle := abs_sub_le first (mantissa * 2 ^ exponent) second
      rw [abs_sub_comm first (_ * _)] at triangle
      linarith

theorem eq_of_close {first second : Nat} (firstSmall : first < 2 ^ 52)
    (secondSmall : second < 2 ^ 52)
    (close : |(first : ℚ) - second| * 2 ^ 53 ≤ first + second) : first = second := by
  have firstRat : (first : ℚ) < 2 ^ 52 := by exact_mod_cast firstSmall
  have secondRat : (second : ℚ) < 2 ^ 52 := by exact_mod_cast secondSmall
  have less : |((first - second : Int) : ℚ)| < 1 := by
    push_cast
    linarith
  have none : |(first - second : Int)| < 1 := by exact_mod_cast less
  rw [Int.abs_lt_one_iff] at none
  omega

/-- No two integers of at most 52 bits are the same number over a scale. -/
theorem div_injective (positive : 0 < scale) (fits : scale < 2 ^ 53) {first second : Int}
    (firstSmall : first.natAbs < 2 ^ 52) (secondSmall : second.natAbs < 2 ^ 52)
    (same : Float.Model.ofInt first / Float.Model.ofInt scale =
      Float.Model.ofInt second / Float.Model.ofInt scale) : first = second := by
  have fromZero : ∀ {number : Int}, number.natAbs < 2 ^ 52 →
      (Float.Model.ofInt number / Float.Model.ofInt scale).unpack = .zero .positive →
      number = 0 := by
    intro number small zero
    by_contra some
    have near := unpack_div_near positive fits some (by omega)
    rw [zero] at near
    cases near
  by_cases firstNone : first = 0
  · subst firstNone
    rw [fromZero secondSmall (same ▸ unpack_zero_div positive fits)]
  by_cases secondNone : second = 0
  · subst secondNone
    exact fromZero firstSmall (same.symm ▸ unpack_zero_div positive fits)
  have firstNear := unpack_div_near positive fits firstNone (by omega)
  have secondNear := unpack_div_near positive fits secondNone (by omega)
  rw [same] at firstNear
  obtain ⟨sign, close⟩ := firstNear.unique secondNear
  have scaleRat : (0 : ℚ) < scale := by exact_mod_cast positive
  rw [← sub_div, ← add_div, abs_div, abs_of_pos scaleRat, div_mul_eq_mul_div,
    div_le_div_iff_of_pos_right scaleRat] at close
  rw [← apply_signOf first, ← apply_signOf second, sign, eq_of_close firstSmall secondSmall close]

/-- What two roundings make of an integer is less than one away from it. -/
theorem floor_of_close {number : Nat} (some : 0 < number) (small : number < 2 ^ 52)
    {middle value : ℚ} (first : |middle - number| * 2 ^ 53 ≤ number)
    (second : |value - middle| * 2 ^ 53 ≤ middle) :
    ⌊value⌋₊ = number ∨ ⌊value⌋₊ = number - 1 := by
  have most : (number : ℚ) + 1 ≤ 2 ^ 52 := by exact_mod_cast small
  have cast : ((number - 1 : Nat) : ℚ) = number - 1 := Nat.cast_pred some
  have firstBounds := abs_le.mp (le_div_iff₀ (by norm_num : (0 : ℚ) < 2 ^ 53) |>.mpr first)
  have secondBounds := abs_le.mp (le_div_iff₀ (by norm_num : (0 : ℚ) < 2 ^ 53) |>.mpr second)
  have low : number - 1 ≤ ⌊value⌋₊ := Nat.le_floor (by rw [cast]; linarith)
  have high : ⌊value⌋₊ < number + 1 := by
    refine (Nat.floor_lt ?_).mpr ?_
    · linarith
    · push_cast
      linarith
  omega

/-- What is written over a scale and truncated on it again is the integer, or the next one toward
zero. -/
theorem toInt_div_mul (positive : 0 < scale) (fits : scale < 2 ^ 53) {number : Int}
    (small : number.natAbs < 2 ^ 52) :
    ∃ result, (result = number ∨ result = number - number.sign) ∧ ∀ least most,
      (Float.Model.ofInt number / Float.Model.ofInt scale *
        Float.Model.ofInt scale).unpack.toInt least most = result := by
  by_cases none : number = 0
  · subst none
    refine ⟨0, Or.inl rfl, fun least most => ?_⟩
    change (Float.Model.pack (UnpackedFloat.mul _ (Float.Model.ofInt 0 / _).unpack _)).unpack.toInt
      least most = 0
    rw [unpack_zero_div positive fits]
    exact toInt_zero_mul _ _ least most
  have quotient := unpack_div_near positive fits none (by omega)
  obtain ⟨middle, close, product⟩ := quotient.mul (by decide) .positive positive fits
  rw [mul_positive] at product
  have unpacked : (Float.Model.ofInt number / Float.Model.ofInt scale *
      Float.Model.ofInt scale).unpack = UnpackedFloat.mul Format.binary64
        (Float.Model.ofInt number / Float.Model.ofInt scale).unpack
        (ofNat .positive scale positive) := by
    rw [← product.unpack_pack (by decide) (by decide), ← unpack_scale positive fits]
    rfl
  have scaleRat : (scale : ℚ) ≠ 0 := by exact_mod_cast positive.ne'
  rw [div_mul_cancel₀ _ scaleRat] at close
  obtain ⟨value, valueClose, truncated⟩ := product.toInt
  refine ⟨(signOf number).apply ⌊value⌋₊, ?_, fun least most => unpacked ▸ truncated least most⟩
  have same := apply_signOf number
  rcases floor_of_close (Int.natAbs_pos.mpr none) small close valueClose with whole | less
  · exact Or.inl (whole ▸ same)
  · refine Or.inr ?_
    rw [less, signOf]
    split_ifs with negative
    · rw [Int.sign_eq_neg_one_of_neg negative]
      show -((number.natAbs - 1 : Nat) : Int) = _
      omega
    · rw [Int.sign_eq_one_of_pos (by omega)]
      show ((number.natAbs - 1 : Nat) : Int) = _
      omega

end Scale

end Binary64
