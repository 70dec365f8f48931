/-
This file is a small library about integers in IEEE binary64, on top of Lean's model
of the format. An integer of at most 53 bits is represented exactly: its mantissa is
shifted up to 53 bits and the exponent down by as much. A product of two such
integers that stays below `2 ^ 53` is rounded nowhere, and truncating it gives the
integer back.
-/

import Mathlib

namespace Binary64

open Float.Model Float.Model.UnpackedFloat

/-! ### The canonical form of an integer -/

/-- A positive integer as a mantissa of 53 bits and an exponent. -/
def ofNat (sign : Sign) (magnitude : Nat) (positive : 0 < magnitude) : UnpackedFloat :=
  .finite sign (magnitude * 2 ^ (52 - magnitude.log2)) (magnitude.log2 - 52)
    (Nat.mul_pos positive (Nat.two_pow_pos _))

theorem log2_mul_two_pow {magnitude : Nat} (positive : 0 < magnitude) (shift : Nat) :
    (magnitude * 2 ^ shift).log2 = magnitude.log2 + shift := by
  have low := Nat.log2_self_le positive.ne'
  have high := Nat.lt_log2_self (n := magnitude)
  refine (Nat.log2_eq_iff (Nat.mul_pos positive (Nat.two_pow_pos _)).ne').mpr ⟨?_, ?_⟩
  · rw [Nat.pow_add]
    exact Nat.mul_le_mul_right _ low
  · rw [Nat.add_right_comm, Nat.pow_add]
    exact Nat.mul_lt_mul_of_pos_right high (Nat.two_pow_pos _)

/-- Shifting zero bits out is exact. -/
theorem shiftRight_exact (mantissa shift : Nat) :
    (ExtendedMantissa.mk (mantissa * 2 ^ shift) false false) >>> shift =
      ⟨mantissa, false, false⟩ := by
  change Nat.repeat ExtendedMantissa.shiftRightOne shift _ = _
  induction shift generalizing mantissa with
  | zero => rw [Nat.pow_zero, Nat.mul_one, Nat.repeat]
  | succ shift inductionHypothesis =>
    rw [Nat.repeat, Nat.pow_succ', ← Nat.mul_assoc, inductionHypothesis]
    simp [ExtendedMantissa.shiftRightOne]

/-- Bringing an integer that has bits to spare to its target exponent is exact. -/
theorem shiftToTarget_exact {magnitude : Nat} (positive : 0 < magnitude)
    (small : magnitude < 2 ^ 53) {shift : Nat} (spare : 52 - magnitude.log2 ≤ shift) :
    shiftToTargetExponent Format.binary64 (magnitude * 2 ^ shift) (-shift) .exact =
      (⟨magnitude * 2 ^ (52 - magnitude.log2), false, false⟩, (magnitude.log2 : Int) - 52) := by
  have log : magnitude.log2 < 53 := (Nat.log2_lt positive.ne').mpr small
  have target : Format.binary64.targetExponent (totalExponent (magnitude * 2 ^ shift) (-shift)) =
      (magnitude.log2 : Int) - 52 := by
    rw [totalExponent, log2_mul_two_pow positive, Format.targetExponent]
    simp only [Format.mantissaBits, Format.minExponent]
    omega
  rw [shiftToTargetExponent, target, shiftToExponent]
  have amount : ((magnitude.log2 : Int) - 52 - -shift).toNat =
      shift - (52 - magnitude.log2) := by omega
  have split : magnitude * 2 ^ shift =
      magnitude * 2 ^ (52 - magnitude.log2) * 2 ^ (shift - (52 - magnitude.log2)) := by
    rw [Nat.mul_assoc, ← Nat.pow_add, Nat.add_sub_cancel' spare]
  rw [amount, split]
  refine Prod.ext (shiftRight_exact _ _) ?_
  show -(shift : Int) + _ = _
  omega

/-- Rounding an integer that has bits to spare gives its canonical form. -/
theorem round_exact (sign : Sign) {magnitude : Nat} (positive : 0 < magnitude)
    (small : magnitude < 2 ^ 53) {shift : Nat} (spare : 52 - magnitude.log2 ≤ shift) :
    roundWithAccuracy Format.binary64 sign (magnitude * 2 ^ shift) (-shift) .exact =
      ofNat sign magnitude positive := by
  have log : magnitude.log2 < 53 := (Nat.log2_lt positive.ne').mpr small
  have again := shiftToTarget_exact positive small (Nat.le_refl _)
  have exponent : -((52 - magnitude.log2 : Nat) : Int) = (magnitude.log2 : Int) - 52 := by omega
  rw [exponent] at again
  have some : magnitude * 2 ^ (52 - magnitude.log2) ≠ 0 :=
    (Nat.mul_pos positive (Nat.two_pow_pos _)).ne'
  rw [roundWithAccuracy, shiftToTarget_exact positive small spare]
  simp only [ExtendedMantissa.roundedMantissa, ExtendedMantissa.accuracy,
    Accuracy.roundToNearestEven, again, dif_neg some, ofNat]

/-! ### Packing -/

/-- Packing a normal number keeps it. -/
theorem unpack_pack_normal (sign : Sign) {mantissa : Nat} (positive : 0 < mantissa)
    (full : mantissa.log2 = 52) {exponent : Int} (low : -1074 ≤ exponent) (high : exponent ≤ 971) :
    (Float.Model.pack (.finite sign mantissa exponent positive)).unpack =
      .finite sign mantissa exponent positive := by
  obtain ⟨least, most⟩ := (Nat.log2_eq_iff positive.ne').mp full
  have biased : ((exponent + 1075).toNat : Int) = exponent + 1075 := Int.toNat_of_nonneg (by omega)
  generalize (exponent + 1075).toNat = field at biased
  have fieldValue : (BitVec.ofNat 11 field).toNat = field := by
    rw [BitVec.toNat_ofNat, Nat.mod_eq_of_lt (by omega)]
  have notInfinite : BitVec.ofNat 11 field ≠ -1#11 := fun same => by
    have value := congrArg BitVec.toNat same
    rw [fieldValue] at value
    have ones : (-1#11 : BitVec 11).toNat = 2047 := by decide
    omega
  have notZero : BitVec.ofNat 11 field ≠ 0#11 := fun same => by
    have value := congrArg BitVec.toNat same
    rw [fieldValue, BitVec.toNat_zero] at value
    omega
  have implicit : ((1#1 ++ BitVec.ofNat 52 mantissa : BitVec 53)).toNat = mantissa := by
    have low : (BitVec.ofNat 52 mantissa).toNat = mantissa % 2 ^ 52 := BitVec.toNat_ofNat _ _
    have one : (1#1).toNat = 1 := rfl
    rw [BitVec.toNat_append, ← Nat.shiftLeft_add_eq_or_of_lt (BitVec.isLt _), low, one,
      Nat.shiftLeft_eq]
    omega
  have packed : UnpackedFloat.pack Format.binary64 (.finite sign mantissa exponent positive) =
      packComponents Format.binary64 sign (BitVec.ofNat 11 field) (BitVec.ofNat 52 mantissa) := by
    have exponentField : (exponent + (Format.binary64.exponentBias : Int) +
        (Format.binary64.mantissaBitsWithoutImplicit : Int)).toNat = field := by
      simp only [Format.exponentBias]
      omega
    rw [UnpackedFloat.pack, exponentField, full, if_neg, if_pos]
    · rfl
    · simp only
      omega
  rw [Float.Model.unpack, Float.Model.pack, UInt64.toBitVec_ofBitVec, packed,
    UnpackedFloat.unpack]
  simp only [unpackMantissa_packComponents, unpackExponent_packComponents,
    unpackSign_packComponents, Sign.ofBitVec_toBitVec, notInfinite, notZero, if_false, fieldValue,
    implicit]
  congr 1
  simp only [Format.exponentBias]
  omega

theorem unpack_pack_ofNat (sign : Sign) {magnitude : Nat} (positive : 0 < magnitude)
    (small : magnitude < 2 ^ 53) :
    (Float.Model.pack (ofNat sign magnitude positive)).unpack = ofNat sign magnitude positive := by
  have log : magnitude.log2 < 53 := (Nat.log2_lt positive.ne').mpr small
  refine unpack_pack_normal sign _ ?_ (by omega) (by omega)
  rw [log2_mul_two_pow positive]
  omega

theorem unpack_pack_zero (sign : Sign) :
    (Float.Model.pack (.zero sign)).unpack = .zero sign := by
  cases sign <;> rfl

theorem unpack_pack_notANumber : (Float.Model.pack .notANumber).unpack = .notANumber := rfl

/-! ### Integers -/

def signOf (number : Int) : Sign := if number < 0 then .negative else .positive

theorem apply_signOf (number : Int) : (signOf number).apply number.natAbs = number := by
  rw [signOf]
  split_ifs with negative
  · show -(number.natAbs : Int) = number
    omega
  · show (number.natAbs : Int) = number
    omega

theorem signOf_mul {first second : Int} (firstSome : first ≠ 0) (secondSome : second ≠ 0) :
    signOf first * signOf second = signOf (first * second) := by
  rcases lt_or_gt_of_ne firstSome with firstNegative | firstPositive
  · rcases lt_or_gt_of_ne secondSome with secondNegative | secondPositive
    · rw [signOf, signOf, signOf, if_pos firstNegative, if_pos secondNegative,
        if_neg (mul_pos_of_neg_of_neg firstNegative secondNegative).le.not_gt]
      rfl
    · rw [signOf, signOf, signOf, if_pos firstNegative, if_neg secondPositive.le.not_gt,
        if_pos (mul_neg_of_neg_of_pos firstNegative secondPositive)]
      rfl
  · rcases lt_or_gt_of_ne secondSome with secondNegative | secondPositive
    · rw [signOf, signOf, signOf, if_neg firstPositive.le.not_gt, if_pos secondNegative,
        if_pos (mul_neg_of_pos_of_neg firstPositive secondNegative)]
      rfl
    · rw [signOf, signOf, signOf, if_neg firstPositive.le.not_gt, if_neg secondPositive.le.not_gt,
        if_neg (mul_pos firstPositive secondPositive).le.not_gt]
      rfl

/-- An integer that is not zero, as a float. -/
def whole (number : Int) (some : number ≠ 0) : UnpackedFloat :=
  ofNat (signOf number) number.natAbs (Int.natAbs_pos.mpr some)

theorem normalize_exact {number : Int} (some : number ≠ 0) (small : number.natAbs < 2 ^ 53) :
    UnpackedFloat.ofInt Format.binary64 number = whole number some := by
  have rounded : ∀ (sign : Sign) {magnitude : Nat} (positive : 0 < magnitude),
      magnitude < 2 ^ 53 →
      UnpackedFloat.round Format.binary64 sign magnitude 0 = ofNat sign magnitude positive := by
    intro sign magnitude positive fits
    have log : magnitude.log2 < 53 := (Nat.log2_lt positive.ne').mpr fits
    have target : Format.binary64.targetExponent (totalExponent magnitude 0) =
        (magnitude.log2 : Int) - 52 := by
      rw [totalExponent, Format.targetExponent]
      simp only [Format.mantissaBits, Format.minExponent]
      omega
    have amount : (0 - ((magnitude.log2 : Int) - 52)).toNat = 52 - magnitude.log2 := by omega
    rw [UnpackedFloat.round, target, decreaseExponent, amount, Nat.shiftLeft_eq, zero_sub]
    exact round_exact sign positive fits (Nat.le_refl _)
  rw [UnpackedFloat.ofInt, Float.Model.UnpackedFloat.normalize, whole]
  rcases lt_or_gt_of_ne some with negative | positive
  · have magnitude : (-number).toNat = number.natAbs := by omega
    rw [Int.compare_eq_lt.mpr negative, signOf, if_pos negative]
    simp only [magnitude]
    exact rounded .negative _ small
  · have magnitude : number.toNat = number.natAbs := by omega
    rw [Int.compare_eq_gt.mpr positive, signOf, if_neg positive.le.not_gt]
    simp only [magnitude]
    exact rounded .positive _ small

theorem unpack_ofInt {number : Int} (some : number ≠ 0) (small : number.natAbs < 2 ^ 53) :
    (Float.Model.ofInt number).unpack = whole number some := by
  rw [Float.Model.ofInt, normalize_exact some small]
  exact unpack_pack_ofNat _ _ small

/-- Truncating an integer gives it back. -/
theorem toInt_whole {number : Int} (some : number ≠ 0) (small : number.natAbs < 2 ^ 53)
    (least most : Int) : (whole number some).toInt least most = number := by
  have positive := Int.natAbs_pos.mpr some
  have log : number.natAbs.log2 < 53 := (Nat.log2_lt positive.ne').mpr small
  have none : ((number.natAbs.log2 : Int) - 52 - 0).toNat = 0 := by omega
  have amount : (0 - ((number.natAbs.log2 : Int) - 52 - (0 : Nat))).toNat =
      52 - number.natAbs.log2 := by omega
  rw [whole, ofNat, UnpackedFloat.toInt]
  simp only [roundToInt, decreaseExponent, none, shiftToExponent, amount, Nat.shiftLeft_zero,
    ExtendedMantissa.ofMantissaAndAccuracy, shiftRight_exact]
  exact apply_signOf number

/-- A product that stays below `2 ^ 53` is exact. -/
theorem mul_whole {first second : Int} (firstSome : first ≠ 0) (secondSome : second ≠ 0)
    (some : first * second ≠ 0) (small : (first * second).natAbs < 2 ^ 53) :
    UnpackedFloat.mul Format.binary64 (whole first firstSome) (whole second secondSome) =
      whole (first * second) some := by
  have firstPositive := Int.natAbs_pos.mpr firstSome
  have secondPositive := Int.natAbs_pos.mpr secondSome
  have product : (first * second).natAbs = first.natAbs * second.natAbs := Int.natAbs_mul _ _
  have positive : 0 < first.natAbs * second.natAbs := Nat.mul_pos firstPositive secondPositive
  have logs : first.natAbs.log2 + second.natAbs.log2 ≤ (first.natAbs * second.natAbs).log2 := by
    refine (Nat.le_log2 positive.ne').mpr ?_
    rw [Nat.pow_add]
    exact Nat.mul_le_mul (Nat.log2_self_le firstPositive.ne') (Nat.log2_self_le secondPositive.ne')
  have log : (first.natAbs * second.natAbs).log2 < 53 :=
    (Nat.log2_lt positive.ne').mpr (product ▸ small)
  have mantissa : first.natAbs * 2 ^ (52 - first.natAbs.log2) *
      (second.natAbs * 2 ^ (52 - second.natAbs.log2)) =
      first.natAbs * second.natAbs *
        2 ^ (52 - first.natAbs.log2 + (52 - second.natAbs.log2)) := by
    rw [Nat.pow_add]
    ring
  have exponent : (first.natAbs.log2 : Int) - 52 + ((second.natAbs.log2 : Int) - 52) =
      -((52 - first.natAbs.log2 + (52 - second.natAbs.log2) : Nat) : Int) := by omega
  rw [whole, whole, ofNat, ofNat, UnpackedFloat.mul, mantissa, exponent,
    signOf_mul firstSome secondSome]
  refine (round_exact _ positive (product ▸ small) (by omega)).trans ?_
  simp only [whole, product]

/-- Multiplying by zero gives something that truncates to zero. -/
theorem toInt_zero_mul (sign : Sign) (factor : UnpackedFloat) (least most : Int) :
    (Float.Model.pack (UnpackedFloat.mul Format.binary64 (.zero sign) factor)).unpack.toInt
      least most = 0 := by
  cases factor with
  | infinity => rw [UnpackedFloat.mul, unpack_pack_notANumber, UnpackedFloat.toInt]
  | notANumber =>
    show (Float.Model.pack .notANumber).unpack.toInt least most = 0
    rw [unpack_pack_notANumber, UnpackedFloat.toInt]
  | zero => rw [UnpackedFloat.mul, unpack_pack_zero, UnpackedFloat.toInt]
  | finite => rw [UnpackedFloat.mul, unpack_pack_zero, UnpackedFloat.toInt]

theorem toInt_mul_zero (sign : Sign) (factor : UnpackedFloat) (least most : Int) :
    (Float.Model.pack (UnpackedFloat.mul Format.binary64 factor (.zero sign))).unpack.toInt
      least most = 0 := by
  cases factor with
  | infinity => rw [UnpackedFloat.mul, unpack_pack_notANumber, UnpackedFloat.toInt]
  | notANumber => rw [UnpackedFloat.mul, unpack_pack_notANumber, UnpackedFloat.toInt]
  | zero => rw [UnpackedFloat.mul, unpack_pack_zero, UnpackedFloat.toInt]
  | finite => rw [UnpackedFloat.mul, unpack_pack_zero, UnpackedFloat.toInt]

/-- The product of two integers that stays below `2 ^ 53` truncates to the exact product. -/
theorem toInt_mul {first second : Int} (small : (first * second).natAbs < 2 ^ 53)
    (least most : Int) :
    (Float.Model.ofInt first * Float.Model.ofInt second).unpack.toInt least most =
      first * second := by
  have zero : (Float.Model.ofInt 0).unpack = .zero .positive := unpack_pack_zero .positive
  change (Float.Model.pack (UnpackedFloat.mul Format.binary64 (Float.Model.ofInt first).unpack
    (Float.Model.ofInt second).unpack)).unpack.toInt least most = _
  by_cases firstNone : first = 0
  · rw [firstNone, zero, toInt_zero_mul, zero_mul]
  by_cases secondNone : second = 0
  · rw [secondNone, zero, toInt_mul_zero, mul_zero]
  have some : first * second ≠ 0 := mul_ne_zero firstNone secondNone
  have product : (first * second).natAbs = first.natAbs * second.natAbs := Int.natAbs_mul _ _
  have firstSmall : first.natAbs < 2 ^ 53 := Nat.lt_of_le_of_lt
    (Nat.le_mul_of_pos_right _ (Int.natAbs_pos.mpr secondNone)) (product ▸ small)
  have secondSmall : second.natAbs < 2 ^ 53 := Nat.lt_of_le_of_lt
    (Nat.le_mul_of_pos_left _ (Int.natAbs_pos.mpr firstNone)) (product ▸ small)
  rw [unpack_ofInt firstNone firstSmall, unpack_ofInt secondNone secondSmall,
    mul_whole firstNone secondNone some small, whole, unpack_pack_ofNat _ _ small]
  exact toInt_whole some small least most

end Binary64
