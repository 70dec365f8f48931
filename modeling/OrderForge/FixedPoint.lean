/-
This file models the arithmetic of fixed-point numbers that involves the scale, and
settles what it computes. The scale is an unsigned 64-bit number: dividing a signed
raw value by it first turns the raw value into an unsigned one, so the quotient is
the signed one exactly when the raw value is not negative or the scale is one. The
division operator divides the raw values first and lets the constructor from a double
put the scale on, so the fraction of the raw quotient is lost.
-/

import OrderForge.Binary64
import OrderForge.ScaledInt

namespace OrderForge

/-! ### Integral types -/

/-- What the raw integers of a `ScaledInt` convert to and from. A conversion between integers is
modulo `2 ^ 64`; one from a double truncates, and the source leaves what is out of range
undefined. -/
class IntegralType (Raw : Type) where
  toInt : Raw → Int
  ofInt : Int → Raw
  ofDouble : Float.Model → Raw

instance : IntegralType Int64 where
  toInt := Int64.toInt
  ofInt := Int64.ofInt
  ofDouble := Float.Model.toInt64

instance : IntegralType UInt64 where
  toInt number := number.toNat
  ofInt := UInt64.ofInt
  ofDouble := Float.Model.toUInt64

namespace IntegralType

variable {Raw : Type} [IntegralType Raw]

def toUInt64 (raw : Raw) : UInt64 := UInt64.ofInt (toInt raw)

def ofUInt64 (number : UInt64) : Raw := ofInt number.toNat

def toDouble (raw : Raw) : Float.Model := Float.Model.ofInt (toInt raw)

end IntegralType

/-- The integral part of a double, which the infinities and what is no number do not have. -/
def integralPart? (value : Float.Model) : Option Int :=
  match value.unpack with
  | .finite sign mantissa exponent _ =>
    some (Float.Model.UnpackedFloat.roundToInt sign mantissa exponent)
  | .zero _ => some 0
  | .infinity _ | .notANumber => none

/-! ### Operations with the scale -/

namespace ScaledInt

open IntegralType

variable {Raw : Type} {scale : Nat} [IntegralType Raw]

/-- `explicit ScaledInt(const double value)`. The source gives it a meaning only where the number
that is made represents the double. -/
def ofDouble (value : Float.Model) : ScaledInt Raw scale :=
  ⟨IntegralType.ofDouble (value * Float.Model.ofUInt64 (UInt64.ofNat scale))⟩

/-- Whether a number is what a double stands for on the scale, truncated. -/
def Represents (number : ScaledInt Raw scale) (value : Float.Model) : Prop :=
  integralPart? (value * Float.Model.ofUInt64 (UInt64.ofNat scale)) = some (toInt number.value)

instance (number : ScaledInt Raw scale) (value : Float.Model) :
    Decidable (number.Represents value) := inferInstanceAs (Decidable (_ = _))

/-- `descale`: the raw value meets the scale as an unsigned number. -/
def descale (number : ScaledInt Raw scale) : ScaledInt Raw scale :=
  ⟨ofUInt64 (toUInt64 number.value / UInt64.ofNat scale)⟩

/-- `descaled_value`. -/
def descaledValue (number : ScaledInt Raw scale) : Float.Model :=
  toDouble number.value / Float.Model.ofUInt64 (UInt64.ofNat scale)

/-- `operator*`: the raw product meets the scale as an unsigned number. -/
instance [Mul Raw] : Mul (ScaledInt Raw scale) := ⟨fun first second =>
  ⟨ofUInt64 (toUInt64 (first.value * second.value) / UInt64.ofNat scale)⟩⟩

/-- `operator/`: the raw quotient goes through the constructor from a double. -/
instance [Div Raw] : Div (ScaledInt Raw scale) := ⟨fun first second =>
  ScaledInt.ofDouble (toDouble (first.value / second.value))⟩

end ScaledInt

/-! ### Conversions from a double -/

section Conversion

/-- What an integral type promises: a double whose integral part is a raw value converts to it. -/
class TruncatingIntegralType (Raw : Type) [IntegralType Raw] : Prop where
  ofDouble_eq : ∀ {value : Float.Model} {raw : Raw},
    integralPart? value = some (IntegralType.toInt raw) → IntegralType.ofDouble value = raw

/-- A double that has an integral part converts to it, whatever the infinities would. -/
theorem toInt_of_integralPart {value : Float.Model} {number : Int}
    (part : integralPart? value = some number) (least most : Int) :
    value.unpack.toInt least most = number := by
  unfold integralPart? at part
  split at part
  next unpacked =>
    rw [unpacked]
    exact Option.some.inj part
  next unpacked =>
    rw [unpacked]
    exact Option.some.inj part
  next => cases part
  next => cases part

instance : TruncatingIntegralType Int64 where
  ofDouble_eq {value raw} part := by
    change Int64.ofIntClamp (value.unpack.toInt _ _) = raw
    rw [toInt_of_integralPart part]
    exact Int64.ofIntClamp_toInt raw

instance : TruncatingIntegralType UInt64 where
  ofDouble_eq {value raw} part := by
    refine UInt64.toNat.inj ?_
    change (UInt64.ofNatClamp (value.unpack.toInt _ _).toNat).toNat = raw.toNat
    rw [toInt_of_integralPart part]
    exact UInt64.toNat_ofNatClamp_of_lt raw.toNat_lt

/-- The constructor makes what a double stands for exactly when there is such a number. -/
theorem ScaledInt.represents_ofDouble_iff {Raw : Type} {scale : Nat} [IntegralType Raw]
    [TruncatingIntegralType Raw] {value : Float.Model} :
    (ScaledInt.ofDouble value : ScaledInt Raw scale).Represents value ↔
      ∃ number : ScaledInt Raw scale, number.Represents value := by
  refine ⟨fun represents => ⟨_, represents⟩, fun ⟨number, represents⟩ => ?_⟩
  have same : (ScaledInt.ofDouble value : ScaledInt Raw scale) = number :=
    ScaledInt.value_injective (TruncatingIntegralType.ofDouble_eq represents)
  exact same ▸ represents

end Conversion

/-! ### Signed quotients -/

section Signed

variable {scale : Nat}

/-- A number below `2 ^ 63` is read back from the raw type. -/
theorem toInt_ofInt_natCast {number : Nat} (small : number < 2 ^ 63) :
    (Int64.ofInt number).toInt = number := by
  have size : Int64.size = 2 ^ 64 := rfl
  rw [Int64.toInt_ofInt, size]
  exact Int.bmod_eq_of_le (by omega) (by omega)

/-- A signed number divided by the scale as an unsigned one. -/
theorem toInt_unsignedQuotient (positive : 0 < scale) (fits : scale < 2 ^ 63) (number : Int64) :
    (Int64.ofInt (UInt64.ofInt number.toInt / UInt64.ofNat scale).toNat).toInt =
        number.toInt.tdiv scale ↔
      scale = 1 ∨ 0 ≤ number.toInt := by
  have low := number.le_toInt
  have high := number.toInt_lt
  have scaleNat : (UInt64.ofNat scale).toNat = scale :=
    UInt64.toNat_ofNat_of_lt' (Nat.lt_trans fits (by decide))
  have unsigned : (UInt64.ofInt number.toInt).toNat = (number.toInt % 2 ^ 64).toNat := by
    rw [UInt64.ofInt, UInt64.toNat_ofNat']
    omega
  rw [UInt64.toNat_div, scaleNat, unsigned]
  rcases Int.lt_or_le number.toInt 0 with negative | nonnegative
  · have wrapped : (number.toInt % 2 ^ 64).toNat = (number.toInt + 2 ^ 64).toNat := by omega
    rw [wrapped]
    rcases Nat.eq_or_lt_of_le positive with one | several
    · have undone : (Int64.ofInt ((number.toInt + 2 ^ 64).toNat : Int)).toInt = number.toInt := by
        have same : ((number.toInt + 2 ^ 64).toNat : Int) = number.toInt + 2 ^ 64 := by omega
        have size : Int64.size = 2 ^ 64 := rfl
        rw [same, Int64.toInt_ofInt, size]
        refine (Int.bmod_eq_iff (by decide)).mpr ⟨by omega, by omega, ?_⟩
        omega
      rw [← one, Nat.div_one, undone]
      exact iff_of_true (Int.tdiv_one _).symm (Or.inl rfl)
    · -- the unsigned quotient is positive and the signed one is not
      have least : 1 ≤ (number.toInt + 2 ^ 64).toNat / scale :=
        (Nat.one_le_div_iff positive).mpr (by omega)
      have most : (number.toInt + 2 ^ 64).toNat / scale < 2 ^ 63 :=
        (Nat.div_lt_iff_lt_mul positive).mpr (by omega)
      have signed : number.toInt.tdiv scale ≤ 0 := by
        have opposite := Int.tdiv_nonneg (a := -number.toInt) (b := scale) (by omega) (by omega)
        rw [Int.neg_tdiv] at opposite
        omega
      rw [toInt_ofInt_natCast most]
      refine iff_of_false (fun same => ?_) (fun either => ?_)
      · omega
      · omega
  · obtain ⟨amount, same⟩ := Int.eq_ofNat_of_zero_le nonnegative
    have kept : (number.toInt % 2 ^ 64).toNat = amount := by omega
    have small : amount / scale < 2 ^ 63 :=
      Nat.lt_of_le_of_lt (Nat.div_le_self _ _) (by omega)
    rw [kept, toInt_ofInt_natCast small, same]
    exact iff_of_true (Int.ofNat_tdiv _ _) (Or.inr (Int.natCast_nonneg _))

/-- Whether the product of two raw values and the descaled first one are the exact quotients by the
scale, rounded toward zero. -/
structure RoundsTowardZero (scale : Nat) (first second : Int64) : Prop where
  product : ((⟨first⟩ : ScaledInt Int64 scale) * ⟨second⟩).value.toInt =
    (first.toInt * second.toInt).tdiv scale
  descaled : (⟨first⟩ : ScaledInt Int64 scale).descale.value.toInt = first.toInt.tdiv scale

theorem descale_value_iff (positive : 0 < scale) (fits : scale < 2 ^ 63) (raw : Int64) :
    (⟨raw⟩ : ScaledInt Int64 scale).descale.value.toInt = raw.toInt.tdiv scale ↔
      scale = 1 ∨ 0 ≤ raw.toInt := toInt_unsignedQuotient positive fits raw

theorem mul_value_iff (positive : 0 < scale) (fits : scale < 2 ^ 63) {first second : Int64}
    (least : -2 ^ 63 ≤ first.toInt * second.toInt) (most : first.toInt * second.toInt < 2 ^ 63) :
    ((⟨first⟩ : ScaledInt Int64 scale) * ⟨second⟩).value.toInt =
        (first.toInt * second.toInt).tdiv scale ↔
      scale = 1 ∨ 0 ≤ first.toInt * second.toInt := by
  have exact_ : (first * second).toInt = first.toInt * second.toInt := by
    rw [Int64.toInt_mul]
    exact Int.bmod_eq_of_le (by omega) (by omega)
  rw [← exact_]
  exact toInt_unsignedQuotient positive fits (first * second)

/-- Multiplication and descaling round toward zero exactly when the scale is one, or neither the
product nor the descaled value is negative. -/
theorem multiplication_signed_iff (positive : 0 < scale) (fits : scale < 2 ^ 63)
    {first second : Int64} (least : -2 ^ 63 ≤ first.toInt * second.toInt)
    (most : first.toInt * second.toInt < 2 ^ 63) :
    RoundsTowardZero scale first second ↔
      scale = 1 ∨ 0 ≤ first.toInt * second.toInt ∧ 0 ≤ first.toInt := by
  rw [or_and_left, ← mul_value_iff positive fits least most,
    ← descale_value_iff positive fits first]
  exact ⟨fun rounds => ⟨rounds.product, rounds.descaled⟩, fun both => ⟨both.1, both.2⟩⟩

/-- Two positive prices. -/
theorem sample_multiplication : RoundsTowardZero 100 1000 500 :=
  (multiplication_signed_iff (by decide) (by decide) (by decide) (by decide)).mpr (by decide)

/-- A price of minus one times a price of one. -/
theorem negative_product_is_unsigned : ¬ RoundsTowardZero 100 (-100) 100 := fun rounds =>
  absurd rounds.product (by decide)

end Signed

/-! ### Quotients -/

section Quotient

/-- What an integral type of 64 bits promises: a double that truncates to a small integer converts
to it, unless it is negative and the type is unsigned, and division truncates. -/
class LawfulIntegralType (Raw : Type) [IntegralType Raw] [Div Raw] : Prop where
  toInt_ofDouble : ∀ {number : Int} {value : Float.Model} (raw : Raw), number.natAbs < 2 ^ 53 →
    (number < 0 → IntegralType.toInt raw < 0) →
    (∀ least most, value.unpack.toInt least most = number) →
    IntegralType.toInt (IntegralType.ofDouble value : Raw) = number
  toInt_div : ∀ {first second : Raw}, (IntegralType.toInt first).natAbs < 2 ^ 53 →
    IntegralType.toInt (first / second) =
      (IntegralType.toInt first).tdiv (IntegralType.toInt second)

instance : LawfulIntegralType Int64 where
  toInt_ofDouble {number value} _ small _ converts := by
    have least : Int64.minValue.toInt = -2 ^ 63 := by decide
    have most : Int64.maxValue.toInt = 2 ^ 63 - 1 := by decide
    change (Int64.ofIntClamp (value.unpack.toInt _ _)).toInt = number
    rw [converts, Int64.toInt_ofIntClamp (by omega) (by omega)]
  toInt_div {first second} small := by
    refine Int64.toInt_div_of_ne_left first second fun least => ?_
    rw [least] at small
    revert small
    decide

instance : LawfulIntegralType UInt64 where
  toInt_ofDouble {number value} raw small sign converts := by
    have unsigned : 0 ≤ IntegralType.toInt raw := Int.natCast_nonneg _
    have fits : number.toNat < 2 ^ 64 := by omega
    change ((UInt64.ofNatClamp (value.unpack.toInt _ _).toNat).toNat : Int) = number
    rw [converts, UInt64.toNat_ofNatClamp_of_lt fits]
    omega
  toInt_div {first second} _ := by
    change ((first / second).toNat : Int) = _
    rw [UInt64.toNat_div]
    exact Int.ofNat_tdiv _ _

variable {Raw : Type} [IntegralType Raw] [Div Raw] {scale : Nat} {first second : Raw}

/-- Whether a quotient is the exact one, rounded toward zero to the resolution of the type. -/
def KeepsFraction (scale : Nat) (first second : Raw) : Prop :=
  IntegralType.toInt ((⟨first⟩ : ScaledInt Raw scale) / ⟨second⟩).value =
    (IntegralType.toInt first * scale).tdiv (IntegralType.toInt second)

/-- Scaling a truncated quotient is truncating the scaled one exactly when the scaled remainder
stays below the divisor. -/
theorem tdiv_mul_eq_iff {dividend divisor : Int} (some : divisor ≠ 0) (factor : Nat) :
    dividend.tdiv divisor * factor = (dividend * factor).tdiv divisor ↔
      (dividend.tmod divisor).natAbs * factor < divisor.natAbs := by
  have positive := Int.natAbs_pos.mpr some
  have natural : dividend.natAbs / divisor.natAbs * factor =
        dividend.natAbs * factor / divisor.natAbs ↔
      dividend.natAbs % divisor.natAbs * factor < divisor.natAbs := by
    have split : dividend.natAbs * factor = dividend.natAbs % divisor.natAbs * factor +
        divisor.natAbs * (dividend.natAbs / divisor.natAbs * factor) := by
      conv_lhs => rw [← Nat.mod_add_div dividend.natAbs divisor.natAbs]
      ring
    rw [split, Nat.add_mul_div_left _ _ positive, ← Nat.div_eq_zero_iff_lt positive]
    omega
  rw [Int.natAbs_tmod, ← natural]
  rcases Int.natAbs_eq dividend with dividendSign | dividendSign <;>
    rcases Int.natAbs_eq divisor with divisorSign | divisorSign <;>
    rw [dividendSign, divisorSign] <;>
    simp only [Int.natAbs_neg, Int.natAbs_natCast, Int.neg_tdiv, Int.tdiv_neg, Int.neg_mul,
      Int.neg_neg, Int.neg_inj, ← Int.ofNat_tdiv, ← Int.natCast_mul, Int.natCast_inj]

/-- The quotient operator computes the truncated raw quotient times the scale. -/
theorem toInt_div_value [LawfulIntegralType Raw] (positive : 0 < scale) (fits : scale < 2 ^ 64)
    (small : (IntegralType.toInt first * scale).natAbs < 2 ^ 53) :
    IntegralType.toInt ((⟨first⟩ : ScaledInt Raw scale) / ⟨second⟩).value =
      (IntegralType.toInt first).tdiv (IntegralType.toInt second) * scale := by
  have scaleNat : (UInt64.ofNat scale).toNat = scale := UInt64.toNat_ofNat_of_lt' fits
  rw [Int.natAbs_mul, Int.natAbs_natCast] at small
  have firstSmall : (IntegralType.toInt first).natAbs < 2 ^ 53 :=
    Nat.lt_of_le_of_lt (Nat.le_mul_of_pos_right _ positive) small
  have quotient : IntegralType.toInt (first / second) =
      (IntegralType.toInt first).tdiv (IntegralType.toInt second) :=
    LawfulIntegralType.toInt_div firstSmall
  have product : (IntegralType.toInt (first / second) * scale).natAbs < 2 ^ 53 := by
    rw [quotient, Int.natAbs_mul, Int.natAbs_natCast]
    exact Nat.lt_of_le_of_lt (Nat.mul_le_mul_right _ (Int.natAbs_tdiv_le_natAbs _ _)) small
  rw [← quotient]
  refine LawfulIntegralType.toInt_ofDouble (first / second) product (fun negative => ?_)
    fun least most => ?_
  · exact Int.neg_of_mul_neg_left negative (Int.natCast_pos.mpr positive)
  · have scaleDouble : Float.Model.ofUInt64 (UInt64.ofNat scale) = Float.Model.ofInt scale :=
      congrArg (fun number : Nat => Float.Model.ofInt number) scaleNat
    rw [scaleDouble]
    exact Binary64.toInt_mul product least most

/-- Division keeps the fraction exactly when the remainder of the raw values, put on the scale, is
less than the divisor. -/
theorem division_keeps_fraction_iff [LawfulIntegralType Raw] (positive : 0 < scale)
    (fits : scale < 2 ^ 64) (some : IntegralType.toInt second ≠ 0)
    (small : (IntegralType.toInt first * scale).natAbs < 2 ^ 53) :
    KeepsFraction scale first second ↔
      ((IntegralType.toInt first).tmod (IntegralType.toInt second)).natAbs * scale <
        (IntegralType.toInt second).natAbs := by
  rw [KeepsFraction, toInt_div_value positive fits small]
  exact tdiv_mul_eq_iff some scale

/-- The quotient of 200.01 and 100 is 2.00, with a remainder too small for the scale. -/
theorem sample_division : KeepsFraction 100 (20001 : Int64) 10000 :=
  (division_keeps_fraction_iff (by decide) (by decide) (by decide) (by decide)).mpr (by decide)

/-- Five divided by two is two. -/
theorem division_loses_fraction : ¬ KeepsFraction 100 (500 : Int64) 200 := by
  intro keeps
  have computed : IntegralType.toInt ((⟨500⟩ : ScaledInt Int64 100) / ⟨200⟩).value =
      (IntegralType.toInt (500 : Int64)).tdiv (IntegralType.toInt (200 : Int64)) * 100 :=
    toInt_div_value (by decide) (by decide) (by decide)
  exact absurd (computed.symm.trans keeps) (by decide)

end Quotient

end OrderForge
