/-
This file models the fixed-point numbers of the exchange. A `ScaledInt` is a raw
machine integer that stands for itself divided by a scale; comparison, addition
and subtraction act on the raw integer, so a quantity wraps at `2 ^ 64` exactly
where the program's does. Prices are signed, quantities unsigned.

The lemmas move quantities to natural numbers, where the conservation arguments
are made.
-/

import Mathlib.Algebra.Ring.Nat
import Mathlib.Order.Lattice

namespace OrderForge

instance instLinearOrderUInt64 : LinearOrder UInt64 where
  le_refl := UInt64.le_refl
  le_trans _ _ _ := UInt64.le_trans
  le_antisymm _ _ := UInt64.le_antisymm
  le_total := UInt64.le_total
  lt_iff_le_not_ge first second := by
    rw [UInt64.le_iff_toNat_le, UInt64.le_iff_toNat_le, UInt64.lt_iff_toNat_lt]
    omega
  toDecidableLE := inferInstance
  toDecidableLT := inferInstance
  toDecidableEq := inferInstance

instance instLinearOrderInt64 : LinearOrder Int64 where
  le_refl := Int64.le_refl
  le_trans _ _ _ := Int64.le_trans
  le_antisymm _ _ := Int64.le_antisymm
  le_total := Int64.le_total
  lt_iff_le_not_ge first second := by
    rw [Int64.le_iff_toInt_le, Int64.le_iff_toInt_le, Int64.lt_iff_toInt_lt]
    omega
  toDecidableLE := inferInstance
  toDecidableLT := inferInstance
  toDecidableEq := inferInstance

/-- `ScaledInt<T, Scale>`: a raw integer that stands for `value / scale`. -/
structure ScaledInt (Raw : Type) (scale : Nat) where
  value : Raw
deriving DecidableEq

namespace ScaledInt

variable {Raw : Type} {scale : Nat}

theorem value_injective : Function.Injective (value : ScaledInt Raw scale → Raw) := by
  intro first second same
  cases first
  cases second
  cases same
  rfl

/-- The comparison operators compare the raw values. -/
instance [LinearOrder Raw] : LinearOrder (ScaledInt Raw scale) :=
  LinearOrder.lift' value value_injective

/-- `operator+` and `operator+=`. -/
instance [Add Raw] : Add (ScaledInt Raw scale) := ⟨fun first second => ⟨first.value + second.value⟩⟩

/-- `operator-` and `operator-=`. -/
instance [Sub Raw] : Sub (ScaledInt Raw scale) := ⟨fun first second => ⟨first.value - second.value⟩⟩

/-- The default constructor. -/
instance [OfNat Raw 0] : Zero (ScaledInt Raw scale) := ⟨⟨0⟩⟩

end ScaledInt

/-- `Price` is a signed number of hundredths. -/
abbrev Price := ScaledInt Int64 100

/-- `Quantity` is an unsigned number of hundred-millionths. -/
abbrev Quantity := ScaledInt UInt64 100000000

/-- `OrderId`, `TradeId` and `AccountId` are unsigned 64-bit integers. -/
abbrev OrderId := UInt64

/-! ### Quantities as natural numbers -/

namespace Quantity

/-- The raw value of a quantity as a natural number. -/
def toNat (quantity : Quantity) : Nat := quantity.value.toNat

/-- The quantity with a given raw value. -/
def ofNat (amount : Nat) : Quantity := ⟨UInt64.ofNat amount⟩

theorem toNat_lt (quantity : Quantity) : toNat quantity < 2 ^ 64 := quantity.value.toNat_lt

theorem toNat_injective {first second : Quantity} (same : toNat first = toNat second) :
    first = second := ScaledInt.value_injective (UInt64.toNat_inj.mp same)

@[simp]
theorem toNat_zero : toNat 0 = 0 := rfl

theorem eq_zero_iff {quantity : Quantity} : quantity = 0 ↔ toNat quantity = 0 :=
  ⟨fun zero => zero ▸ rfl, fun zero => toNat_injective zero⟩

@[simp]
theorem ofNat_toNat (quantity : Quantity) : ofNat (toNat quantity) = quantity :=
  ScaledInt.value_injective UInt64.ofNat_toNat

theorem toNat_ofNat {amount : Nat} (small : amount < 2 ^ 64) : toNat (ofNat amount) = amount :=
  UInt64.toNat_ofNat_of_lt' small

theorem le_iff {first second : Quantity} : first ≤ second ↔ toNat first ≤ toNat second :=
  UInt64.le_iff_toNat_le

theorem lt_iff {first second : Quantity} : first < second ↔ toNat first < toNat second :=
  UInt64.lt_iff_toNat_lt

theorem toNat_min (first second : Quantity) :
    toNat (min first second) = min (toNat first) (toNat second) := by
  rcases le_total first second with le | le
  · rw [min_eq_left le, Nat.min_eq_left (le_iff.mp le)]
  · rw [min_eq_right le, Nat.min_eq_right (le_iff.mp le)]

theorem toNat_add (first second : Quantity) :
    toNat (first + second) = (toNat first + toNat second) % 2 ^ 64 := UInt64.toNat_add _ _

theorem toNat_sub (first second : Quantity) :
    toNat (first - second) = (2 ^ 64 - toNat second + toNat first) % 2 ^ 64 :=
  UInt64.toNat_sub _ _

theorem toNat_sub_of_le {first second : Quantity} (le : toNat second ≤ toNat first) :
    toNat (first - second) = toNat first - toNat second :=
  UInt64.toNat_sub_of_le _ _ (le_iff.mpr le)

theorem sub_ofNat_sub_ofNat (quantity : Quantity) (first second : Nat) :
    quantity - ofNat first - ofNat second = quantity - ofNat (first + second) := by
  have amount : ∀ number, toNat (ofNat number) = number % 2 ^ 64 := fun _ => UInt64.toNat_ofNat'
  apply toNat_injective
  simp only [toNat_sub, amount]
  omega

theorem sub_ofNat_zero (quantity : Quantity) : quantity - ofNat 0 = quantity :=
  toNat_injective (toNat_sub_of_le (Nat.zero_le _))

theorem sub_self (quantity : Quantity) : quantity - quantity = 0 :=
  toNat_injective (by rw [toNat_sub_of_le (Nat.le_refl _), Nat.sub_self, toNat_zero])

theorem add_sub_cancel (quantity other : Quantity) : quantity + other - other = quantity :=
  congrArg ScaledInt.mk (UInt64.add_sub_cancel quantity.value other.value)

theorem pos_iff {quantity : Quantity} : 0 < quantity ↔ quantity ≠ 0 := by
  rw [lt_iff, Ne, eq_zero_iff, toNat_zero, Nat.pos_iff_ne_zero]

theorem not_lt_zero (quantity : Quantity) : ¬ quantity < 0 := fun less =>
  Nat.not_lt_zero _ (lt_iff.mp less)

end Quantity

end OrderForge
