/-
This file says which ids a generator hands out. The ids are the numbers that follow
the counter the generator was seeded with, one after the other around the 64-bit
ring; so whether an id is among the first so many is a matter of its distance from
the seed.
-/

import Mathlib.Data.List.Nodup
import OrderForge.Order

namespace OrderForge

namespace IdGenerator

/-- The ids of the next calls of `generate_id`. -/
def ids (generator : IdGenerator) : Nat → List UInt64
  | 0 => []
  | count + 1 => generator.generateId.1 :: generator.generateId.2.ids count

/-- The id at a distance from the counter. -/
def nth (generator : IdGenerator) (index : Nat) : UInt64 :=
  generator.counter + UInt64.ofNat (index + 1)

theorem nth_succ (generator : IdGenerator) (index : Nat) :
    generator.nth (index + 1) = generator.nth index + 1 := by
  apply UInt64.toNat_inj.mp
  simp only [nth, UInt64.toNat_add, UInt64.toNat_ofNat', UInt64.toNat_one]
  omega

theorem nth_generateId (generator : IdGenerator) (index : Nat) :
    generator.generateId.2.nth index = generator.nth (index + 1) := by
  apply UInt64.toNat_inj.mp
  simp only [nth, generateId, UInt64.toNat_add, UInt64.toNat_ofNat', UInt64.toNat_one]
  omega

theorem ids_eq (generator : IdGenerator) (count : Nat) :
    generator.ids count = (List.range count).map generator.nth := by
  induction count generalizing generator with
  | zero => rfl
  | succ count inductionHypothesis =>
    rw [ids, inductionHypothesis, List.range_succ_eq_map, List.map_cons, List.map_map]
    refine congrArg (List.cons _) (List.map_congr_left fun index _ => ?_)
    exact generator.nth_generateId index

@[simp]
theorem length_ids (generator : IdGenerator) (count : Nat) :
    (generator.ids count).length = count := by
  rw [ids_eq, List.length_map, List.length_range]

theorem ids_succ (generator : IdGenerator) (count : Nat) :
    generator.ids (count + 1) = generator.ids count ++ [generator.nth count] := by
  rw [ids_eq, ids_eq, List.range_succ, List.map_append]
  rfl

/-- An id is among the first so many when its distance from the counter says so. -/
theorem mem_ids {generator : IdGenerator} {count : Nat} {id : UInt64} :
    id ∈ generator.ids count ↔ (id - generator.counter - 1).toNat < count := by
  rw [ids_eq, List.mem_map]
  constructor
  · rintro ⟨index, member, rfl⟩
    have less := List.mem_range.mp member
    have counter := generator.counter.toNat_lt
    simp only [nth, UInt64.toNat_add, UInt64.toNat_sub, UInt64.toNat_ofNat', UInt64.toNat_one]
    omega
  · intro less
    refine ⟨(id - generator.counter - 1).toNat, List.mem_range.mpr less, ?_⟩
    apply UInt64.toNat_inj.mp
    have counter := generator.counter.toNat_lt
    have idLess := id.toNat_lt
    simp only [nth, UInt64.toNat_add, UInt64.toNat_sub, UInt64.toNat_ofNat', UInt64.toNat_one]
    omega

/-- The next id is new as long as the ring has not been gone around. -/
theorem nth_mem_ids {generator : IdGenerator} {count : Nat} :
    generator.nth count ∈ generator.ids count ↔ 2 ^ 64 ≤ count := by
  have counter := generator.counter.toNat_lt
  rw [mem_ids]
  simp only [nth, UInt64.toNat_add, UInt64.toNat_sub, UInt64.toNat_ofNat', UInt64.toNat_one]
  omega

theorem nodup_ids {generator : IdGenerator} {count : Nat} :
    (generator.ids count).Nodup ↔ count ≤ 2 ^ 64 := by
  induction count with
  | zero => exact ⟨fun _ => Nat.zero_le _, fun _ => List.nodup_nil⟩
  | succ count inductionHypothesis =>
    rw [ids_succ, ← List.concat_eq_append, List.nodup_concat, inductionHypothesis, nth_mem_ids]
    omega

/-! ### Generators that do not go around the ring -/

/-- Whether the ids stay below the end of the ring. -/
def Fits (generator : IdGenerator) (count : Nat) : Prop := generator.counter.toNat + count < 2 ^ 64

theorem fits_iff {generator : IdGenerator} {count : Nat} :
    generator.Fits count ↔ (generator.ids count).Nodup ∧ 0 ∉ generator.ids count := by
  have counter := generator.counter.toNat_lt
  rw [nodup_ids, mem_ids, Fits]
  simp only [UInt64.toNat_sub, UInt64.toNat_zero, UInt64.toNat_one]
  omega

theorem Fits.mem_ids {generator : IdGenerator} {count : Nat} (fits : generator.Fits count)
    {id : UInt64} :
    id ∈ generator.ids count ↔
      generator.counter.toNat < id.toNat ∧ id.toNat ≤ generator.counter.toNat + count := by
  have idLess := id.toNat_lt
  rw [Fits] at fits
  rw [IdGenerator.mem_ids]
  simp only [UInt64.toNat_sub, UInt64.toNat_one]
  omega

/-- Two generators share no id exactly when one is through before the other starts. -/
theorem Fits.disjoint_iff {first second : IdGenerator} {firstCount secondCount : Nat}
    (firstFits : first.Fits firstCount) (secondFits : second.Fits secondCount) :
    (first.ids firstCount).Disjoint (second.ids secondCount) ↔
      firstCount = 0 ∨ secondCount = 0 ∨
        first.counter.toNat + firstCount ≤ second.counter.toNat ∨
        second.counter.toNat + secondCount ≤ first.counter.toNat := by
  constructor
  · intro disjoint
    by_contra overlap
    -- the first id that both could hand out
    have latest : (UInt64.ofNat (max first.counter.toNat second.counter.toNat + 1)).toNat =
        max first.counter.toNat second.counter.toNat + 1 := by
      rw [Fits] at firstFits secondFits
      exact UInt64.toNat_ofNat_of_lt' (by
        change _ < 2 ^ 64
        omega)
    refine disjoint (a := UInt64.ofNat (max first.counter.toNat second.counter.toNat + 1))
      (firstFits.mem_ids.mpr ?_) (secondFits.mem_ids.mpr ?_)
    · rw [latest]
      omega
    · rw [latest]
      omega
  · intro apart id inFirst inSecond
    have firstBounds := firstFits.mem_ids.mp inFirst
    have secondBounds := secondFits.mem_ids.mp inSecond
    omega

end IdGenerator

end OrderForge
