/-
This file is a small library about entries laid one after another over a ring of
blocks. The blocks are numbered as they are filled, without end, and block number
`k` uses the memory of block `k % ring`. A trail leads from a place in one block
to the place in the last block where the next entry goes: it passes an entry, or
it crosses into the next block at the end mark of the one it leaves. A block is
used again only when no entry of the trail is in it, so that an entry on the trail
always lies in a block that the last one has not come round to.
-/

import Mathlib.Data.List.Basic
import Mathlib.Data.Nat.ModEq

/-- Where an entry lies, and how long it is. -/
structure Layout (α : Type) where
  block : α → Nat
  offset : α → Nat
  size : α → Nat

variable {α : Type}

/-- The entries on the way from `offset` in block number `number` to `lastOffset` in block
number `last`, over a ring with these end marks. -/
inductive Trail (layout : Layout α) (ring : Nat) (mark : Nat → Nat) (last lastOffset : Nat) :
    Nat → Nat → List α → Prop
  | arrive : Trail layout ring mark last lastOffset last lastOffset []
  | pass {number offset : Nat} {entry : α} {rest : List α}
      (block : layout.block entry = number % ring) (place : layout.offset entry = offset)
      (positive : 0 < layout.size entry) (recent : last < number + ring)
      (next : Trail layout ring mark last lastOffset number (offset + layout.size entry) rest) :
      Trail layout ring mark last lastOffset number offset (entry :: rest)
  | cross {number offset : Nat} {entries : List α} (before : number < last)
      (positive : 0 < offset) (marked : mark (number % ring) = offset)
      (next : Trail layout ring mark last lastOffset (number + 1) 0 entries) :
      Trail layout ring mark last lastOffset number offset entries

namespace Trail

variable {layout : Layout α} {ring : Nat} {mark : Nat → Nat} {last lastOffset number offset : Nat}
  {entries : List α}

theorem number_le (trail : Trail layout ring mark last lastOffset number offset entries) :
    number ≤ last := by
  induction trail with
  | arrive => exact le_refl _
  | pass _ _ _ _ _ inductionHypothesis => exact inductionHypothesis
  | cross before _ _ _ _ => exact before.le

/-- In a block that is not the last one the trail stays in front of the end mark. -/
theorem offset_le_mark (trail : Trail layout ring mark last lastOffset number offset entries)
    (before : number < last) : offset ≤ mark (number % ring) := by
  induction trail with
  | arrive => exact absurd before (lt_irrefl _)
  | pass _ _ _ _ _ inductionHypothesis =>
    exact (Nat.le_add_right _ _).trans (inductionHypothesis before)
  | cross _ _ marked _ _ => exact marked.ge

/-- The end of a block that the trail leaves is marked. -/
theorem mark_pos (trail : Trail layout ring mark last lastOffset number offset entries)
    (before : number < last) : 0 < mark (number % ring) := by
  induction trail with
  | arrive => exact absurd before (lt_irrefl _)
  | pass _ _ _ _ _ inductionHypothesis => exact inductionHypothesis before
  | cross _ positive marked _ _ => exact marked ▸ positive

/-- In the last block the trail stays in front of its end. -/
theorem offset_le_last (trail : Trail layout ring mark last lastOffset number offset entries)
    (here : number = last) : offset ≤ lastOffset := by
  induction trail with
  | arrive => exact le_refl _
  | pass _ _ _ _ _ inductionHypothesis =>
    exact (Nat.le_add_right _ _).trans (inductionHypothesis here)
  | cross before _ _ _ _ => exact absurd here before.ne

/-- In the last block the trail has entries left exactly before its end. -/
theorem ne_nil_iff (trail : Trail layout ring mark last lastOffset number offset entries)
    (here : number = last) : entries ≠ [] ↔ offset < lastOffset := by
  cases trail with
  | arrive => simp
  | pass _ _ positive _ next =>
    have bound := next.offset_le_last here
    exact ⟨fun _ => by omega, fun _ => List.cons_ne_nil _ _⟩
  | cross before _ _ _ => exact absurd here before.ne

/-- A trail at the end mark of a block it has yet to leave crosses into the next one. -/
theorem crossed (trail : Trail layout ring mark last lastOffset number offset entries)
    (before : number < last) (marked : mark (number % ring) = offset) :
    Trail layout ring mark last lastOffset (number + 1) 0 entries := by
  cases trail with
  | arrive => exact absurd before (lt_irrefl _)
  | pass _ _ positive _ next =>
    have bound := next.offset_le_mark before
    omega
  | cross _ _ _ next => exact next

/-- A trail in the last block, or not yet at the end mark of its block, goes on with an entry
unless it is at its end. -/
theorem passed (trail : Trail layout ring mark last lastOffset number offset entries)
    (inside : number < last → mark (number % ring) ≠ offset) (left : entries ≠ []) :
    ∃ entry rest, entries = entry :: rest ∧ layout.block entry = number % ring ∧
      layout.offset entry = offset := by
  cases trail with
  | arrive => exact absurd rfl left
  | pass block place _ _ _ => exact ⟨_, _, rfl, block, place⟩
  | cross before _ marked _ => exact absurd marked (inside before)

/-- Before the last block a trail not at the end mark of its block has entries left. -/
theorem ne_nil_of_before (trail : Trail layout ring mark last lastOffset number offset entries)
    (before : number < last) (inside : mark (number % ring) ≠ offset) : entries ≠ [] := by
  cases trail with
  | arrive => exact absurd before (lt_irrefl _)
  | pass => exact List.cons_ne_nil _ _
  | cross _ _ marked _ => exact absurd marked inside

theorem add_one_mod_ne (several : 2 ≤ ring) : (number + 1) % ring ≠ number % ring := by
  intro equal
  have step : ring ∣ number + 1 - number :=
    (Nat.modEq_iff_dvd' (Nat.le_succ number)).mp (equal : number + 1 ≡ number [MOD ring]).symm
  rw [Nat.add_sub_cancel_left] at step
  have bound := Nat.le_of_dvd one_pos step
  omega

/-- A trail whose first entry is in the block it is in passes this entry next. -/
theorem tail {entry : α} {rest : List α} (several : 2 ≤ ring)
    (trail : Trail layout ring mark last lastOffset number offset (entry :: rest))
    (block : layout.block entry = number % ring) :
    last < number + ring ∧ 0 < layout.size entry ∧
      Trail layout ring mark last lastOffset number (offset + layout.size entry) rest := by
  cases trail with
  | pass _ _ positive recent next => exact ⟨recent, positive, next⟩
  | cross _ _ _ next =>
    cases next with
    | pass other _ _ _ _ => exact absurd (other.symm.trans block) (add_one_mod_ne several)
    | cross _ positive _ _ => exact absurd positive (lt_irrefl _)

/-- The numbers of two blocks less than a ring apart are equal when their memory is. -/
theorem number_eq_of_mod_eq (first : number ≤ last) (recent : last < number + ring)
    (equal : number % ring = last % ring) : number = last := by
  have step : ring ∣ last - number := (Nat.modEq_iff_dvd' first).mp equal
  have none := Nat.eq_zero_of_dvd_of_lt step (by omega)
  omega

/-- An entry in the memory of the last block lies in front of the end of the trail. -/
theorem end_le_last (trail : Trail layout ring mark last lastOffset number offset entries)
    {entry : α} (member : entry ∈ entries) (block : layout.block entry = last % ring) :
    layout.offset entry + layout.size entry ≤ lastOffset := by
  induction trail with
  | arrive => cases member
  | pass own place _ recent next inductionHypothesis =>
    rcases List.mem_cons.mp member with rfl | member
    · rw [place]
      exact next.offset_le_last
        (number_eq_of_mod_eq next.number_le recent (own.symm.trans block))
    · exact inductionHypothesis member
  | cross _ _ _ _ inductionHypothesis => exact inductionHypothesis member

/-- A block that the trail crosses whole has an entry of it. -/
theorem exists_between (trail : Trail layout ring mark last lastOffset number offset entries)
    (between : number + 1 < last) :
    last < number + 1 + ring ∧ ∃ entry ∈ entries, layout.block entry = (number + 1) % ring := by
  induction trail with
  | arrive => omega
  | pass _ _ _ _ _ inductionHypothesis =>
    obtain ⟨recent, entry, member, block⟩ := inductionHypothesis between
    exact ⟨recent, entry, List.mem_cons_of_mem _ member, block⟩
  | cross _ _ _ next _ =>
    cases next with
    | arrive => omega
    | pass block _ _ recent _ => exact ⟨recent, _, List.mem_cons_self, block⟩
    | cross _ positive _ _ => exact absurd positive (lt_irrefl _)

/-- The trail comes at most once round to the block it starts in. -/
theorem last_le (several : 2 ≤ ring)
    (trail : Trail layout ring mark last lastOffset number offset entries) :
    last < number + 1 + ring := by
  rcases Nat.lt_or_ge (number + 1) last with between | close
  · exact (trail.exists_between between).1
  · omega

/-- When no entry is in the block that comes next, that block is at most the one the trail
starts in. -/
theorem last_lt (several : 2 ≤ ring)
    (trail : Trail layout ring mark last lastOffset number offset entries)
    (free : ∀ entry ∈ entries, layout.block entry ≠ (last + 1) % ring) :
    last < number + ring := by
  rcases Nat.lt_or_ge (number + 1) last with between | close
  · obtain ⟨recent, entry, member, block⟩ := trail.exists_between between
    refine Nat.lt_of_le_of_ne (by omega) fun full => free entry member ?_
    rw [block, full, show number + ring + 1 = number + 1 + ring by omega, Nat.add_mod_right]
  · omega

/-- The next entry is laid at the end of the trail. -/
theorem laid (trail : Trail layout ring mark last lastOffset number offset entries) {entry : α}
    (several : 0 < ring) (block : layout.block entry = last % ring)
    (place : layout.offset entry = lastOffset) (positive : 0 < layout.size entry) :
    Trail layout ring mark last (lastOffset + layout.size entry) number offset
      (entries ++ [entry]) := by
  induction trail with
  | arrive => exact .pass block place positive (Nat.lt_add_of_pos_right several) .arrive
  | pass own ownPlace positive recent _ inductionHypothesis =>
    exact .pass own ownPlace positive recent inductionHypothesis
  | cross before positive marked _ inductionHypothesis =>
    exact .cross before positive marked inductionHypothesis

/-- The last block is left: its end is marked, and the trail goes on in the next one, in which
no entry may lie. -/
theorem leave (trail : Trail layout ring mark last lastOffset number offset entries)
    {marks : Nat → Nat} (near : last < number + ring) (positive : 0 < lastOffset)
    (marked : marks (last % ring) = lastOffset)
    (others : ∀ index, index ≠ last % ring → marks index = mark index)
    (free : ∀ entry ∈ entries, layout.block entry ≠ (last + 1) % ring) :
    Trail layout ring marks (last + 1) 0 number offset entries := by
  induction trail with
  | arrive => exact .cross (Nat.lt_succ_self _) positive marked .arrive
  | pass own place positive recent next inductionHypothesis =>
    obtain ⟨apart, rest⟩ := List.forall_mem_cons.mp free
    refine .pass own place positive (Nat.lt_of_le_of_ne recent fun round => apart ?_)
      (inductionHypothesis near rest)
    rw [own, show last + 1 = _ from round, Nat.add_mod_right]
  | cross before positive mark_eq next inductionHypothesis =>
    refine .cross (Nat.lt_succ_of_lt before) positive ?_ (inductionHypothesis (by omega) free)
    rw [others _ fun equal => before.ne (number_eq_of_mod_eq before.le near equal), mark_eq]

/-- In the last block the marks do not matter. -/
theorem remark (trail : Trail layout ring mark last lastOffset number offset entries)
    (marks : Nat → Nat) (here : number = last) :
    Trail layout ring marks last lastOffset number offset entries := by
  induction trail with
  | arrive => exact .arrive
  | pass own place positive recent _ inductionHypothesis =>
    exact .pass own place positive recent (inductionHypothesis here)
  | cross before _ _ _ _ => exact absurd here before.ne

end Trail
