/-
This file is a small library about writing over a part of a list, as a program
writes over a part of a memory block. `Holds list index part` says that a list
holds `part` from an index on. Writing makes the list hold what was written, and
keeps every part that the written one does not touch.
-/

import Mathlib.Data.List.Basic

variable {α : Type}

/-- The list with `patch` written over it from an index on. -/
def splice (list : List α) (index : Nat) (patch : List α) : List α :=
  list.take index ++ (patch ++ list.drop (index + patch.length))

/-- The list holds `part` from an index on. -/
def Holds (list : List α) (index : Nat) (part : List α) : Prop :=
  part <+: list.drop index

namespace Splice

variable {list patch part : List α} {index place : Nat}

theorem length_splice (fits : index + patch.length ≤ list.length) :
    (splice list index patch).length = list.length := by
  rw [splice, List.length_append, List.length_append, List.length_take, List.length_drop]
  omega

theorem getElem?_before (fits : index ≤ list.length) {other : Nat} (before : other < index) :
    (splice list index patch)[other]? = list[other]? := by
  rw [splice, List.getElem?_append_left (by rw [List.length_take]; omega),
    List.getElem?_take_of_lt before]

theorem getElem?_after (fits : index ≤ list.length) {other : Nat}
    (after : index + patch.length ≤ other) :
    (splice list index patch)[other]? = list[other]? := by
  have taken : (list.take index).length = index := by rw [List.length_take]; omega
  rw [splice, List.getElem?_append_right (by omega), List.getElem?_append_right (by omega),
    List.getElem?_drop, taken]
  congr 1
  omega

theorem holds_iff :
    Holds list index part ↔
      ∀ other (_ : other < part.length), list[index + other]? = some part[other] := by
  rw [Holds, List.prefix_iff_getElem?]
  refine forall₂_congr fun other bound => ?_
  rw [List.getElem?_drop]

/-- What is written is held where it is written. -/
theorem holds_self (fits : index ≤ list.length) : Holds (splice list index patch) index patch := by
  have taken : (list.take index).length = index := by rw [List.length_take]; omega
  rw [Holds, splice, List.drop_append_of_le_length (by omega), List.drop_of_length_le (by omega)]
  exact List.prefix_append _ _

/-- A part that ends before what is written, or starts behind it, is still held. -/
theorem holds_apart (fits : index ≤ list.length)
    (apart : place + part.length ≤ index ∨ index + patch.length ≤ place)
    (held : Holds list place part) : Holds (splice list index patch) place part := by
  rw [holds_iff] at held ⊢
  intro other bound
  rw [← held other bound]
  rcases apart with before | after
  · exact getElem?_before fits (by omega)
  · exact getElem?_after fits (by omega)

end Splice
