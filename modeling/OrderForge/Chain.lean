/-
This file is a small library of doubly linked chains. A memory holds nodes at
addresses; a segment is a list of cells whose nodes link each cell to the one
before and to the one after it. A segment can be cut in two, does not depend on
the memory elsewhere, and is relinked at either end by one write. Following the
links of a whole chain in either direction passes all its cells and stops.
-/

import Mathlib.Data.List.Induction
import Mathlib.Data.List.Nodup
import Mathlib.Logic.Function.Basic

namespace Chain

/-- What is stored at an address: a content and two links, where no address is the null pointer. -/
structure Node (Address Content : Type) where
  content : Content
  left : Option Address
  right : Option Address

/-- The nodes by their addresses; an address may hold none. -/
abbrev Memory (Address Content : Type) := Address → Option (Node Address Content)

variable {Address Content : Type}

/-- The address a segment is entered at from its left, or else the one after it. -/
def entry (after : Option Address) : List (Address × Content) → Option Address
  | [] => after
  | cell :: _ => some cell.1

/-- The address a segment is entered at from its right, or else the one before it. -/
def exit : Option Address → List (Address × Content) → Option Address
  | before, [] => before
  | _, cell :: rest => exit (some cell.1) rest

/-- Whether the nodes of some cells are linked to each other, to the address before and to the
address after. -/
def Segment (memory : Memory Address Content) (after : Option Address) :
    Option Address → List (Address × Content) → Prop
  | _, [] => True
  | before, cell :: rest =>
    memory cell.1 = some ⟨cell.2, before, entry after rest⟩ ∧
      Segment memory after (some cell.1) rest

/-- The cells met from an address on, with a bound on how many links are followed. There is no
result when the bound is reached or an address holds no node. -/
def walk (next : Node Address Content → Option Address) (memory : Memory Address Content) :
    Nat → Option Address → Option (List (Address × Content))
  | 0, _ => none
  | _ + 1, none => some []
  | fuel + 1, some address =>
    (memory address).bind fun node =>
      (walk next memory fuel (next node)).map (List.cons (address, node.content))

variable {memory other : Memory Address Content} {before after : Option Address}
  {cell : Address × Content} {cells first second : List (Address × Content)}

theorem entry_append : entry after (first ++ second) = entry (entry after second) first := by
  cases first <;> rfl

theorem exit_append : exit before (first ++ second) = exit (exit before first) second := by
  induction first generalizing before with
  | nil => rfl
  | cons cell rest inductionHypothesis => exact inductionHypothesis

theorem exit_concat : exit before (cells ++ [cell]) = some cell.1 := exit_append

/-- A segment with cells is entered at one of them, whatever follows it. -/
theorem entry_append_congr (nonempty : first ≠ []) (other : Option Address)
    (third : List (Address × Content)) :
    entry after (first ++ second) = entry other (first ++ third) := by
  cases first with
  | nil => exact absurd rfl nonempty
  | cons cell rest => rfl

theorem exit_append_congr (nonempty : second ≠ []) (other : Option Address)
    (third : List (Address × Content)) :
    exit before (first ++ second) = exit other (third ++ second) := by
  rw [exit_append, exit_append]
  cases second with
  | nil => exact absurd rfl nonempty
  | cons cell rest => rfl

/-- The ends of a segment depend on the addresses of its cells only. -/
theorem entry_congr (same : first.map Prod.fst = second.map Prod.fst) :
    entry after first = entry after second := by
  cases first with
  | nil =>
    rw [List.map_eq_nil_iff.mp same.symm]
  | cons cell rest =>
    cases second with
    | nil => cases same
    | cons other others => exact congrArg some (List.cons.inj same).1

theorem exit_congr (same : first.map Prod.fst = second.map Prod.fst) :
    exit before first = exit before second := by
  induction first generalizing before second with
  | nil => rw [List.map_eq_nil_iff.mp same.symm]
  | cons cell rest inductionHypothesis =>
    cases second with
    | nil => cases same
    | cons other others =>
      obtain ⟨head, tail⟩ := List.cons.inj same
      rw [exit, exit, head, inductionHypothesis tail]

theorem mem_of_entry {address : Address} (entered : entry none cells = some address) :
    address ∈ cells.map Prod.fst := by
  cases cells with
  | nil => cases entered
  | cons cell rest => exact Option.some.inj entered ▸ List.mem_cons_self

theorem mem_of_exit {address : Address} (exited : exit none cells = some address) :
    address ∈ cells.map Prod.fst := by
  cases cells using List.reverseRecOn with
  | nil => cases exited
  | append_singleton cells cell =>
    rw [exit_concat] at exited
    rw [List.map_append, ← Option.some.inj exited]
    exact List.mem_append_right _ List.mem_cons_self

theorem entry_eq_none : entry none cells = none ↔ cells = [] := by
  cases cells with
  | nil => exact iff_of_true rfl rfl
  | cons cell rest => exact iff_of_false (Option.some_ne_none _) (List.cons_ne_nil _ _)

theorem exit_eq_none : exit none cells = none ↔ cells = [] := by
  cases cells using List.reverseRecOn with
  | nil => exact iff_of_true rfl rfl
  | append_singleton cells cell =>
    rw [exit_concat]
    exact iff_of_false (Option.some_ne_none _) (List.concat_ne_nil _ _)

/-! ### Segments -/

theorem segment_append :
    Segment memory after before (first ++ second) ↔
      Segment memory (entry after second) before first ∧
        Segment memory after (exit before first) second := by
  induction first generalizing before with
  | nil => exact (and_iff_right trivial).symm
  | cons cell rest inductionHypothesis =>
    rw [List.cons_append, Segment, inductionHypothesis, entry_append, ← and_assoc]
    rfl

/-- The last node of a segment. -/
theorem segment_concat :
    Segment memory after before (cells ++ [cell]) ↔
      Segment memory (some cell.1) before cells ∧
        memory cell.1 = some ⟨cell.2, exit before cells, after⟩ := by
  rw [segment_append]
  exact and_congr_right fun _ => and_iff_left trivial

/-- A segment depends on the memory at its own addresses only. -/
theorem Segment.congr (segment : Segment memory after before cells)
    (same : ∀ address ∈ cells.map Prod.fst, other address = memory address) :
    Segment other after before cells := by
  induction cells generalizing before with
  | nil => trivial
  | cons cell rest inductionHypothesis =>
    obtain ⟨own, others⟩ := List.forall_mem_cons.mp same
    exact ⟨own.trans segment.1, inductionHypothesis segment.2 others⟩

/-- The node of every cell of a segment has the content of the cell. -/
theorem Segment.mem (segment : Segment memory after before cells) (member : cell ∈ cells) :
    ∃ left right, memory cell.1 = some ⟨cell.2, left, right⟩ := by
  obtain ⟨first, second, rfl⟩ := List.append_of_mem member
  exact ⟨_, _, (segment_append.mp segment).2.1⟩

/-- The node a whole chain is entered at from its left has the content of the first cell. -/
theorem Segment.entry_content (segment : Segment memory after before cells) :
    ((entry none cells).bind memory).map Node.content = cells.head?.map Prod.snd := by
  cases cells with
  | nil => rfl
  | cons cell rest => exact congrArg (Option.map Node.content) segment.1

/-- The node a whole chain is entered at from its right has the content of the last cell. -/
theorem Segment.exit_content (segment : Segment memory after before cells) :
    ((exit none cells).bind memory).map Node.content = cells.getLast?.map Prod.snd := by
  cases cells using List.reverseRecOn with
  | nil => rfl
  | append_singleton cells cell =>
    rw [exit_concat, List.getLast?_concat]
    exact congrArg (Option.map Node.content) (segment_concat.mp segment).2

/-- The cells determine the memory at their addresses. -/
theorem Segment.unique (segment : Segment memory after before cells)
    (otherSegment : Segment other after before cells) :
    ∀ address ∈ cells.map Prod.fst, memory address = other address := by
  induction cells generalizing before with
  | nil => exact fun _ member => (List.not_mem_nil member).elim
  | cons cell rest inductionHypothesis =>
    exact List.forall_mem_cons.mpr ⟨segment.1.trans otherSegment.1.symm,
      inductionHypothesis segment.2 otherSegment.2⟩

/-- Following the links to the right passes the cells in their order. -/
theorem Segment.walk_right (segment : Segment memory none before cells) {fuel : Nat}
    (enough : cells.length < fuel) :
    walk Node.right memory fuel (entry none cells) = some cells := by
  induction cells generalizing before fuel with
  | nil =>
    obtain ⟨fuel, rfl⟩ := Nat.exists_eq_add_one.mpr enough
    rfl
  | cons cell rest inductionHypothesis =>
    obtain ⟨fuel, rfl⟩ := Nat.exists_eq_add_one.mpr (Nat.zero_lt_of_lt enough)
    rw [entry, walk, segment.1, Option.bind_some,
      inductionHypothesis segment.2 (Nat.lt_of_succ_lt_succ enough)]
    rfl

/-- Following the links to the left passes the cells in the reverse of their order. -/
theorem Segment.walk_left (segment : Segment memory after none cells) {fuel : Nat}
    (enough : cells.length < fuel) :
    walk Node.left memory fuel (exit none cells) = some cells.reverse := by
  induction cells using List.reverseRecOn generalizing after fuel with
  | nil =>
    obtain ⟨fuel, rfl⟩ := Nat.exists_eq_add_one.mpr enough
    rfl
  | append_singleton cells cell inductionHypothesis =>
    obtain ⟨fuel, rfl⟩ := Nat.exists_eq_add_one.mpr (Nat.zero_lt_of_lt enough)
    obtain ⟨others, own⟩ := segment_concat.mp segment
    rw [List.length_append] at enough
    rw [exit_concat, walk, own, Option.bind_some,
      inductionHypothesis others (Nat.lt_of_succ_lt_succ enough), List.reverse_concat]
    rfl

/-! ### Writes -/

section Write

variable [DecidableEq Address]

/-- Store a node, or nothing, at an address. -/
def store (memory : Memory Address Content) (address : Address)
    (node : Option (Node Address Content)) : Memory Address Content :=
  Function.update memory address node

/-- Change the node at an address; a null pointer and an address without a node give no result. -/
def write (memory : Memory Address Content) (pointer : Option Address)
    (change : Node Address Content → Node Address Content) : Option (Memory Address Content) :=
  pointer.bind fun address =>
    (memory address).map fun node => store memory address (some (change node))

theorem store_self (address : Address) (node : Option (Node Address Content)) :
    store memory address node address = node := Function.update_self ..

theorem store_of_ne {address changed : Address} (different : address ≠ changed)
    (node : Option (Node Address Content)) :
    store memory changed node address = memory address := Function.update_of_ne different ..

theorem write_eq {address : Address} {node : Node Address Content}
    (found : memory address = some node) (change : Node Address Content → Node Address Content) :
    write memory (some address) change = some (store memory address (some (change node))) := by
  rw [write, Option.bind_some, found, Option.map_some]

/-- A store at a foreign address keeps a segment. -/
theorem Segment.store (segment : Segment memory after before cells) {address : Address}
    (foreign : address ∉ cells.map Prod.fst) (node : Option (Node Address Content)) :
    Segment (store memory address node) after before cells :=
  segment.congr fun _ member => store_of_ne (ne_of_mem_of_not_mem member foreign) node

/-- The last node of a segment is linked to another address after it. -/
theorem Segment.relink_right (segment : Segment memory after before (cells ++ [cell]))
    (distinct : ((cells ++ [cell]).map Prod.fst).Nodup) (next : Option Address) :
    ∃ relinked, write memory (exit before (cells ++ [cell])) ({ · with right := next }) =
        some relinked ∧ Segment relinked next before (cells ++ [cell]) ∧
      ∀ address, address ≠ cell.1 → relinked address = memory address := by
  obtain ⟨others, own⟩ := segment_concat.mp segment
  rw [List.map_append, List.nodup_append_comm] at distinct
  have foreign : cell.1 ∉ cells.map Prod.fst := (List.nodup_cons.mp distinct).1
  refine ⟨_, by rw [exit_concat]; exact write_eq own _, segment_concat.mpr ⟨?_, ?_⟩, ?_⟩
  · exact others.store foreign _
  · exact store_self ..
  · exact fun address different => store_of_ne different _

/-- The first node of a segment is linked to another address before it. -/
theorem Segment.relink_left (segment : Segment memory after before (cell :: cells))
    (distinct : ((cell :: cells).map Prod.fst).Nodup) (previous : Option Address) :
    ∃ relinked, write memory (entry after (cell :: cells)) ({ · with left := previous }) =
        some relinked ∧ Segment relinked after previous (cell :: cells) ∧
      ∀ address, address ≠ cell.1 → relinked address = memory address := by
  have foreign : cell.1 ∉ cells.map Prod.fst := (List.nodup_cons.mp distinct).1
  exact ⟨_, write_eq segment.1 _, ⟨store_self .., segment.2.store foreign _⟩,
    fun address different => store_of_ne different _⟩

end Write

end Chain
