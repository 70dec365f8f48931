/-
This file says when a hashed linked list represents a list of cells, and what its
operations do then. A push adds a cell at the back. The four ways to unlink a node,
the only one, the first, the last and one in the middle, all leave the cells in
front of it and those behind it. No operation touches a slot that is not its own,
and all of them follow pointers to nodes only.
-/

import OrderForge.HashLinkedList

namespace OrderForge

namespace HashLinkedList

variable {Id Item : Type}

/-- Whether a list has the nodes of some cells, in their order. -/
structure Represents (list : HashLinkedList Id) (memory : Chain.Memory Slot (Id × Item))
    (cells : List (Slot × Id × Item)) : Prop where
  segment : Chain.Segment memory none none cells
  distinct : (cells.map Prod.fst).Nodup
  front : list.front = Chain.entry none cells
  back : list.back = Chain.exit none cells
  nodeMap : list.nodeMap.nodes = cells.map fun cell => (cell.2.1, cell.1)

variable {list other : HashLinkedList Id} {pool : NodePool Id Item}
  {memory changed : Chain.Memory Slot (Id × Item)} {cells before after : List (Slot × Id × Item)}
  {cell : Slot × Id × Item} {handed : List Slot}

theorem create_represents : (create : HashLinkedList Id).Represents memory [] :=
  ⟨trivial, List.nodup_nil, rfl, rfl, rfl⟩

/-- A list depends on the memory at its own nodes only. -/
theorem Represents.congr (represents : list.Represents memory cells)
    (same : ∀ slot ∈ cells.map Prod.fst, changed slot = memory slot) :
    list.Represents changed cells :=
  { represents with segment := represents.segment.congr same }

/-- The cells determine a list, and the nodes it consists of. -/
theorem Represents.unique (represents : list.Represents memory cells)
    (otherRepresents : other.Represents changed cells) :
    list = other ∧ ∀ slot ∈ cells.map Prod.fst, memory slot = changed slot := by
  refine ⟨HashLinkedList.ext (represents.front.trans otherRepresents.front.symm)
    (represents.back.trans otherRepresents.back.symm)
    (InsertionMap.ext (represents.nodeMap.trans otherRepresents.nodeMap.symm)), ?_⟩
  exact represents.segment.unique otherRepresents.segment

/-! ### What can be read off a list -/

theorem Represents.empty_iff (represents : list.Represents memory cells) :
    list.nodeMap.nodes = [] ↔ cells = [] := by
  rw [represents.nodeMap, List.map_eq_nil_iff]

theorem Represents.forward (represents : list.Represents pool.memory cells) {fuel : Nat}
    (enough : cells.length < fuel) : list.forward pool fuel = some cells := by
  rw [HashLinkedList.forward, represents.front]
  exact represents.segment.walk_right enough

theorem Represents.backward (represents : list.Represents pool.memory cells) {fuel : Nat}
    (enough : cells.length < fuel) : list.backward pool fuel = some cells.reverse := by
  rw [HashLinkedList.backward, represents.back]
  exact represents.segment.walk_left enough

theorem iterate_eq_walk (pool : NodePool Id Item) (fuel : Nat) (ptr : Option Slot) :
    iterate pool fuel ptr =
      (Chain.walk Chain.Node.right pool.memory fuel ptr).map (List.map fun cell => cell.2.2) := by
  induction fuel generalizing ptr with
  | zero => rfl
  | succ fuel inductionHypothesis =>
    cases ptr with
    | none => rfl
    | some slot =>
      rw [iterate, Chain.walk, NodePool.read, Option.bind_some, Option.map_bind]
      refine congrArg (Option.bind _) (funext fun node => ?_)
      rw [inductionHypothesis, Function.comp_apply, Option.map_map, Option.map_map]
      rfl

theorem Represents.iterate (represents : list.Represents pool.memory cells) {fuel : Nat}
    (enough : cells.length < fuel) :
    iterate pool fuel list.front = some (cells.map fun cell => cell.2.2) := by
  have walked := represents.forward enough
  rw [HashLinkedList.forward] at walked
  rw [iterate_eq_walk, walked, Option.map_some]

/-- The index holds the nodes of the list. -/
theorem Represents.find?_eq_some [DecidableEq Id] (represents : list.Represents memory cells)
    {id : Id} {slot : Slot} :
    list.nodeMap.find? id = some slot ↔ ∃ item, (slot, id, item) ∈ cells := by
  rw [InsertionMap.find?_eq_some, represents.nodeMap, List.mem_map]
  constructor
  · rintro ⟨⟨found, own, item⟩, member, same⟩
    cases same
    exact ⟨item, member⟩
  · rintro ⟨item, member⟩
    exact ⟨_, member, rfl⟩

/-- A node that the index holds is one of the cells. -/
theorem Represents.split (represents : list.Represents memory cells) {slot : Slot}
    (live : slot ∈ list.nodeMap.items) :
    ∃ before cell after, cells = before ++ cell :: after ∧ cell.1 = slot := by
  rw [InsertionMap.items, represents.nodeMap, List.map_map] at live
  obtain ⟨cell, member, same⟩ := List.mem_map.mp live
  obtain ⟨before, after, split⟩ := List.append_of_mem member
  exact ⟨before, cell, after, split, same⟩

/-! ### A push -/

variable [DecidableEq Id]

/-- A push takes a slot that is not handed out and adds its cell at the back. -/
theorem Represents.push (represents : list.Represents pool.memory cells) {id : Id}
    (fresh : list.nodeMap.contains id = false) (accounted : pool.allocator.Accounted handed)
    (held : ∀ slot ∈ cells.map Prod.fst, slot ∈ handed) (item : Item) :
    ∃ slot larger pushed, list.push pool id item = some (larger, pushed) ∧
      larger.allocator.Accounted (slot :: handed) ∧
      pushed.Represents larger.memory (cells ++ [(slot, id, item)]) ∧
      ∀ address ∉ slot :: cells.map Prod.fst, larger.memory address = pool.memory address := by
  obtain ⟨slot, placed, created, kept, unused, own, elsewhere⟩ :=
    NodePool.new_spec accounted id item
  have foreign : slot ∉ cells.map Prod.fst := fun member => unused (held slot member)
  have distinct : ((cells ++ [(slot, id, item)]).map Prod.fst).Nodup := by
    rw [List.map_append, List.nodup_append_comm]
    exact List.nodup_cons.mpr ⟨foreign, represents.distinct⟩
  have indexed : (list.nodeMap.emplace id slot).nodes =
      (cells ++ [(slot, id, item)]).map fun cell => (cell.2.1, cell.1) := by
    rw [InsertionMap.emplace_of_fresh _ _ fresh, List.map_append, ← represents.nodeMap]
    rfl
  have segment : Chain.Segment placed.memory none none cells :=
    represents.segment.congr fun address member =>
      elsewhere address (ne_of_mem_of_not_mem member foreign)
  have nonempty := represents.empty_iff
  rw [HashLinkedList.push, created]
  cases cells using List.reverseRecOn with
  | nil =>
    refine ⟨slot, placed, ⟨some slot, some slot, list.nodeMap.emplace id slot⟩, ?_, kept, ?_, ?_⟩
    · exact if_pos (List.isEmpty_iff.mpr represents.nodeMap)
    · exact ⟨⟨own, trivial⟩, distinct, rfl, rfl, indexed⟩
    · exact fun address outside => elsewhere address (List.ne_of_not_mem_cons outside)
  | append_singleton cells last =>
    obtain ⟨linked, written, relinked, same⟩ :=
      segment.relink_right represents.distinct (some slot)
    have different : slot ≠ last.1 := fun equal => foreign (by
      rw [equal, List.map_append]
      exact List.mem_append_right _ List.mem_cons_self)
    have ownLinked := (same slot different).trans own
    refine ⟨slot, { placed with
        memory := Chain.store linked slot (some ⟨(id, item), list.back, none⟩) },
      ⟨list.front, some slot, list.nodeMap.emplace id slot⟩, ?_, kept, ?_, ?_⟩
    · rw [Option.bind_some]
      refine (if_neg fun empty => ?_).trans ?_
      · exact List.concat_ne_nil _ _ (nonempty.mp (List.isEmpty_iff.mp empty))
      · rw [represents.back, NodePool.write_eq written, Option.bind_some,
          NodePool.write_eq (Chain.write_eq ownLinked _)]
        rfl
    · refine ⟨Chain.segment_concat.mpr ⟨relinked.store foreign _, ?_⟩, distinct, ?_, ?_, indexed⟩
      · exact represents.back ▸ Chain.store_self ..
      · have entered : Chain.entry none (cells ++ [last] ++ []) =
            Chain.entry none (cells ++ [last] ++ [(slot, id, item)]) :=
          Chain.entry_append_congr (List.concat_ne_nil _ _) none _
        rw [List.append_nil] at entered
        exact represents.front.trans entered
      · show some slot = _
        rw [Chain.exit_concat]
    · intro address outside
      have fresh := List.ne_of_not_mem_cons outside
      have others := List.not_mem_of_not_mem_cons outside
      rw [List.map_append, List.mem_append, not_or] at others
      have behind := List.ne_of_not_mem_cons others.2
      exact (Chain.store_of_ne fresh _).trans
        ((same address behind).trans (elsewhere address fresh))

/-! ### The ways to unlink a node -/

/-- What is left when the node of a cell is unlinked and deleted. -/
structure Unlinked (pool : NodePool Id Item) (before : List (Slot × Id × Item))
    (cell : Slot × Id × Item) (after : List (Slot × Id × Item)) (smaller : NodePool Id Item)
    (other : HashLinkedList Id) : Prop where
  allocator : smaller.allocator = pool.allocator.deallocate cell.1 pool.nodeSize
  represents : other.Represents smaller.memory (before ++ after)
  frame : ∀ slot ∉ (before ++ cell :: after).map Prod.fst, smaller.memory slot = pool.memory slot

/-- The last steps of all the ways: once the cells in front of a node are linked to those behind
it, it is taken out of the index and deleted. -/
theorem Represents.unlinked (represents : list.Represents pool.memory (before ++ cell :: after))
    {linked : Chain.Memory Slot (Id × Item)}
    (segment : Chain.Segment linked none none (before ++ after))
    (frame : ∀ slot ∉ (before ++ cell :: after).map Prod.fst, linked slot = pool.memory slot)
    {front back : Option Slot} (frontEq : front = Chain.entry none (before ++ after))
    (backEq : back = Chain.exit none (before ++ after)) :
    Unlinked pool before cell after (NodePool.delete { pool with memory := linked } cell.1)
      ⟨front, back, list.nodeMap.remove cell.2.1⟩ := by
  have distinct := represents.distinct
  rw [List.map_append, List.map_cons, List.nodup_middle, ← List.map_append,
    List.nodup_cons] at distinct
  have indexed := represents.nodeMap
  rw [List.map_append, List.map_cons] at indexed
  refine ⟨rfl, ⟨segment.store distinct.1 _, distinct.2, frontEq, backEq, ?_⟩, ?_⟩
  · rw [InsertionMap.nodes_remove _ indexed, List.map_append]
  · intro slot outside
    refine (Chain.store_of_ne (fun same => outside ?_) none).trans (frame slot outside)
    rw [same, List.map_append]
    exact List.mem_append_right _ List.mem_cons_self

theorem Represents.popFront (represents : list.Represents pool.memory ([] ++ cell :: after)) :
    ∃ smaller other, list.popFront pool = some (smaller, other) ∧
      Unlinked pool [] cell after smaller other := by
  obtain ⟨own, rest⟩ := represents.segment
  have read : pool.read (some cell.1) = some ⟨cell.2, none, Chain.entry none after⟩ := own
  have pointed : list.front = some cell.1 := represents.front
  rw [HashLinkedList.popFront, pointed]
  simp only [read, Option.bind_some]
  cases after with
  | nil =>
    exact ⟨_, _, rfl, represents.unlinked trivial (fun _ _ => rfl) rfl rfl⟩
  | cons next more =>
    obtain ⟨linked, written, relinked, same⟩ :=
      rest.relink_left (List.nodup_cons.mp represents.distinct).2 none
    refine ⟨_, _, congrArg (Option.map _) (NodePool.write_eq written), ?_⟩
    refine represents.unlinked relinked (fun slot outside => same slot ?_) rfl
      represents.back
    exact List.ne_of_not_mem_cons (List.not_mem_of_not_mem_cons outside)

theorem Represents.popBack (represents : list.Represents pool.memory (before ++ [cell])) :
    ∃ smaller other, list.popBack pool = some (smaller, other) ∧
      Unlinked pool before cell [] smaller other := by
  obtain ⟨rest, own⟩ := Chain.segment_concat.mp represents.segment
  have read : pool.read (some cell.1) = some ⟨cell.2, Chain.exit none before, none⟩ := own
  have pointed : list.back = some cell.1 := represents.back.trans Chain.exit_concat
  rw [HashLinkedList.popBack, pointed]
  simp only [read, Option.bind_some]
  cases before using List.reverseRecOn with
  | nil => exact ⟨_, _, rfl, represents.unlinked trivial (fun _ _ => rfl) rfl rfl⟩
  | append_singleton fore previous =>
    have distinct := represents.distinct
    rw [List.map_append] at distinct
    obtain ⟨linked, written, relinked, same⟩ :=
      rest.relink_right (List.nodup_append.mp distinct).1 none
    rw [Chain.exit_concat] at written ⊢
    refine ⟨_, _, congrArg (Option.map _) (NodePool.write_eq written), ?_⟩
    refine represents.unlinked ?_ (fun slot outside => same slot fun equal => outside ?_) ?_ ?_
    · rw [List.append_nil]
      exact relinked
    · rw [equal, List.map_append, List.map_append]
      exact List.mem_append_left _ (List.mem_append_right _ List.mem_cons_self)
    · exact represents.front.trans (Chain.entry_append_congr (List.concat_ne_nil _ _) none [])
    · rw [List.append_nil, Chain.exit_concat]

theorem Represents.popMiddle {previous next : Slot × Id × Item}
    (represents : list.Represents pool.memory (before ++ [previous] ++ cell :: next :: after)) :
    ∃ smaller other, list.popMiddle pool cell.1 = some (smaller, other) ∧
      Unlinked pool (before ++ [previous]) cell (next :: after) smaller other := by
  obtain ⟨left, own, right⟩ := Chain.segment_append.mp represents.segment
  rw [Chain.exit_concat] at own
  have distinct := represents.distinct
  rw [List.map_append, List.map_cons] at distinct
  obtain ⟨leftDistinct, rightDistinct, apart⟩ := List.nodup_append.mp distinct
  -- The node of the cell before the one to unlink is linked to the one behind it.
  obtain ⟨bridged, leftWritten, leftLinked, leftSame⟩ :=
    left.relink_right leftDistinct (some next.1)
  have foreign : ∀ slot ∈ cell.1 :: (next :: after).map Prod.fst, slot ≠ previous.1 :=
    fun slot member same => apart previous.1 (by simp) slot member same.symm
  have ownBridged : bridged cell.1 = _ := (leftSame _ (foreign _ List.mem_cons_self)).trans own
  have rightBridged : Chain.Segment bridged none (some cell.1) (next :: after) :=
    right.congr fun slot member => leftSame slot (foreign slot (List.mem_cons_of_mem _ member))
  -- The node of the cell behind is linked to the one before.
  obtain ⟨linked, rightWritten, rightLinked, rightSame⟩ :=
    rightBridged.relink_left (List.nodup_cons.mp rightDistinct).2 (some previous.1)
  have computed : list.popMiddle pool cell.1 =
      some (NodePool.delete { pool with memory := linked } cell.1,
        { list with nodeMap := list.nodeMap.remove cell.2.1 }) := by
    have read : pool.read (some cell.1) = some ⟨cell.2, some previous.1, some next.1⟩ := own
    have again : NodePool.read { pool with memory := bridged } (some cell.1) =
        some ⟨cell.2, some previous.1, some next.1⟩ := ownBridged
    rw [Chain.exit_concat] at leftWritten
    rw [HashLinkedList.popMiddle, read, Option.bind_some, NodePool.write_eq leftWritten,
      Option.bind_some, again, Option.bind_some, NodePool.write_eq rightWritten, Option.map_some]
  refine ⟨_, _, computed, represents.unlinked (Chain.segment_append.mpr ⟨?_, ?_⟩) ?_ ?_ ?_⟩
  · exact leftLinked.congr fun slot member => rightSame slot fun same =>
      apart slot member next.1 (List.mem_cons_of_mem _ List.mem_cons_self) same
  · rw [Chain.exit_concat]
    exact rightLinked
  · intro slot outside
    rw [List.map_append, List.mem_append, not_or, List.map_append, List.mem_append, not_or]
      at outside
    have behind := List.ne_of_not_mem_cons (List.not_mem_of_not_mem_cons outside.2)
    exact (rightSame slot behind).trans (leftSame slot (List.ne_of_not_mem_cons outside.1.2))
  · exact represents.front.trans (Chain.entry_append_congr (List.concat_ne_nil _ _) none _)
  · have exited : Chain.exit none (before ++ [previous] ++ [cell] ++ next :: after) =
        Chain.exit none (before ++ [previous] ++ next :: after) :=
      Chain.exit_append_congr (List.cons_ne_nil _ _) none _
    rw [List.append_assoc _ [cell]] at exited
    exact represents.back.trans exited

/-- A node is unlinked in the way its place asks for. -/
theorem Represents.removeNode (represents : list.Represents pool.memory (before ++ cell :: after)) :
    ∃ smaller other, list.removeNode pool cell.1 = some (smaller, other) ∧
      Unlinked pool before cell after smaller other := by
  have distinct := represents.distinct
  rw [List.map_append, List.map_cons, List.nodup_middle, List.nodup_cons] at distinct
  have own : cell.1 ∉ before.map Prod.fst ∧ cell.1 ∉ after.map Prod.fst := by
    rw [← not_or, ← List.mem_append]
    exact distinct.1
  rw [HashLinkedList.removeNode]
  cases before using List.reverseRecOn with
  | nil =>
    have front : some cell.1 = list.front := represents.front.symm
    rw [if_pos front]
    exact represents.popFront
  | append_singleton before previous =>
    have notFront : some cell.1 ≠ list.front := by
      rw [represents.front, Chain.entry_append_congr (List.concat_ne_nil _ _) none []]
      rw [List.append_nil]
      exact fun same => own.1 (Chain.mem_of_entry same.symm)
    rw [if_neg notFront]
    cases after with
    | nil =>
      rw [if_pos (represents.back.trans Chain.exit_concat).symm]
      exact represents.popBack
    | cons next after =>
      have notBack : some cell.1 ≠ list.back := by
        rw [represents.back, ← List.singleton_append, ← List.append_assoc,
          Chain.exit_append_congr (List.cons_ne_nil _ _) none []]
        exact fun same => own.2 (Chain.mem_of_exit same.symm)
      rw [if_neg notBack]
      exact represents.popMiddle

/-! ### A push that is taken back -/

/-- A list is as it was when an item is pushed to it and removed again, and so is every node that
was handed out, to this list or to others. -/
theorem Represents.push_remove (represents : list.Represents pool.memory cells) {id : Id}
    (fresh : list.nodeMap.contains id = false) (accounted : pool.allocator.Accounted handed)
    (held : ∀ slot ∈ cells.map Prod.fst, slot ∈ handed) (item : Item) :
    ∃ larger pushed smaller, list.push pool id item = some (larger, pushed) ∧
      pushed.find larger id = some (some item) ∧
      pushed.remove larger id = some (smaller, list) ∧
      ∀ slot ∈ handed, smaller.memory slot = pool.memory slot := by
  obtain ⟨slot, larger, pushed, done, kept, appended, frame⟩ :=
    represents.push fresh accounted held item
  have unused := kept.not_mem
  have found : pushed.nodeMap.find? id = some slot :=
    appended.find?_eq_some.mpr ⟨item, List.mem_append_right _ List.mem_cons_self⟩
  have own : larger.memory slot = _ := (Chain.segment_concat.mp appended.segment).2
  obtain ⟨smaller, other, removed, unlinked⟩ := appended.removeNode
  have represented := unlinked.represents
  rw [List.append_nil] at represented
  obtain ⟨sameList, sameNodes⟩ := represented.unique represents
  subst sameList
  refine ⟨larger, pushed, smaller, done, ?_, ?_, fun taken member => ?_⟩
  · rw [HashLinkedList.find, found]
    show ((larger.memory slot).map _) = _
    rw [own]
    rfl
  · rw [HashLinkedList.remove, found]
    exact removed
  · by_cases inCells : taken ∈ cells.map Prod.fst
    · exact sameNodes taken inCells
    · have outside : taken ∉ slot :: cells.map Prod.fst :=
        List.not_mem_cons_of_ne_of_not_mem (ne_of_mem_of_not_mem member unused) inCells
      refine (unlinked.frame taken fun inside => outside ?_).trans (frame taken outside)
      rw [List.map_append, List.mem_append] at inside
      exact inside.elim (List.mem_cons_of_mem _) fun new =>
        List.mem_singleton.mp new ▸ List.mem_cons_self

end HashLinkedList

end OrderForge
