/-
This file proves that a price level with pointers does what the level of the
queues does. The cells of a level are the nodes of its list with their ids and
orders. A match changes the orders in the nodes and no link; the pointers that it
leaves in the engine lead to the orders that the engine of the queues records, and
the marked nodes are cells of the level, each marked once, so that unlinking them
one after the other finds each of them still linked.
-/

import OrderForge.LevelInvariant
import OrderForge.LinkedLevel
import OrderForge.ListRefinement

namespace OrderForge

/-- A slot with the id and the order in its node. -/
abbrev Cell := Slot × OrderId × Order

/-- What is in the slots of the order nodes. -/
abbrev OrderMemory := Chain.Memory Slot (OrderId × Order)

/-! ### The engine -/

namespace LinkedEngine

/-- The orders that pointers lead to. -/
def ordersAt (memory : OrderMemory) (pointers : List Slot) : List (Option Order) :=
  pointers.map fun pointer => (memory pointer).map fun node => node.content.2

/-- Whether an engine with pointers has recorded what an engine with orders has. -/
structure Shows (linked : LinkedEngine) (memory : OrderMemory) (engine : MatchingEngine) :
    Prop where
  originalOrder : linked.originalOrder = engine.originalOrder
  trades : linked.trades = engine.trades
  tradeIds : linked.tradeIds = engine.tradeIds
  modified : ordersAt memory linked.modifiedOrders = engine.modifiedOrders.map some

variable {linked : LinkedEngine} {memory changed : OrderMemory} {engine : MatchingEngine}

theorem create_shows (order : Order) (tradeIds : IdGenerator) :
    (create order tradeIds).Shows memory (MatchingEngine.create order tradeIds) :=
  ⟨rfl, rfl, rfl, rfl⟩

theorem ordersAt_congr {pointers : List Slot}
    (same : ∀ slot ∈ pointers, changed slot = memory slot) :
    ordersAt changed pointers = ordersAt memory pointers :=
  List.map_congr_left fun slot member => by rw [same slot member]

theorem Shows.hasRemainingQty (shows : linked.Shows memory engine) :
    linked.hasRemainingQty = engine.hasRemainingQty := by
  rw [LinkedEngine.hasRemainingQty, MatchingEngine.hasRemainingQty, MatchingEngine.hasRemainingQty,
    MatchingEngine.remainingQty, MatchingEngine.remainingQty, bare, shows.originalOrder]

/-- A match of an order in a node is a match of the order; the result is left in the node. -/
theorem Shows.matchOrder {pool : OrderPool} (shows : linked.Shows pool.memory engine) {slot : Slot}
    {id : OrderId} {item : Order} {left right : Option Slot}
    (found : pool.memory slot = some ⟨(id, item), left, right⟩)
    (fresh : slot ∉ linked.modifiedOrders) :
    ∃ larger after,
      linked.matchOrder pool slot = some ((engine.matchOrder item).1, larger, after) ∧
      larger.allocator = pool.allocator ∧
      larger.memory = Chain.store pool.memory slot
        (some ⟨(id, (engine.matchOrder item).2.1), left, right⟩) ∧
      after.Shows larger.memory (engine.matchOrder item).2.2 ∧
      after.modifiedOrders = linked.modifiedOrders ++ [slot] ∧
      after.removeLevels = linked.removeLevels := by
  have read : pool.read (some slot) = some ⟨(id, item), left, right⟩ := found
  have agree : linked.bare =
      { engine with modifiedOrders := [], removeLevels := [] } := by
    rw [bare, shows.originalOrder, shows.trades, shows.tradeIds]
  have written := NodePool.write_eq (Chain.write_eq found fun node =>
    { node with content := (node.content.1, (linked.bare.matchOrder item).2.1) })
  have kept (node) : ordersAt (Chain.store pool.memory slot node) linked.modifiedOrders =
      ordersAt pool.memory linked.modifiedOrders :=
    ordersAt_congr fun other member => Chain.store_of_ne (ne_of_mem_of_not_mem member fresh) node
  rw [LinkedEngine.matchOrder, read, Option.bind_some]
  dsimp only
  rw [written, Option.map_some, agree]
  refine ⟨_, _, rfl, rfl, rfl, ⟨rfl, rfl, rfl, ?_⟩, rfl, rfl⟩
  dsimp only
  have recorded : (engine.matchOrder item).2.2.modifiedOrders =
      engine.modifiedOrders ++ [(engine.matchOrder item).2.1] := rfl
  rw [recorded, List.map_append, ← shows.modified, ← kept, ordersAt, List.map_append,
    List.map_singleton, Chain.store_self]
  rfl

end LinkedEngine

/-! ### The loop over the nodes -/

namespace LinkedLevel

variable {linked : Scan} {scan : PriceLevel.Scan}

/-- What one pass of the loop leaves. -/
structure Passed (linked after : Scan) (scan : PriceLevel.Scan) (result : Order × PriceLevel.Scan)
    (slot : Slot) (id : OrderId) : Prop where
  allocator : after.pool.allocator = linked.pool.allocator
  totalQty : after.totalQty = result.2.totalQty
  engine : after.engine.Shows after.pool.memory result.2.engine
  marked : ∃ own : List Cell, own.Sublist [(slot, id, result.1)] ∧
    after.ordersToBeRemoved = linked.ordersToBeRemoved ++ own.map Prod.fst ∧
    result.2.ordersToBeRemoved = scan.ordersToBeRemoved ++ own.map fun cell => cell.2.1
  modified : ∀ other ∈ after.engine.modifiedOrders,
    other ∈ linked.engine.modifiedOrders ∨ other = slot
  removeLevels : after.engine.removeLevels = linked.engine.removeLevels ∧
    result.2.engine.removeLevels = scan.engine.removeLevels

theorem matchNode_passed (engine : linked.engine.Shows linked.pool.memory scan.engine)
    (totalQty : linked.totalQty = scan.totalQty) {slot : Slot} {id : OrderId} {item : Order}
    {left right : Option Slot}
    (found : linked.pool.memory slot = some ⟨(id, item), left, right⟩)
    (fresh : slot ∉ linked.engine.modifiedOrders) :
    ∃ after, matchNode linked slot = some after ∧
      after.pool.memory = Chain.store linked.pool.memory slot
        (some ⟨(id, (PriceLevel.matchNode scan (id, item)).1), left, right⟩) ∧
      Passed linked after scan (PriceLevel.matchNode scan (id, item)) slot id := by
  have none (node : Cell) : ([] : List Cell).Sublist [node] := List.nil_sublist _
  rw [matchNode, PriceLevel.matchNode, engine.hasRemainingQty]
  by_cases wanted : scan.engine.hasRemainingQty = true
  · rw [if_pos wanted, if_pos wanted]
    obtain ⟨larger, after, matched, allocator, stored, shows, modified, removeLevels⟩ :=
      engine.matchOrder found fresh
    rw [matched, Option.bind_some]
    dsimp only
    rw [NodePool.read, Option.bind_some, stored, Chain.store_self, Option.map_some]
    refine ⟨_, rfl, stored, allocator, ?_, shows, ?_, fun other member => ?_, removeLevels, rfl⟩
    · exact congrArg (· - _) totalQty
    · dsimp only
      split_ifs
      · exact ⟨_, List.Sublist.refl _, rfl, rfl⟩
      · exact ⟨[], none _, (List.append_nil _).symm, (List.append_nil _).symm⟩
    · rw [modified] at member
      exact (List.mem_append.mp member).imp_right List.mem_singleton.mp
  · rw [if_neg wanted, if_neg wanted]
    refine ⟨linked, rfl, ?_, rfl, totalQty, engine,
      ⟨[], none _, (List.append_nil _).symm, (List.append_nil _).symm⟩, fun _ => Or.inl, rfl,
      rfl⟩
    dsimp only
    rw [← found]
    exact (Function.update_eq_self slot linked.pool.memory).symm

/-- What the loop leaves of the cells it passes: the same slots and ids with the orders that the
loop over the queue leaves, and marks at some of them. -/
structure Looped (linked after : Scan) (scan : PriceLevel.Scan)
    (result : List (OrderId × Order) × PriceLevel.Scan) (before : Option Slot)
    (cells next marked : List Cell) : Prop where
  allocator : after.pool.allocator = linked.pool.allocator
  slots : next.map Prod.fst = cells.map Prod.fst
  entries : next.map Prod.snd = result.1
  segment : Chain.Segment after.pool.memory none before next
  frame : ∀ slot ∉ cells.map Prod.fst, after.pool.memory slot = linked.pool.memory slot
  totalQty : after.totalQty = result.2.totalQty
  engine : after.engine.Shows after.pool.memory result.2.engine
  sublist : marked.Sublist next
  linkedMarks : after.ordersToBeRemoved = linked.ordersToBeRemoved ++ marked.map Prod.fst
  marks : result.2.ordersToBeRemoved =
    scan.ordersToBeRemoved ++ marked.map fun cell => cell.2.1
  modified : ∀ slot ∈ after.engine.modifiedOrders,
    slot ∈ linked.engine.modifiedOrders ∨ slot ∈ cells.map Prod.fst
  removeLevels : after.engine.removeLevels = linked.engine.removeLevels ∧
    result.2.engine.removeLevels = scan.engine.removeLevels

theorem matchNodes_looped (linked : Scan) (scan : PriceLevel.Scan) {before : Option Slot}
    {cells : List Cell} {fuel : Nat}
    (segment : Chain.Segment linked.pool.memory none before cells)
    (distinct : (cells.map Prod.fst).Nodup)
    (engine : linked.engine.Shows linked.pool.memory scan.engine)
    (totalQty : linked.totalQty = scan.totalQty)
    (fresh : ∀ slot ∈ linked.engine.modifiedOrders, slot ∉ cells.map Prod.fst)
    (enough : cells.length < fuel) :
    ∃ after next marked, matchNodes fuel (Chain.entry none cells) linked = some after ∧
      Looped linked after scan
        (Keyed.mapAccum PriceLevel.matchNode scan (cells.map Prod.snd)) before cells next marked :=
    by
  induction cells generalizing linked scan before fuel with
  | nil =>
    obtain ⟨fuel, rfl⟩ := Nat.exists_eq_add_one.mpr enough
    exact ⟨linked, [], [], rfl, rfl, rfl, rfl, trivial, fun _ _ => rfl, totalQty, engine,
      List.Sublist.refl _, (List.append_nil _).symm, (List.append_nil _).symm,
      fun _ => Or.inl, rfl, rfl⟩
  | cons cell rest inductionHypothesis =>
    obtain ⟨fuel, rfl⟩ := Nat.exists_eq_add_one.mpr (Nat.zero_lt_of_lt enough)
    obtain ⟨slot, id, item⟩ := cell
    obtain ⟨own, others⟩ := segment
    obtain ⟨foreign, restDistinct⟩ := List.nodup_cons.mp distinct
    have unvisited : slot ∉ linked.engine.modifiedOrders := fun member =>
      fresh slot member List.mem_cons_self
    obtain ⟨middle, passedOne, stored, passed⟩ := matchNode_passed engine totalQty own unvisited
    have restSegment : Chain.Segment middle.pool.memory none (some slot) rest := by
      rw [stored]
      exact others.store foreign _
    have restFresh : ∀ other ∈ middle.engine.modifiedOrders, other ∉ rest.map Prod.fst := by
      intro other member inRest
      rcases passed.modified other member with old | same
      · exact fresh other old (List.mem_cons_of_mem _ inRest)
      · exact foreign (same ▸ inRest)
    obtain ⟨after, next, marked, loopedRest, looped⟩ := inductionHypothesis _ _ restSegment
      restDistinct passed.engine passed.totalQty restFresh (Nat.lt_of_succ_lt_succ enough)
    let result := PriceLevel.matchNode scan (id, item)
    have read : middle.pool.read (some slot) =
        some ⟨(id, result.1), before, Chain.entry none rest⟩ := by
      rw [NodePool.read, Option.bind_some, stored, Chain.store_self]
    have loop : matchNodes (fuel + 1) (Chain.entry none ((slot, id, item) :: rest)) linked =
        some after := by
      rw [Chain.entry, matchNodes, passedOne, Option.bind_some, read, Option.bind_some]
      exact loopedRest
    obtain ⟨own, ownSublist, ownLinked, ownMarks⟩ := passed.marked
    have entries : Keyed.mapAccum PriceLevel.matchNode scan
        (((slot, id, item) :: rest).map Prod.snd) =
        ((id, result.1) ::
          (Keyed.mapAccum PriceLevel.matchNode result.2 (rest.map Prod.snd)).1,
          (Keyed.mapAccum PriceLevel.matchNode result.2 (rest.map Prod.snd)).2) :=
      Keyed.mapAccum_cons _ _ _ _
    refine ⟨after, (slot, id, result.1) :: next, own ++ marked, loop, ?_⟩
    constructor
    · exact looped.allocator.trans passed.allocator
    · exact congrArg (List.cons slot) looped.slots
    · rw [entries, List.map_cons, looped.entries]
    · refine ⟨?_, looped.segment⟩
      rw [looped.frame slot foreign, stored, Chain.store_self, Chain.entry_congr looped.slots]
    · intro other outside
      obtain ⟨different, others⟩ := List.ne_and_not_mem_of_not_mem_cons outside
      rw [looped.frame other others, stored, Chain.store_of_ne different]
    · rw [entries, looped.totalQty]
    · rw [entries]
      exact looped.engine
    · exact (ownSublist.append looped.sublist)
    · rw [looped.linkedMarks, ownLinked, List.map_append, List.append_assoc]
    · rw [entries, List.map_append, ← List.append_assoc, ← ownMarks]
      exact looped.marks
    · intro other member
      rcases looped.modified other member with old | inRest
      · rcases passed.modified other old with older | same
        · exact Or.inl older
        · exact Or.inr (same ▸ List.mem_cons_self)
      · exact Or.inr (List.mem_cons_of_mem _ inRest)
    · rw [entries]
      exact ⟨looped.removeLevels.1.trans passed.removeLevels.1,
        looped.removeLevels.2.trans passed.removeLevels.2⟩

/-! ### The operations of a level -/

/-- Whether a level with pointers has the fields and the nodes of a level. -/
structure Shows (linked : LinkedLevel) (memory : OrderMemory) (cells : List Cell)
    (level : PriceLevel) : Prop where
  symbol : linked.symbol = level.symbol
  price : linked.price = level.price
  totalQty : linked.totalQty = level.totalQty
  side : linked.side = level.side
  orders : linked.orderCont.Represents memory cells
  entries : cells.map Prod.snd = level.orderCont.nodes
  marks : ∃ marked : List Cell, marked.Sublist cells ∧
    linked.ordersToBeRemoved = marked.map Prod.fst ∧
    level.ordersToBeRemoved = marked.map fun cell => cell.2.1

/-- What an operation leaves of a level whose cells are given. What was handed out to others still
is, and is as it was; nothing else is handed out but the nodes of the level. -/
structure Operated (pool : OrderPool) (cells : List Cell) (handed : List Slot)
    (larger : OrderPool) (changed : LinkedLevel) (next : List Cell) (left : List Slot)
    (level : PriceLevel) : Prop where
  served : HashLinkedList.Served pool cells handed larger changed.orderCont next left
  owned : ∀ slot ∈ left, slot ∈ next.map Prod.fst ∨ slot ∈ handed ∧ slot ∉ cells.map Prod.fst
  shows : changed.Shows larger.memory next level

variable {level : LinkedLevel} {pool : OrderPool} {cells : List Cell} {handed : List Slot}
  {queue : PriceLevel}

theorem create_shows (symbol : String) (price : Price) (side : Side) (memory : OrderMemory) :
    (create symbol price side).Shows memory [] (PriceLevel.create symbol price side) where
  symbol := rfl
  price := rfl
  totalQty := rfl
  side := rfl
  orders := HashLinkedList.create_represents
  entries := rfl
  marks := ⟨[], List.Sublist.refl _, rfl, rfl⟩

theorem Shows.congr {memory changed : OrderMemory} (shows : level.Shows memory cells queue)
    (same : ∀ slot ∈ cells.map Prod.fst, changed slot = memory slot) :
    level.Shows changed cells queue := { shows with orders := shows.orders.congr same }

theorem Shows.update {memory : OrderMemory} (shows : level.Shows memory cells queue) :
    level.update = queue.update := by
  rw [LinkedLevel.update, PriceLevel.update, shows.symbol, shows.price, shows.totalQty, shows.side]

theorem Shows.contains (shows : level.Shows pool.memory cells queue) (id : OrderId) :
    level.orderCont.contains id = queue.orderCont.contains id :=
  InsertionMap.contains_congr (shows.orders.keys_eq shows.entries) id

/-- An operation that changes nothing. -/
theorem Shows.idle (shows : level.Shows pool.memory cells queue)
    (accounted : pool.allocator.Accounted handed)
    (held : ∀ slot ∈ cells.map Prod.fst, slot ∈ handed) :
    Operated pool cells handed pool level cells handed queue where
  served := shows.orders.idle accounted held
  owned slot member := by
    by_cases own : slot ∈ cells.map Prod.fst
    · exact Or.inl own
    · exact Or.inr ⟨member, own⟩
  shows := shows

theorem Shows.addOrder (shows : level.Shows pool.memory cells queue)
    (accounted : pool.allocator.Accounted handed)
    (held : ∀ slot ∈ cells.map Prod.fst, slot ∈ handed) (order : Order) :
    ∃ larger changed next left,
      level.addOrder pool order = some (larger, changed, (queue.addOrder order).2) ∧
      Operated pool cells handed larger changed next left (queue.addOrder order).1 := by
  have contained := shows.contains order.orderId
  rw [LinkedLevel.addOrder, PriceLevel.addOrder, contained]
  by_cases fresh : queue.orderCont.contains order.orderId = false
  · rw [dif_pos fresh, fresh, if_neg Bool.false_ne_true]
    obtain ⟨slot, larger, orderCont, pushed, served⟩ :=
      shows.orders.push_served (contained.trans fresh) accounted held order
    obtain ⟨marked, sublist, linkedMarks, marks⟩ := shows.marks
    have shown : LinkedLevel.Shows { level with
          orderCont := orderCont
          totalQty := level.totalQty + order.remainingQty }
        larger.memory (cells ++ [(slot, order.orderId, order)])
        { queue with
          orderCont := queue.orderCont.push order.orderId order fresh
          totalQty := queue.totalQty + order.remainingQty } :=
      { symbol := shows.symbol
        price := shows.price
        totalQty := congrArg (· + order.remainingQty) shows.totalQty
        side := shows.side
        orders := served.represents
        entries := by
          rw [List.map_append, shows.entries]
          rfl
        marks := ⟨marked, List.sublist_append_of_sublist_left sublist, linkedMarks, marks⟩ }
    rw [pushed, Option.map_some]
    dsimp only
    rw [shown.update]
    refine ⟨_, _, _, _, rfl, served, fun taken member => ?_, shown⟩
    rcases List.mem_cons.mp member with same | old
    · exact Or.inl (by simp [same])
    · by_cases own : taken ∈ cells.map Prod.fst
      · exact Or.inl (List.map_append ▸ List.mem_append_left _ own)
      · exact Or.inr ⟨old, own⟩
  · rw [dif_neg fresh, if_pos ((Bool.not_eq_false _).mp fresh), shows.update]
    exact ⟨_, _, _, _, rfl, shows.idle accounted held⟩

/-- A list that is asked to unlink the node of a cell finds it, and what is handed out afterwards
are the nodes of the cells left and what was handed out to others. -/
theorem removeNode_served {list : HashLinkedList OrderId} {before after : List Cell} {cell : Cell}
    (represents : list.Represents pool.memory (before ++ cell :: after))
    (accounted : pool.allocator.Accounted handed)
    (held : ∀ slot ∈ (before ++ cell :: after).map Prod.fst, slot ∈ handed) :
    ∃ larger changed, list.removeNode pool cell.1 = some (larger, changed) ∧
      HashLinkedList.Served pool (before ++ cell :: after) handed larger changed (before ++ after)
        (handed.erase cell.1) ∧
      ∀ slot ∈ handed.erase cell.1, slot ∈ (before ++ after).map Prod.fst ∨
        slot ∈ handed ∧ slot ∉ (before ++ cell :: after).map Prod.fst := by
  obtain ⟨larger, changed, removed, unlinked⟩ := represents.removeNode
  refine ⟨larger, changed, removed, unlinked.served accounted represents.distinct held,
    fun slot member => ?_⟩
  have once : handed.Nodup := (List.nodup_append.mp accounted.once).2.1
  obtain ⟨different, old⟩ := (once.mem_erase_iff).mp member
  have perm : ((before ++ cell :: after).map Prod.fst).Perm
      (cell.1 :: (before ++ after).map Prod.fst) := List.perm_middle.map Prod.fst
  by_cases own : slot ∈ (before ++ cell :: after).map Prod.fst
  · exact Or.inl ((List.mem_cons.mp (perm.mem_iff.mp own)).resolve_left different)
  · exact Or.inr ⟨old, own⟩

theorem Shows.removeOrder (shows : level.Shows pool.memory cells queue)
    (unmarked : queue.ordersToBeRemoved = []) (accounted : pool.allocator.Accounted handed)
    (held : ∀ slot ∈ cells.map Prod.fst, slot ∈ handed) (id : OrderId) :
    ∃ larger changed next left,
      level.removeOrder pool id = some (larger, changed, (queue.removeOrder id).2) ∧
      Operated pool cells handed larger changed next left (queue.removeOrder id).1 := by
  obtain ⟨marked, -, linkedMarks, marks⟩ := shows.marks
  rw [unmarked] at marks
  have none : level.ordersToBeRemoved = [] := by
    rw [linkedMarks, List.map_eq_nil_iff.mp marks.symm, List.map_nil]
  rw [LinkedLevel.removeOrder, shows.orders.find shows.entries, Option.bind_some]
  cases found : queue.orderCont.find? id with
  | none =>
    have same : queue.removeOrder id = (queue, queue.update) := by
      rw [PriceLevel.removeOrder, found]
    rw [same, shows.update]
    exact ⟨_, _, _, _, rfl, shows.idle accounted held⟩
  | some order =>
    have inQueue := (InsertionMap.find?_eq_some _).mp found
    rw [← shows.entries, List.mem_map] at inQueue
    obtain ⟨⟨slot, key, item⟩, member, same⟩ := inQueue
    cases same
    obtain ⟨before, after, rfl⟩ := List.append_of_mem member
    obtain ⟨larger, orderCont, removed, served, owned⟩ :=
      removeNode_served shows.orders accounted held
    have indexed : level.orderCont.nodeMap.find? id = some slot :=
      shows.orders.find?_eq_some.mpr ⟨order, member⟩
    have result : queue.removeOrder id = ({ queue with
          totalQty := queue.totalQty - order.remainingQty
          orderCont := queue.orderCont.remove id },
        PriceLevel.update { queue with
          totalQty := queue.totalQty - order.remainingQty
          orderCont := queue.orderCont.remove id }) := by
      rw [PriceLevel.removeOrder, found]
    have shown : LinkedLevel.Shows { level with
          totalQty := level.totalQty - order.remainingQty
          orderCont := orderCont }
        larger.memory (before ++ after)
        { queue with
          totalQty := queue.totalQty - order.remainingQty
          orderCont := queue.orderCont.remove id } :=
      { symbol := shows.symbol
        price := shows.price
        totalQty := congrArg (· - order.remainingQty) shows.totalQty
        side := shows.side
        orders := served.represents
        entries := HashLinkedList.entries_remove shows.entries
        marks := ⟨[], List.nil_sublist _, none, unmarked⟩ }
    rw [result, ← shown.update]
    refine ⟨larger, _, _, _, ?_, served, owned, shown⟩
    dsimp only
    rw [HashLinkedList.remove, indexed]
    dsimp only
    rw [removed, Option.map_some]

/-- Unlinking the nodes of some cells one after the other finds each of them. -/
theorem removeNodes_served {list : HashLinkedList OrderId} {map : OrdersCont} {marked : List Cell}
    (represents : list.Represents pool.memory cells) (entries : cells.map Prod.snd = map.nodes)
    (accounted : pool.allocator.Accounted handed)
    (held : ∀ slot ∈ cells.map Prod.fst, slot ∈ handed) (sublist : marked.Sublist cells) :
    ∃ larger changed next left,
      removeNodes (marked.map Prod.fst) pool list = some (larger, changed) ∧
      HashLinkedList.Served pool cells handed larger changed next left ∧
      (∀ slot ∈ left, slot ∈ next.map Prod.fst ∨ slot ∈ handed ∧ slot ∉ cells.map Prod.fst) ∧
      next.map Prod.snd =
        ((marked.map fun cell => cell.2.1).foldl InsertionMap.remove map).nodes := by
  induction marked generalizing list map pool cells handed with
  | nil =>
    refine ⟨pool, list, cells, handed, rfl, represents.idle accounted held, fun slot member => ?_,
      entries⟩
    by_cases own : slot ∈ cells.map Prod.fst
    · exact Or.inl own
    · exact Or.inr ⟨member, own⟩
  | cons cell rest inductionHypothesis =>
    obtain ⟨front, back, rfl, member, others⟩ := List.cons_sublist_iff.mp sublist
    obtain ⟨before, between, rfl⟩ := List.append_of_mem member
    rw [List.append_assoc, List.cons_append] at represents entries held ⊢
    obtain ⟨left, right, node⟩ :=
      represents.segment.mem (List.mem_append_right before List.mem_cons_self)
    have read : pool.read (some cell.1) = some ⟨cell.2, left, right⟩ := node
    obtain ⟨smaller, orderCont, removed, served, owned⟩ :=
      removeNode_served represents accounted held
    obtain ⟨larger, changed, next, rest, done, servedRest, ownedRest, left⟩ :=
      inductionHypothesis served.represents (HashLinkedList.entries_remove entries)
        served.accounted served.held
        ((others.trans (List.sublist_append_right between back)).trans
          (List.sublist_append_right before _))
    refine ⟨larger, changed, next, rest, ?_, served.trans servedRest, fun slot member => ?_, left⟩
    · rw [List.map_cons, removeNodes, read, Option.bind_some, removed, Option.bind_some]
      exact done
    · rcases ownedRest slot member with own | ⟨still, away⟩
      · exact Or.inl own
      · exact Or.inr ((owned slot still).resolve_left away)

theorem Shows.removeMarkedOrderNodes (shows : level.Shows pool.memory cells queue)
    (accounted : pool.allocator.Accounted handed)
    (held : ∀ slot ∈ cells.map Prod.fst, slot ∈ handed) :
    ∃ larger changed next left,
      level.removeMarkedOrderNodes pool = some (larger, changed) ∧
      Operated pool cells handed larger changed next left queue.removeMarkedOrderNodes := by
  obtain ⟨marked, sublist, linkedMarks, marks⟩ := shows.marks
  obtain ⟨larger, changed, next, left, done, served, owned, entries⟩ :=
    removeNodes_served shows.orders shows.entries accounted held sublist
  refine ⟨larger, { level with orderCont := changed, ordersToBeRemoved := [] }, next, left, ?_,
    served, owned, ?_⟩
  · rw [LinkedLevel.removeMarkedOrderNodes, linkedMarks, done]
    rfl
  · exact {
      symbol := shows.symbol
      price := shows.price
      totalQty := shows.totalQty
      side := shows.side
      orders := served.represents
      entries := by
        rw [entries, PriceLevel.removeMarkedOrderNodes, marks]
      marks := ⟨[], List.nil_sublist _, rfl, rfl⟩ }

/-- What an engine that has matched a level keeps of it. The orders it has changed are in nodes of
the level; it remembers the address of the level exactly when the other engine remembers its
price, and that is unless the counter is as it was. -/
structure Engaged (linked after : LinkedEngine) (engine result : MatchingEngine)
    (memory : OrderMemory) (cells : List Cell) (address : PriceLvlPtr)
    (queue matched : PriceLevel) : Prop where
  shows : after.Shows memory result
  modified : ∀ slot ∈ after.modifiedOrders,
    slot ∈ linked.modifiedOrders ∨ slot ∈ cells.map Prod.fst
  removeLevels : matched.totalQty = queue.totalQty ∧
      after.removeLevels = linked.removeLevels ∧ result.removeLevels = engine.removeLevels ∨
    after.removeLevels = linked.removeLevels ++ [address] ∧
      result.removeLevels = engine.removeLevels ++ [queue.price]

theorem Shows.matchOrder {linked : LinkedEngine} {engine : MatchingEngine}
    (shows : level.Shows pool.memory cells queue) (unmarked : queue.ordersToBeRemoved = [])
    (accounted : pool.allocator.Accounted handed)
    (held : ∀ slot ∈ cells.map Prod.fst, slot ∈ handed) (recorded : linked.Shows pool.memory engine)
    (fresh : ∀ slot ∈ linked.modifiedOrders, slot ∉ cells.map Prod.fst) (self : PriceLvlPtr) :
    ∃ larger changed after next,
      level.matchOrder self pool linked =
        some (larger, changed, after, (queue.matchOrder engine).2.2) ∧
      Operated pool cells handed larger changed next handed (queue.matchOrder engine).1 ∧
      next.map Prod.fst = cells.map Prod.fst ∧
      Engaged linked after engine (queue.matchOrder engine).2.1 larger.memory cells self queue
        (queue.matchOrder engine).1 := by
  obtain ⟨none, -, linkedMarks, marks⟩ := shows.marks
  rw [unmarked] at marks
  rw [List.map_eq_nil_iff.mp marks.symm, List.map_nil] at linkedMarks
  have length : level.orderCont.size = cells.length := by
    rw [HashLinkedList.size, shows.orders.nodeMap, List.length_map]
  obtain ⟨scan, next, marked, done, looped⟩ :=
    matchNodes_looped ⟨pool, level.totalQty, level.ordersToBeRemoved, linked⟩
      ⟨queue.totalQty, queue.ordersToBeRemoved, engine⟩ shows.orders.segment
      shows.orders.distinct recorded shows.totalQty fresh (Nat.lt_succ_self cells.length)
  rw [shows.entries] at looped
  let matched : LinkedLevel := { level with
    totalQty := scan.totalQty
    ordersToBeRemoved := scan.ordersToBeRemoved }
  have ids : next.map (fun cell => cell.2.1) = cells.map fun cell => cell.2.1 := by
    have keys := congrArg (List.map Prod.fst) looped.entries
    rw [Keyed.mapAccum_keys, ← shows.entries, List.map_map, List.map_map] at keys
    exact keys
  have represents : level.orderCont.Represents scan.pool.memory next :=
    { segment := looped.segment
      distinct := looped.slots ▸ shows.orders.distinct
      front := shows.orders.front.trans (Chain.entry_congr looped.slots).symm
      back := shows.orders.back.trans (Chain.exit_congr looped.slots).symm
      nodeMap := by
        rw [shows.orders.nodeMap, ← List.zip_map', ← List.zip_map', ids, looped.slots] }
  have shown : matched.Shows scan.pool.memory next (queue.matchOrder engine).1 :=
    { symbol := shows.symbol
      price := shows.price
      totalQty := looped.totalQty
      side := shows.side
      orders := represents
      entries := looped.entries
      marks := ⟨marked, looped.sublist, looped.linkedMarks.trans (congrArg (· ++ _) linkedMarks),
        looped.marks.trans (congrArg (· ++ _) unmarked)⟩ }
  have served : HashLinkedList.Served pool cells handed scan.pool matched.orderCont next handed :=
    { accounted := looped.allocator ▸ accounted
      represents := represents
      held := looped.slots ▸ held
      frame := fun slot member outside =>
        ⟨member, looped.slots ▸ outside, looped.frame slot outside⟩ }
  have owned : ∀ slot ∈ handed, slot ∈ next.map Prod.fst ∨
      slot ∈ handed ∧ slot ∉ cells.map Prod.fst := by
    rw [looped.slots]
    exact (shows.idle accounted held).owned
  have update : matched.update = (queue.matchOrder engine).2.2 := shown.update
  let left := Keyed.mapAccum PriceLevel.matchNode
    ⟨queue.totalQty, queue.ordersToBeRemoved, engine⟩ queue.orderCont.nodes
  have result : (queue.matchOrder engine).2.1 =
      if left.2.totalQty ≠ queue.totalQty then left.2.engine.addLevelToRemoveOrders queue.price
      else left.2.engine := rfl
  have counters : (scan.totalQty ≠ level.totalQty) ↔ left.2.totalQty ≠ queue.totalQty := by
    rw [looped.totalQty, shows.totalQty]
  refine ⟨scan.pool, matched, if scan.totalQty ≠ level.totalQty then
      scan.engine.addLevelToRemoveOrders self else scan.engine, next, ?_,
    ⟨served, owned, shown⟩, looped.slots, ?_⟩
  · rw [LinkedLevel.matchOrder, length, shows.orders.front, done, Option.map_some, ← update]
  rw [result]
  obtain ⟨originalOrder, trades, tradeIds, modified⟩ := looped.engine
  by_cases changed : scan.totalQty ≠ level.totalQty
  · rw [if_pos changed, if_pos (counters.mp changed)]
    exact ⟨⟨originalOrder, trades, tradeIds, modified⟩, looped.modified, Or.inr
      ⟨congrArg (· ++ [self]) looped.removeLevels.1,
        congrArg (· ++ [queue.price]) looped.removeLevels.2⟩⟩
  · rw [if_neg changed, if_neg (mt counters.mpr changed)]
    exact ⟨⟨originalOrder, trades, tradeIds, modified⟩, looped.modified,
      Or.inl ⟨not_not.mp (mt counters.mpr changed), looped.removeLevels⟩⟩

end LinkedLevel

end OrderForge
