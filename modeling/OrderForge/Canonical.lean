/-
This file proves that a book is determined by the orders that rest in it. A level
is its queue: the counter counts the queue, and no node waits to be unlinked. So two
well-formed books with the same ladders have the same levels under the same prices,
and a statement about ladders is one about levels.
-/

import OrderForge.Representation

namespace OrderForge

namespace PriceLevel

variable {symbol : String} {side : Side} {price : Price} {first second : PriceLevel}

theorem Wf.nodes_eq {level : PriceLevel} (wf : level.Wf symbol side price) :
    level.orderCont.nodes = level.orders.map fun order => (order.orderId, order) := by
  rw [orders, InsertionMap.items, List.map_map]
  refine (List.map_id level.orderCont.nodes).symm.trans (List.map_congr_left fun node member => ?_)
  exact Prod.ext (wf.keyed node member) rfl

/-- A level is determined by its queue. -/
theorem Wf.eq_of_orders (firstWf : first.Wf symbol side price)
    (secondWf : second.Wf symbol side price) (same : first.orders = second.orders) :
    first = second := by
  have total : first.totalQty = second.totalQty := by
    refine Quantity.toNat_injective ?_
    rw [firstWf.counted, secondWf.counted, quantity, same]
    rfl
  have nodes : first.orderCont = second.orderCont := by
    refine InsertionMap.ext ?_
    rw [firstWf.nodes_eq, secondWf.nodes_eq, same]
  exact PriceLevel.ext (firstWf.symbol_eq.trans secondWf.symbol_eq.symm)
    (firstWf.price_eq.trans secondWf.price_eq.symm) total
    (firstWf.side_eq.trans secondWf.side_eq.symm) nodes
    (firstWf.unmarked.trans secondWf.unmarked.symm)

end PriceLevel

namespace BookSide

variable {CompFunc : Price → Price → Prop} [IsStrictTotalOrder Price CompFunc] {symbol : String}
  {side : Side} {first second : BookSide CompFunc}

/-- A side has a level at a price exactly when orders rest there. -/
theorem Wf.find?_eq_none (wf : first.Wf symbol side) {price : Price} :
    first.levels.bookCont.find? price = none ↔ Ladder.queue first.orders price = [] := by
  rw [wf.queue_eq]
  cases found : first.levels.bookCont.find? price with
  | none => exact ⟨fun _ => rfl, fun _ => rfl⟩
  | some level =>
    refine ⟨fun none => by (cases none), fun none => absurd none ?_⟩
    exact wf.populated (price, level) ((FlatMap.find?_eq_some _).mp found)

/-- The levels of a side are determined by the orders that rest on it. -/
theorem Wf.bookCont_eq (firstWf : first.Wf symbol side) (secondWf : second.Wf symbol side)
    (same : first.orders = second.orders) : first.levels.bookCont = second.levels.bookCont := by
  refine FlatMap.eq_of_find? fun price => ?_
  cases firstFound : first.levels.bookCont.find? price with
  | none =>
    rw [firstWf.find?_eq_none, same, ← secondWf.find?_eq_none] at firstFound
    exact firstFound.symm
  | some firstLevel =>
    cases secondFound : second.levels.bookCont.find? price with
    | none =>
      rw [secondWf.find?_eq_none, ← same, ← firstWf.find?_eq_none, firstFound] at secondFound
      cases secondFound
    | some secondLevel =>
      have firstQueue := firstWf.queue_eq price
      have secondQueue := secondWf.queue_eq price
      rw [firstFound, Option.elim_some] at firstQueue
      rw [secondFound, Option.elim_some, ← same, firstQueue] at secondQueue
      exact congrArg some ((firstWf.level_wf firstFound).eq_of_orders
        (secondWf.level_wf secondFound) secondQueue)

end BookSide

namespace OrderBook

variable {first second : OrderBook}

/-- The levels of a book are determined by the orders that rest in it. -/
theorem Wf.levels_eq (firstWf : first.Wf) (secondWf : second.Wf)
    (symbol : first.symbol = second.symbol) {side : Side}
    (same : first.orders side = second.orders side) : first.levels side = second.levels side := by
  cases side with
  | BUY =>
    have bids := firstWf.bids
    rw [symbol] at bids
    exact congrArg FlatMap.entries (bids.bookCont_eq secondWf.bids same)
  | SELL =>
    have asks := firstWf.asks
    rw [symbol] at asks
    exact congrArg FlatMap.entries (asks.bookCont_eq secondWf.asks same)

/-- The level stored under a price holds the queue of the price. -/
theorem Wf.level_orders (wf : first.Wf) {side : Side} {entry : Price × PriceLevel}
    (member : entry ∈ first.levels side) :
    entry.2.orders = Ladder.queue (first.orders side) entry.1 ∧ entry.2.orders ≠ [] := by
  cases side with
  | BUY =>
    exact ⟨(wf.bids.levels.queue_eq first.bids.levels.bookCont.nodup_keys member).symm,
      wf.bids.populated entry member⟩
  | SELL =>
    exact ⟨(wf.asks.levels.queue_eq first.asks.levels.bookCont.nodup_keys member).symm,
      wf.asks.populated entry member⟩

/-- Every resting order is in the level of its price. -/
theorem Wf.exists_level (wf : first.Wf) {side : Side} {order : Order}
    (member : order ∈ first.orders side) : ∃ entry ∈ first.levels side, entry.1 = order.price := by
  cases side with
  | BUY =>
    obtain ⟨entry, inSide, inLevel⟩ := BookSide.mem_ordersOf.mp member
    exact ⟨entry, inSide, ((wf.bids.levels entry inSide).placed order inLevel).2.2.1.symm⟩
  | SELL =>
    obtain ⟨entry, inSide, inLevel⟩ := BookSide.mem_ordersOf.mp member
    exact ⟨entry, inSide, ((wf.asks.levels entry inSide).placed order inLevel).2.2.1.symm⟩

end OrderBook

end OrderForge
