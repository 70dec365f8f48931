/-
This file proves that independent passive orders commute. While no buy reaches a sell
nothing is matched, so a list of limit orders only rests, and every order goes behind
its own price. The queue of a price then sees its own part of the list and nothing
else; two lists with the same parts leave the same queues, hence the same book.
-/

import OrderForge.Canonical
import OrderForge.Identity

namespace OrderForge

/-! ### Resting a list of orders -/

namespace Ladder

/-- Rest the orders of a list one after the other. -/
def restAll (before : Price → Price → Prop) [DecidableRel before] (orders brought : List Order) :
    List Order :=
  brought.foldl (fun orders order => rest before order orders) orders

/-- Put an order at the back of the queue of its price, unless its id is there. -/
def enqueue (queue : List Order) (order : Order) : List Order :=
  if ∃ resting ∈ queue, resting.orderId = order.orderId then queue else queue ++ [order]

variable {before : Price → Price → Prop} [DecidableRel before]

theorem restAll_append (orders first second : List Order) :
    restAll before orders (first ++ second) =
      restAll before (restAll before orders first) second := List.foldl_append

theorem mem_restAll {orders brought : List Order} {resting : Order}
    (member : resting ∈ restAll before orders brought) : resting ∈ orders ∨ resting ∈ brought := by
  induction brought generalizing orders with
  | nil => exact Or.inl member
  | cons order others inductionHypothesis =>
    rcases inductionHypothesis member with rested | behind
    · rcases mem_rest rested with same | old
      · exact Or.inr (same ▸ List.mem_cons_self)
      · exact Or.inl old
    · exact Or.inr (List.mem_cons_of_mem _ behind)

variable [IsStrictTotalOrder Price before]

theorem restAll_sorted {orders : List Order} (sorted : Ranked.Sorted before Order.price orders)
    (brought : List Order) :
    Ranked.Sorted before Order.price (restAll before orders brought) := by
  induction brought generalizing orders with
  | nil => exact sorted
  | cons order others inductionHypothesis => exact inductionHypothesis (rest_sorted sorted order)

/-- The queue of a price sees its own part of a list and nothing else. -/
theorem queue_restAll {orders : List Order} (sorted : Ranked.Sorted before Order.price orders)
    (brought : List Order) (price : Price) :
    queue (restAll before orders brought) price =
      (queue brought price).foldl enqueue (queue orders price) := by
  induction brought generalizing orders with
  | nil => rfl
  | cons order others inductionHypothesis =>
    refine (inductionHypothesis (rest_sorted sorted order)).trans ?_
    rw [queue_rest sorted]
    by_cases own : order.price = price
    · subst own
      have head : queue (order :: others) order.price = order :: queue others order.price :=
        Ranked.queue_cons_self order others
      rw [head, List.foldl_cons, enqueue]
      by_cases declined : order.orderId ∈ (queue orders order.price).map Order.orderId
      · rw [if_neg fun both => both.2 declined, if_pos (List.mem_map.mp declined)]
      · rw [if_pos ⟨rfl, declined⟩, if_neg fun held => declined (List.mem_map.mpr held)]
    · have head : queue (order :: others) price = queue others price :=
        Ranked.queue_cons_of_ne own others
      rw [head, if_neg fun both => own both.1]

/-- Lists with the same part at every price rest alike. -/
theorem restAll_congr {orders first second : List Order}
    (sorted : Ranked.Sorted before Order.price orders)
    (same : ∀ price, queue first price = queue second price) :
    restAll before orders first = restAll before orders second := by
  refine Ranked.eq_of_queue (restAll_sorted sorted first) (restAll_sorted sorted second)
    fun price => (queue_restAll sorted first price).trans ?_
  rw [same]
  exact (queue_restAll sorted second price).symm

end Ladder

/-! ### Passive orders -/

namespace OrderBook

/-- The orders of a list that a book takes to a side. -/
def brought (book : OrderBook) (orders : List Order) (side : Side) : List Order :=
  orders.filter fun order => order.symbol = book.symbol ∧ order.side = side

/-- Limit orders with ids of their own, submitted open, such that no buy order among them and the
resting orders reaches a sell order among them. -/
structure Passive (book : OrderBook) (orders : List Order) : Prop where
  limit : ∀ order ∈ orders, order.type = .LIMIT
  opened : ∀ order ∈ orders, order.status = .OPEN
  identified : ∀ order ∈ orders, order.orderId ≠ 0
  apart : ∀ buy sell, buy ∈ orders ∧ buy.side = .BUY ∨ buy ∈ book.orders .BUY →
    sell ∈ orders ∧ sell.side = .SELL ∨ sell ∈ book.orders .SELL → buy.price < sell.price

/-- What submitting passive orders leaves. -/
structure RestedAll (before : OrderBook) (orders : List Order) (after : OrderBook) : Prop where
  wf : after.Wf
  symbol : after.symbol = before.symbol
  ladders : ∀ side, after.orders side =
    Ladder.restAll side.Better (before.orders side) (before.brought orders side)
  index : after.ordersIdMap =
    (orders.filter fun order => order.symbol = before.symbol).foldl
      (fun index order => index.emplace order.orderId ⟨order.orderId, order.price, order.side⟩)
      before.ordersIdMap

variable {before middle after : OrderBook} {order : Order} {orders : List Order}

theorem RestedAll.cons (first : RestedAll before [order] middle)
    (others : RestedAll middle orders after) : RestedAll before (order :: orders) after where
  wf := others.wf
  symbol := others.symbol.trans first.symbol
  ladders side := by
    rw [others.ladders, first.ladders, ← Ladder.restAll_append, brought, brought, brought,
      first.symbol, ← List.filter_append, List.singleton_append]
  index := by
    rw [others.index, first.index, first.symbol, ← List.foldl_append, ← List.filter_append,
      List.singleton_append]

theorem Passive.not_marketable (passive : before.Passive (order :: orders)) :
    ¬ before.Marketable order := by
  rw [Marketable, passive.limit order List.mem_cons_self]
  rintro ⟨resting, member, accepts⟩
  rw [Order.accepts] at accepts
  cases side : order.side with
  | BUY =>
    rw [side] at member accepts
    exact not_lt.mpr accepts
      (passive.apart order resting (Or.inl ⟨List.mem_cons_self, side⟩) (Or.inr member))
  | SELL =>
    rw [side] at member accepts
    exact not_lt.mpr accepts
      (passive.apart resting order (Or.inr member) (Or.inl ⟨List.mem_cons_self, side⟩))

theorem Passive.of_perm {other : List Order} (passive : before.Passive orders)
    (perm : orders.Perm other) : before.Passive other where
  limit order member := passive.limit order (perm.mem_iff.mpr member)
  opened order member := passive.opened order (perm.mem_iff.mpr member)
  identified order member := passive.identified order (perm.mem_iff.mpr member)
  apart buy sell isBuy isSell :=
    passive.apart buy sell (isBuy.imp_left fun both => ⟨perm.mem_iff.mpr both.1, both.2⟩)
      (isSell.imp_left fun both => ⟨perm.mem_iff.mpr both.1, both.2⟩)

/-- The other orders stay passive when the first has come to rest. -/
theorem Passive.tail (passive : before.Passive (order :: orders))
    (rested : RestedAll before [order] middle) : middle.Passive orders where
  limit other member := passive.limit other (List.mem_cons_of_mem _ member)
  opened other member := passive.opened other (List.mem_cons_of_mem _ member)
  identified other member := passive.identified other (List.mem_cons_of_mem _ member)
  apart buy sell isBuy isSell := by
    have origin : ∀ {side : Side} {item : Order},
        item ∈ orders ∧ item.side = side ∨ item ∈ middle.orders side →
        item ∈ order :: orders ∧ item.side = side ∨ item ∈ before.orders side := by
      rintro side item (⟨listed, own⟩ | resting)
      · exact Or.inl ⟨List.mem_cons_of_mem _ listed, own⟩
      · rw [rested.ladders] at resting
        rcases Ladder.mem_restAll resting with old | new
        · exact Or.inr old
        · obtain ⟨single, both⟩ := List.mem_filter.mp new
          exact Or.inl ⟨List.mem_singleton.mp single ▸ List.mem_cons_self,
            (of_decide_eq_true both).2⟩
    exact passive.apart buy sell (origin isBuy) (origin isSell)

end OrderBook

namespace Session

variable {session : Session} {order : Order} {orders : List Order}

/-- A passive order comes to rest, unless it is of another symbol. -/
theorem step_restedAll (wf : session.book.Wf) (passive : session.book.Passive (order :: orders)) :
    session.book.RestedAll [order] (session.step (.addOrder order)).1.book := by
  have silent := passive.not_marketable
  have effect := step_effect wf (.addOrder order)
  generalize session.step (.addOrder order) = result at effect ⊢
  cases effect with
  | foreign _ foreign =>
    refine ⟨wf, rfl, fun side => ?_, ?_⟩
    · rw [OrderBook.brought, List.filter_cons_of_neg (by simpa using fun own _ => foreign own)]
      rfl
    · rw [List.filter_cons_of_neg (by simpa using foreign)]
      rfl
  | executed _ own after returned trades events executed =>
    rw [prepared_eq_self own (passive.identified order List.mem_cons_self)] at executed
    have processed : session.book.processed order = order := by
      rw [OrderBook.processed_of_limit (passive.limit order List.mem_cons_self),
        OrderBook.afterFills, if_pos (OrderBook.fills_of_not silent)]
    have rests : session.book.Rests order := by
      refine ⟨passive.limit order List.mem_cons_self, ?_⟩
      rw [processed, passive.opened order List.mem_cons_self]
      decide
    refine ⟨executed.wf, executed.symbol, fun side => ?_, ?_⟩
    · rw [OrderBook.brought]
      rcases Side.eq_or_eq_opposite side order.side with same | same
      · subst same
        rw [List.filter_cons_of_pos (by simpa using own)]
        refine executed.own.trans ?_
        rw [if_pos rests, processed]
        rfl
      · have other : order.side ≠ side := fun equal =>
          order.side.opposite_ne (same.symm.trans equal.symm)
        rw [List.filter_cons_of_neg (by simpa using fun _ => other), same]
        refine executed.passive.trans ?_
        rw [OrderBook.demand_of_not silent, Ladder.serve_zero]
        rfl
    · rw [List.filter_cons_of_pos (by simpa using own)]
      refine executed.ordersIdMap.trans ?_
      rw [if_pos rests]
      rfl

theorem final_restedAll (wf : session.book.Wf) (passive : session.book.Passive orders) :
    session.book.RestedAll orders (session.final (orders.map .addOrder)).book := by
  induction orders generalizing session with
  | nil => exact ⟨wf, rfl, fun _ => rfl, rfl⟩
  | cons order others inductionHypothesis =>
    have rested := step_restedAll wf passive
    exact rested.cons (inductionHypothesis rested.wf (passive.tail rested))

/-! ### Two arrangements of a list -/

/-- Arrangements of the same orders that keep the relative order of those with equal side and
price. -/
def Rearranged (first second : List Order) : Prop :=
  first.Perm second ∧ ∀ side price,
    (first.filter fun order => order.side = side ∧ order.price = price) =
      second.filter fun order => order.side = side ∧ order.price = price

theorem queue_brought (book : OrderBook) (orders : List Order) (side : Side) (price : Price) :
    Ladder.queue (book.brought orders side) price =
      (orders.filter fun order => order.side = side ∧ order.price = price).filter
        fun order => order.symbol = book.symbol := by
  rw [Ladder.queue, Ranked.queue, OrderBook.brought, List.filter_filter, List.filter_filter]
  refine List.filter_congr fun order _ => ?_
  rw [← Bool.decide_and, ← Bool.decide_and, decide_eq_decide]
  tauto

theorem Rearranged.book_eq {first second : List Order} (arranged : Rearranged first second)
    (distinct : (first.map Order.orderId).Nodup) {before afterFirst afterSecond : OrderBook}
    (wf : before.Wf) (firstRested : before.RestedAll first afterFirst)
    (secondRested : before.RestedAll second afterSecond) :
    (∀ side, afterFirst.levels side = afterSecond.levels side) ∧
      afterFirst.ordersIdMap = afterSecond.ordersIdMap := by
  refine ⟨fun side => firstRested.wf.levels_eq secondRested.wf
    (firstRested.symbol.trans secondRested.symbol.symm) ?_, ?_⟩
  · rw [firstRested.ladders, secondRested.ladders]
    refine Ladder.restAll_congr (wf.sorted side) fun price => ?_
    rw [queue_brought, queue_brought, arranged.2]
  · refine FlatMap.eq_of_find? fun id => ?_
    have secondDistinct : ((second.filter fun order => order.symbol = before.symbol).map
        Order.orderId).Nodup :=
      ((arranged.1.map Order.orderId).nodup_iff.mp distinct).sublist (List.filter_sublist.map _)
    rw [firstRested.index, secondRested.index, FlatMap.find?_foldl_emplace,
      FlatMap.find?_foldl_emplace, Keyed.find?_congr secondDistinct fun order => ?_]
    rw [List.mem_filter, List.mem_filter, arranged.1.mem_iff]

/-- Two orders of different sides or prices may change places. -/
theorem rearranged_swap {first second : Order}
    (other : ¬ (first.side = second.side ∧ first.price = second.price)) :
    Rearranged [first, second] [second, first] := by
  refine ⟨List.Perm.swap second first [], fun side price => ?_⟩
  by_cases own : first.side = side ∧ first.price = price
  · have away : ¬ (second.side = side ∧ second.price = price) := fun both =>
      other ⟨own.1.trans both.1.symm, own.2.trans both.2.symm⟩
    rw [List.filter_cons_of_pos (by simpa using own), List.filter_cons_of_neg (by simpa using away),
      List.filter_cons_of_neg (by simpa using away), List.filter_cons_of_pos (by simpa using own)]
  · rw [List.filter_cons_of_neg (by simpa using own), List.filter_cons,
      List.filter_cons, List.filter_cons_of_neg (by simpa using own)]

variable {symbol : String} {handlers : Handlers} {orderIds tradeIds : IdGenerator}

/-- In every reachable book, independent passive orders with distinct ids may be submitted in any
arrangement that keeps the order of arrival at each price. -/
theorem passive_orders_commute {requests : List Request} {first second : List Order}
    (passive : ((create symbol handlers orderIds tradeIds).final requests).book.Passive first)
    (distinct : (first.map Order.orderId).Nodup) (arranged : Rearranged first second) :
    (∀ side, ((create symbol handlers orderIds tradeIds).final
        (requests ++ first.map .addOrder)).book.levels side =
      ((create symbol handlers orderIds tradeIds).final
        (requests ++ second.map .addOrder)).book.levels side) ∧
    ((create symbol handlers orderIds tradeIds).final
        (requests ++ first.map .addOrder)).book.ordersIdMap =
      ((create symbol handlers orderIds tradeIds).final
        (requests ++ second.map .addOrder)).book.ordersIdMap := by
  have wf := final_wf symbol handlers orderIds tradeIds requests
  have split := Machine.final_append step (create symbol handlers orderIds tradeIds) requests
  change ∀ orders, (create symbol handlers orderIds tradeIds).final (requests ++ orders) =
    ((create symbol handlers orderIds tradeIds).final requests).final orders at split
  rw [split, split]
  generalize (create symbol handlers orderIds tradeIds).final requests = session at wf passive ⊢
  have permuted : session.book.Passive second := passive.of_perm arranged.1
  exact arranged.book_eq distinct wf (final_restedAll wf passive) (final_restedAll wf permuted)

/-- A new sell level and a new buy level, behind two resting sell orders. -/
theorem sample_commute :
    (∀ side, (sampleSession.final (sampleAsks ++
        [sampleOrder .SELL .LIMIT 9900 100000000 3,
          sampleOrder .BUY .LIMIT 9800 100000000 4].map .addOrder)).book.levels side =
      (sampleSession.final (sampleAsks ++
        [sampleOrder .BUY .LIMIT 9800 100000000 4,
          sampleOrder .SELL .LIMIT 9900 100000000 3].map .addOrder)).book.levels side) ∧
    (sampleSession.final (sampleAsks ++
        [sampleOrder .SELL .LIMIT 9900 100000000 3,
          sampleOrder .BUY .LIMIT 9800 100000000 4].map .addOrder)).book.ordersIdMap =
      (sampleSession.final (sampleAsks ++
        [sampleOrder .BUY .LIMIT 9800 100000000 4,
          sampleOrder .SELL .LIMIT 9900 100000000 3].map .addOrder)).book.ordersIdMap := by
  have buys : ∀ buy ∈ [sampleOrder .SELL .LIMIT 9900 100000000 3,
      sampleOrder .BUY .LIMIT 9800 100000000 4], buy.side = .BUY → buy.price < ⟨9900⟩ := by decide
  have sells : ∀ sell ∈ [sampleOrder .SELL .LIMIT 9900 100000000 3,
      sampleOrder .BUY .LIMIT 9800 100000000 4], sell.side = .SELL → ⟨9900⟩ ≤ sell.price := by
    decide
  have bids : ∀ buy ∈ (sampleSession.final sampleAsks).book.orders .BUY, buy.price < ⟨9900⟩ := by
    decide
  have asks : ∀ sell ∈ (sampleSession.final sampleAsks).book.orders .SELL,
      ⟨9900⟩ ≤ sell.price := by decide
  refine passive_orders_commute ⟨by decide, by decide, by decide, fun buy sell isBuy isSell => ?_⟩
    (by decide) (rearranged_swap (by decide))
  exact lt_of_lt_of_le (isBuy.elim (fun both => buys buy both.1 both.2) (bids buy))
    (isSell.elim (fun both => sells sell both.1 both.2) (asks sell))

end Session

end OrderForge
