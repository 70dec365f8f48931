/-
This file states what is true of every order book at any time, and sees the book as
two ladders and an index. `orders` are the orders resting on a side, best first;
the price relation of a side says which of two prices a match visits first.

A call matches its order first when the order is `Marketable`; the order then takes
its `fills` from the opposite ladder.
-/

import OrderForge.OrderBook
import OrderForge.SideServe

namespace OrderForge

/-! ### The two price relations -/

/-- Whether a price of a side is visited before another one. -/
def Side.Better : Side → Price → Price → Prop
  | .BUY, first, second => first > second
  | .SELL, first, second => first < second

instance (side : Side) : DecidableRel side.Better := fun first second =>
  match side with
  | .BUY => inferInstanceAs (Decidable (first > second))
  | .SELL => inferInstanceAs (Decidable (first < second))

instance (side : Side) : IsStrictTotalOrder Price side.Better :=
  match side with
  | .BUY => inferInstanceAs (IsStrictTotalOrder Price (· > ·))
  | .SELL => inferInstanceAs (IsStrictTotalOrder Price (· < ·))

/-- A price at which a crossing order of the given limit may trade. -/
def Order.accepts (order : Order) (price : Price) : Prop :=
  match order.side with
  | .BUY => price ≤ order.price
  | .SELL => order.price ≤ price

instance (order : Order) : DecidablePred order.accepts := fun price => by
  unfold Order.accepts
  cases order.side <;> infer_instance

/-- A price is accepted unless the limit is better than it, seen from the passive side. -/
theorem Order.accepts_iff (order : Order) (price : Price) :
    order.accepts price ↔ ¬ order.side.opposite.Better order.price price := by
  unfold Order.accepts
  cases order.side
  · exact not_lt.symm
  · exact not_lt.symm

/-- An order that accepts a price accepts every better one. -/
theorem Order.accepts_of_not_better {order : Order} {price other : Price}
    (accepted : order.accepts price) (notBetter : ¬ order.side.opposite.Better price other) :
    order.accepts other := by
  unfold Order.accepts at accepted ⊢
  cases side : order.side with
  | BUY =>
    rw [side] at accepted notBetter
    exact (not_lt.mp notBetter).trans accepted
  | SELL =>
    rw [side] at accepted notBetter
    exact accepted.trans (not_lt.mp notBetter)

namespace BookSide

variable {CompFunc : Price → Price → Prop} {symbol : String} {side : Side}
  {bookSide : BookSide CompFunc}

/-- The best price is the price of the first order. -/
theorem bestPrice_eq (wf : bookSide.Wf symbol side) :
    bookSide.bestPrice = bookSide.orders.head?.map Order.price := by
  rw [bestPrice, OrderBookDataMap.bestPrice, FlatMap.begin?, orders]
  have levels := wf.levels
  have populated := wf.populated
  cases entries : bookSide.levels.bookCont.entries with
  | nil => rfl
  | cons entry rest =>
    rw [entries] at levels populated
    obtain ⟨first, others, queue⟩ := List.exists_cons_of_ne_nil (populated entry List.mem_cons_self)
    have price := (levels.head.placed first (queue ▸ List.mem_cons_self)).2.2.1
    rw [ordersOf_cons, queue, List.cons_append, List.head?_cons, List.head?_cons, Option.map_some,
      Option.map_some, price]

theorem empty_iff (wf : bookSide.Wf symbol side) :
    bookSide.empty = true ↔ bookSide.orders = [] := by
  rw [empty, OrderBookDataMap.empty, FlatMap.isEmpty, List.isEmpty_iff, orders]
  constructor
  · intro none
    rw [none]
    rfl
  · intro none
    refine List.eq_nil_iff_forall_not_mem.mpr fun entry member => ?_
    obtain ⟨order, inLevel⟩ := List.exists_mem_of_ne_nil _ (wf.populated entry member)
    have resting := mem_ordersOf.mpr ⟨entry, member, inLevel⟩
    rw [none] at resting
    cases resting

end BookSide

namespace OrderBook

/-- The orders resting on a side, in the order in which a match visits them. -/
def orders (book : OrderBook) : Side → List Order
  | .BUY => book.bids.orders
  | .SELL => book.asks.orders

/-- What holds of an order book at any time. -/
structure Wf (book : OrderBook) : Prop where
  bids : book.bids.Wf book.symbol .BUY
  asks : book.asks.Wf book.symbol .SELL
  indexed : ∀ entry ∈ book.ordersIdMap.entries, entry.2.orderId = entry.1

theorem create_wf (symbol : String) (handlers : Handlers) : (create symbol handlers).Wf where
  bids := BookSide.create_wf symbol .BUY
  asks := BookSide.create_wf symbol .SELL
  indexed _ member := by cases member

namespace Wf

variable {book : OrderBook}

theorem sorted (wf : book.Wf) (side : Side) :
    Ranked.Sorted side.Better Order.price (book.orders side) := by
  cases side with
  | BUY => exact wf.bids.sorted
  | SELL => exact wf.asks.sorted

theorem placed (wf : book.Wf) {side : Side} {order : Order} (member : order ∈ book.orders side) :
    order.symbol = book.symbol ∧ order.side = side ∧ order.type = .LIMIT ∧
      order.status ≠ .FILLED := by
  cases side with
  | BUY => exact wf.bids.placed member
  | SELL => exact wf.asks.placed member

theorem nodup_orderIds (wf : book.Wf) (side : Side) (price : Price) :
    ((Ladder.queue (book.orders side) price).map Order.orderId).Nodup := by
  cases side with
  | BUY => exact wf.bids.nodup_orderIds price
  | SELL => exact wf.asks.nodup_orderIds price

end Wf

/-! ### When a crossing order is matched -/

/-- Whether a call matches the order before anything else. -/
def Marketable (book : OrderBook) (order : Order) : Prop :=
  match order.type with
  | .MARKET => book.orders order.side.opposite ≠ []
  | _ => ∃ passive ∈ book.orders order.side.opposite, order.accepts passive.price

instance (book : OrderBook) (order : Order) : Decidable (book.Marketable order) := by
  unfold Marketable
  cases order.type <;> infer_instance

/-- What a call asks of the opposite side. -/
def demand (book : OrderBook) (order : Order) : Nat :=
  if book.Marketable order then order.remaining else 0

/-- What each visited passive order gives to a crossing order. -/
def fills (book : OrderBook) (order : Order) : List (Order × Nat) :=
  Greedy.taken Order.remaining (book.demand order) (book.orders order.side.opposite)

theorem mem_head_accepts {order : Order} {orders : List Order}
    (sorted : Ranked.Sorted order.side.opposite.Better Order.price orders) :
    (∃ passive ∈ orders, order.accepts passive.price) ↔
      ∃ best, orders.head? = some best ∧ order.accepts best.price := by
  cases orders with
  | nil => simp
  | cons best rest =>
    constructor
    · rintro ⟨passive, member, accepted⟩
      refine ⟨best, rfl, ?_⟩
      rcases List.mem_cons.mp member with same | behind
      · exact same ▸ accepted
      · exact Order.accepts_of_not_better accepted
          ((List.pairwise_cons.mp sorted).1 passive behind)
    · rintro ⟨other, same, accepted⟩
      cases same
      exact ⟨best, List.mem_cons_self, accepted⟩

theorem isCrossingOrder_iff {book : OrderBook} (wf : book.Wf) (order : Order) :
    book.isCrossingOrder order = true ↔
      ∃ passive ∈ book.orders order.side.opposite, order.accepts passive.price := by
  rw [mem_head_accepts (wf.sorted _)]
  unfold isCrossingOrder Order.isBuy Order.accepts
  cases order.side with
  | BUY =>
    rw [if_pos (by rfl), BookSide.bestPrice_eq wf.asks]
    show _ ↔ ∃ best, book.asks.orders.head? = some best ∧ _
    cases book.asks.orders.head? <;> simp
  | SELL =>
    rw [if_neg (by decide), BookSide.bestPrice_eq wf.bids]
    show _ ↔ ∃ best, book.bids.orders.head? = some best ∧ _
    cases book.bids.orders.head? <;> simp

end OrderBook

end OrderForge
