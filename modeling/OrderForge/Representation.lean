/-
This file proves the representation invariant of the book: for orders submitted
with a positive quantity, whole and open, every level of a reachable book is under
its own price, is not empty, holds live orders of its own side and price under
distinct ids, has nothing left to unlink, and counts exactly as long as the sum at
its price fits into the counter.
-/

import OrderForge.SessionInvariant

namespace OrderForge

/-! ### Live orders -/

/-- An order as it is submitted: open, with all of a positive quantity left. -/
structure Order.New (order : Order) : Prop where
  positive : 0 < order.qty
  whole : order.remainingQty = order.qty
  status : order.status = .OPEN

instance : DecidablePred Order.New := fun order =>
  decidable_of_iff (0 < order.qty ∧ order.remainingQty = order.qty ∧ order.status = .OPEN)
    ⟨fun all => ⟨all.1, all.2.1, all.2.2⟩, fun new => ⟨new.positive, new.whole, new.status⟩⟩

/-- A request that submits nothing but new orders. -/
def Request.New : Request → Prop
  | .addOrder order => order.New
  | .removeOrder _ => True

instance : DecidablePred Request.New
  | .addOrder order => inferInstanceAs (Decidable order.New)
  | .removeOrder _ => inferInstanceAs (Decidable True)

/-- A resting order: something is left, and the status says whether that is everything. -/
structure Order.Live (order : Order) : Prop where
  positive : 0 < order.remaining
  within : order.remaining ≤ Quantity.toNat order.qty
  status : order.status = if order.remainingQty = order.qty then .OPEN else .PARTIAL

namespace Order

variable {order : Order}

theorem New.live (new : order.New) : order.Live where
  positive := by
    rw [remaining, new.whole]
    exact Quantity.lt_iff.mp new.positive
  within := by
    rw [remaining, new.whole]
  status := by rw [if_pos new.whole, new.status]

/-- Cutting a live order by less than it has leaves a live order. -/
theorem Live.cut (live : order.Live) {amount : Nat} (some : 0 < amount)
    (less : amount < order.remaining) : (order.cut amount).Live := by
  have left := order.remaining_cut amount less.le
  have within : order.remaining - amount < Quantity.toNat order.qty := by
    have bound := live.within
    omega
  refine ⟨?_, ?_, ?_⟩
  · rw [left]
    omega
  · rw [left]
    exact within.le
  · rw [order.status_cut amount less.le, if_neg less.ne', if_neg]
    intro whole
    have same : (order.cut amount).remaining = Quantity.toNat order.qty := congrArg _ whole
    omega

end Order

namespace OrderBook

variable {book : OrderBook} {order : Order}

/-- Fills take something when the passive orders have something left. -/
theorem sum_fills_pos (live : ∀ passive ∈ book.orders order.side.opposite, passive.Live)
    (some : book.fills order ≠ []) : 0 < ((book.fills order).map Prod.snd).sum := by
  rw [fills, Ne, Greedy.taken_eq_nil, not_or] at some
  obtain ⟨passive, member⟩ := List.exists_mem_of_ne_nil _ some.2
  have weight := Greedy.weight_le_total Order.remaining member
  have positive := (live passive member).positive
  rw [sum_fills]
  omega

/-- What is left of a new order when it comes to rest is live. -/
theorem processed_live (live : ∀ passive ∈ book.orders order.side.opposite, passive.Live)
    (new : order.New) (rests : book.Rests order) : (book.processed order).Live := by
  have less := sum_fills_lt new.live.positive rests
  rw [processed_of_limit rests.1, afterFills]
  by_cases none : book.fills order = []
  · rw [if_pos none]
    exact new.live
  · rw [if_neg none]
    exact new.live.cut (sum_fills_pos live none) less

end OrderBook

/-! ### Levels -/

/-- The levels of a side under their prices. -/
def OrderBook.levels (book : OrderBook) : Side → List (Price × PriceLevel)
  | .BUY => book.bids.levels.bookCont.entries
  | .SELL => book.asks.levels.bookCont.entries

/-- The exact sum at every price fits into a counter. -/
def OrderBook.Bounded (book : OrderBook) : Prop :=
  ∀ side price, Ladder.quantity (book.orders side) price < 2 ^ 64

/-- The sums at all prices fit when the sum of a whole side does. -/
theorem OrderBook.bounded_of_total {book : OrderBook}
    (fits : ∀ side, Greedy.total Order.remaining (book.orders side) < 2 ^ 64) : book.Bounded :=
  fun side _ => Nat.lt_of_le_of_lt (Greedy.total_le_of_sublist _ List.filter_sublist) (fits side)

/-- The representation of a level that is stored on a side under a price. -/
structure PriceLevel.Represented (side : Side) (price : Price) (level : PriceLevel) : Prop where
  own : level.side = side ∧ level.price = price
  nonempty : level.orders ≠ []
  placed : ∀ order ∈ level.orders, order.side = side ∧ order.price = price
  live : ∀ order ∈ level.orders, 0 < order.remainingQty ∧
    order.status = if order.remainingQty = order.qty then .OPEN else .PARTIAL
  distinct : (level.orders.map Order.orderId).Nodup
  total : Quantity.toNat level.totalQty = (level.orders.map Order.remaining).sum
  unlinked : level.ordersToBeRemoved = []

theorem BookSide.represented {CompFunc : Price → Price → Prop}
    [IsStrictTotalOrder Price CompFunc] {bookSide : BookSide CompFunc} {symbol : String}
    {side : Side} (wf : bookSide.Wf symbol side)
    (live : ∀ order ∈ bookSide.orders, order.Live)
    (bounded : ∀ price, Ladder.quantity bookSide.orders price < 2 ^ 64)
    {entry : Price × PriceLevel} (member : entry ∈ bookSide.levels.bookCont.entries) :
    entry.2.Represented side entry.1 := by
  have level := wf.levels entry member
  have fits := bounded entry.1
  rw [Ladder.quantity, BookSide.orders,
    wf.levels.queue_eq bookSide.levels.bookCont.nodup_keys member] at fits
  refine ⟨⟨level.side_eq, level.price_eq⟩, wf.populated entry member, fun order inLevel => ?_,
    fun order inLevel => ?_, level.nodup_orderIds, level.totalQty_eq fits, level.unmarked⟩
  · obtain ⟨-, ownSide, ownPrice, -⟩ := level.placed order inLevel
    exact ⟨ownSide, ownPrice⟩
  · have alive := live order (BookSide.mem_ordersOf.mpr ⟨entry, member, inLevel⟩)
    exact ⟨Quantity.lt_iff.mpr alive.positive, alive.status⟩

namespace Session

variable {symbol : String} {handlers : Handlers} {orderIds tradeIds : IdGenerator}

theorem prepared_new {session : Session} {order : Order} (new : order.New) :
    (session.prepared order).New := by
  rw [prepared_eq]
  exact ⟨new.positive, new.whole, new.status⟩

/-- Every order resting in a book that was given nothing but new orders is live. -/
theorem final_live {requests : List Request} (new : ∀ request ∈ requests, request.New) :
    ∀ side, ∀ order ∈ ((create symbol handlers orderIds tradeIds).final requests).book.orders side,
      order.Live := by
  refine run_induction
    (motive := fun _ session => ∀ side, ∀ order ∈ session.book.orders side, order.Live)
    ?_ ?_ requests fun call member => new _ (call_effect member).2.1
  · intro side order member
    cases side <;> cases member
  · intro past session request result wf live effect allowed side order member
    rcases effect.origin member with old | ⟨origin, inBook, amount, some, less, rfl⟩ |
      ⟨brought, rfl, -, rests, rfl, rfl⟩
    · exact live side order old
    · exact (live side origin inBook).cut some less
    · exact OrderBook.processed_live (fun passive => live _ passive) (prepared_new allowed) rests

/-- The representation invariant: after every run of new orders and cancels, every level of the
book is represented as long as the sum at each price fits. -/
theorem final_represented {requests : List Request} (new : ∀ request ∈ requests, request.New)
    (bounded : ((create symbol handlers orderIds tradeIds).final requests).book.Bounded) :
    ∀ side, ∀ entry ∈
      ((create symbol handlers orderIds tradeIds).final requests).book.levels side,
      entry.2.Represented side entry.1 := by
  have wf := final_wf symbol handlers orderIds tradeIds requests
  have live := @final_live symbol handlers orderIds tradeIds requests new
  intro side entry member
  cases side with
  | BUY => exact BookSide.represented wf.bids (live .BUY) (bounded .BUY) member
  | SELL => exact BookSide.represented wf.asks (live .SELL) (bounded .SELL) member

theorem sample_represented :
    ∃ entry ∈ (sampleSession.final sampleFills).book.levels .SELL,
      entry.2.Represented .SELL entry.1 := by
  have bounded : (sampleSession.final sampleFills).book.Bounded :=
    OrderBook.bounded_of_total fun side => by cases side <;> decide
  exact ⟨_, List.mem_cons_self,
    final_represented (by decide) bounded .SELL _ List.mem_cons_self⟩

end Session

end OrderForge
