/-
This file proves that no reachable book is crossed. What is left of a limit order
comes to rest without a second look at the opposite side. But a sweep does not stop
at the limit: a match that leaves something over has used up the whole opposite
side. So every resting buy price stays below every resting sell price.
-/

import OrderForge.Vanish

namespace OrderForge

theorem Side.better_opposite (side : Side) (first second : Price) :
    side.opposite.Better first second ↔ side.Better second first := by
  cases side <;> rfl

namespace OrderBook

variable {book : OrderBook} {order : Order}

/-- Whether no price of a side reaches a price of the opposite side. -/
def Apart (book : OrderBook) (side : Side) : Prop :=
  ∀ resting ∈ book.orders side, ∀ other ∈ book.orders side.opposite,
    side.opposite.Better resting.price other.price

/-- Sides that are apart are so from either side. -/
theorem Apart.seen_from {side : Side} (apart : book.Apart side) (other : Side) :
    book.Apart other := by
  rcases Side.eq_or_eq_opposite other side with same | same
  · exact same ▸ apart
  · subst same
    intro resting member passive inBook
    rw [Side.opposite_opposite] at inBook ⊢
    exact (side.better_opposite _ _).mp (apart passive inBook resting member)

/-- A book that is not crossed: a side is empty or the best bid is below the best ask, and every
resting buy order is priced below every resting sell order. -/
structure Uncrossed (book : OrderBook) : Prop where
  best : book.bids.empty = true ∨ book.asks.empty = true ∨
    ∃ bid ask, book.bids.bestPrice = some bid ∧ book.asks.bestPrice = some ask ∧ bid < ask
  orders : ∀ bid ∈ book.orders .BUY, ∀ ask ∈ book.orders .SELL, bid.price < ask.price

theorem Apart.uncrossed (wf : book.Wf) (apart : book.Apart .BUY) : book.Uncrossed where
  best := by
    rw [BookSide.empty_iff wf.bids, BookSide.empty_iff wf.asks, BookSide.bestPrice_eq wf.bids,
      BookSide.bestPrice_eq wf.asks]
    cases bids : book.bids.orders with
    | nil => exact Or.inl rfl
    | cons bid _ =>
      cases asks : book.asks.orders with
      | nil => exact Or.inr (Or.inl rfl)
      | cons ask _ =>
        have inBids : bid ∈ book.bids.orders := bids ▸ List.mem_cons_self
        have inAsks : ask ∈ book.asks.orders := asks ▸ List.mem_cons_self
        exact Or.inr (Or.inr ⟨bid.price, ask.price, rfl, rfl, apart bid inBids ask inAsks⟩)
  orders := apart

/-! ### One call -/

/-- An order that comes to rest does not reach what its match left of the opposite side. -/
theorem rests_apart (positive : 0 < order.remaining) (rests : book.Rests order) {other : Order}
    (member : other ∈ Ladder.serve order.side.opposite.Better (book.demand order)
      (book.orders order.side.opposite)) :
    order.side.opposite.Better (book.processed order).price other.price := by
  rw [(book.processed_frame order).1]
  by_contra notBetter
  have accepted := (order.accepts_iff other.price).mpr notBetter
  have marketable : book.Marketable order := by
    rw [Marketable, rests.1]
    rcases Ladder.mem_serve member with old | ⟨origin, inBook, amount, -, -, rfl⟩
    · exact ⟨other, old, accepted⟩
    · exact ⟨origin, inBook, accepted⟩
  have less := sum_fills_lt positive rests
  rw [sum_fills, demand_of_marketable marketable] at less
  have usedUp : Ladder.serve order.side.opposite.Better (book.demand order)
      (book.orders order.side.opposite) = [] := by
    rw [Ladder.serve, demand_of_marketable marketable, Greedy.left_eq_nil Order.remaining Order.cut]
    · rfl
    · omega
  rw [usedUp] at member
  cases member

theorem Executed.apart {report : List Order} {outcome : Outcome}
    (executed : book.Executed order report outcome) (positive : 0 < order.remaining)
    (apart : book.Apart order.side) : outcome.book.Apart order.side := by
  intro resting member other inBook
  rw [executed.passive] at inBook
  have old : ∀ before ∈ book.orders order.side,
      order.side.opposite.Better before.price other.price := by
    intro before inOwn
    rcases Ladder.mem_serve inBook with untouched | ⟨origin, inPassive, amount, -, -, rfl⟩
    · exact apart before inOwn other untouched
    · exact apart before inOwn origin inPassive
  rw [executed.own] at member
  split_ifs at member with rests
  · rcases Ladder.mem_rest member with new | before
    · rw [new]
      exact rests_apart positive rests inBook
    · exact old resting before
  · exact old resting member

end OrderBook

namespace Session

theorem Effect.apart {session : Session} {request : Request} {result : Session × Response}
    (effect : session.Effect request result) (allowed : request.Positive)
    (apart : session.book.Apart .BUY) : result.1.book.Apart .BUY := by
  cases effect with
  | foreign => exact apart
  | unknown => exact apart
  | removed _ _ _ _ _ removed =>
    exact fun resting member other inBook =>
      apart resting (removed.mem_before member) other (removed.mem_before inBook)
  | executed order _ _ _ _ _ executed =>
    have positive : 0 < (session.prepared order).remaining := by
      rw [prepared_remaining]
      exact Quantity.lt_iff.mp allowed
    exact (executed.apart positive (apart.seen_from _)).seen_from .BUY

variable {symbol : String} {handlers : Handlers} {orderIds tradeIds : IdGenerator}

theorem final_apart {requests : List Request}
    (positive : ∀ request ∈ requests, request.Positive) :
    ((create symbol handlers orderIds tradeIds).final requests).book.Apart .BUY := by
  refine run_induction (motive := fun _ session => session.book.Apart .BUY) ?_ ?_ requests
    fun call member => positive _ (call_effect member).2.1
  · intro resting member
    cases member
  · exact fun past session request result wf apart effect allowed => effect.apart allowed apart

/-- In every run of positive orders, no call leaves the book crossed. -/
theorem run_uncrossed {requests : List Request}
    (positive : ∀ request ∈ requests, request.Positive) :
    ∀ call ∈ (create symbol handlers orderIds tradeIds).run requests,
      call.after.book.Uncrossed := by
  intro call member
  obtain ⟨wf, allowed, effect⟩ := call_effect member
  obtain ⟨front, back, requestsEq, callEq⟩ := Machine.mem_run step member
  refine (effect.apart (positive _ allowed) ?_).uncrossed (effect.wf wf)
  rw [callEq]
  exact final_apart fun request inFront =>
    positive request (requestsEq ▸ List.mem_append_left _ inFront)

/-- A buy order beyond the best ask takes part of what rests there. -/
theorem sample_uncrossed :
    ∃ call ∈ sampleSession.run sampleFills,
      call.output.trades ≠ [] ∧ call.after.book.Uncrossed := by
  have uncrossed : ∀ call ∈ sampleSession.run sampleFills, call.after.book.Uncrossed :=
    run_uncrossed (by decide)
  have last : Machine.transition step (sampleSession.final sampleAsks)
      (.addOrder (sampleOrder .BUY .LIMIT 10500 150000000 3)) ∈ sampleSession.run sampleFills :=
    List.mem_cons_of_mem _ (List.mem_cons_of_mem _ List.mem_cons_self)
  exact ⟨_, last, by decide, uncrossed _ last⟩

end Session

end OrderForge
