/-
This file settles whether an accepted limit order is in the book. A level declines an
order whose id it already holds, and the call goes on as if it had not: the order comes
back open or filled in part, and its id is indexed. So an order reported as live rests
at the back of its queue exactly when no order of its price and side has its id.
-/

import OrderForge.Status

namespace OrderForge

/-- What it means that an order that came back live is in the book: it is the last of its queue,
which has grown by one. -/
structure Admitted (before after : OrderBook) (returned : Order) : Prop where
  back : ∃ resting,
    (Ladder.queue (after.orders returned.side) returned.price).getLast? = some resting ∧
      resting.orderId = returned.orderId ∧ resting.side = returned.side ∧
      resting.price = returned.price ∧ resting.remainingQty = returned.remainingQty
  grown : (Ladder.queue (after.orders returned.side) returned.price).length =
    (Ladder.queue (before.orders returned.side) returned.price).length + 1

namespace OrderBook

variable {book : OrderBook} {order : Order} {report : List Order} {outcome : Outcome}

/-- Whether no order at the price of an order has its id. -/
def IdFree (book : OrderBook) (order : Order) : Prop :=
  ∀ resting ∈ Ladder.queue (book.orders order.side) order.price, resting.orderId ≠ order.orderId

instance (book : OrderBook) (order : Order) : Decidable (book.IdFree order) :=
  inferInstanceAs (Decidable (∀ _ ∈ _, _))

theorem idFree_iff (book : OrderBook) (order : Order) :
    order.orderId ∉ (Ladder.queue (book.orders order.side) order.price).map Order.orderId ↔
      book.IdFree order := by
  rw [List.mem_map, not_exists]
  exact forall_congr' fun resting => not_and

/-- The status of an open limit order after its call. -/
theorem status_of_limit (limit : order.type = .LIMIT) (opened : order.status = .OPEN)
    (positive : 0 < order.remaining) :
    if book.FillsUp order then (book.processed order).status = .FILLED
    else (book.processed order).status = .OPEN ∨ (book.processed order).status = .PARTIAL := by
  by_cases marketable : book.Marketable order
  · rw [status_of_marketable positive marketable]
    split_ifs with fillsUp enough enough
    · rfl
    · exact absurd fillsUp.2 enough
    · exact absurd ⟨marketable, enough⟩ fillsUp
    · exact Or.inr rfl
  · rw [if_neg fun fillsUp => marketable fillsUp.1, status_of_not_marketable marketable,
      if_pos limit]
    exact Or.inl opened

/-- The queue of the price of a limit order that is not filled up. -/
theorem Executed.queue_of_limit (executed : book.Executed order report outcome) (wf : book.Wf)
    (limit : order.type = .LIMIT) (unfilled : (book.processed order).status ≠ .FILLED) :
    Ladder.queue (outcome.book.orders order.side) order.price =
      if book.IdFree order then
        Ladder.queue (book.orders order.side) order.price ++ [book.processed order]
      else Ladder.queue (book.orders order.side) order.price := by
  obtain ⟨price, id, -⟩ := book.processed_frame order
  rw [executed.own, if_pos ⟨limit, unfilled⟩, Ladder.queue_rest (wf.sorted _), price, id]
  simp only [true_and, idFree_iff]

/-- What an open limit order comes back as is in the book exactly when the order is filled up or
its id is free at its price. -/
theorem Executed.admitted_iff (executed : book.Executed order report outcome) (wf : book.Wf)
    (limit : order.type = .LIMIT) (opened : order.status = .OPEN)
    (positive : 0 < order.remaining) :
    (outcome.order.status = .OPEN ∨ outcome.order.status = .PARTIAL →
      Admitted book outcome.book outcome.order) ↔
      book.FillsUp order ∨ book.IdFree order := by
  have status := book.status_of_limit limit opened positive
  obtain ⟨-, side, price, id, -⟩ := book.afterFills_frame order
  rw [← processed_of_limit limit] at side price id
  rw [executed.result]
  split_ifs at status with fillsUp
  · refine ⟨fun _ => Or.inl fillsUp, fun _ live => ?_⟩
    rw [status] at live
    simp at live
  · have unfilled : (book.processed order).status ≠ .FILLED := by
      rcases status with same | same <;> rw [same] <;> decide
    have queue := executed.queue_of_limit wf limit unfilled
    constructor
    · intro admitted
      refine Or.inr (by_contra fun taken => ?_)
      have grown := (admitted status).grown
      rw [side, price, queue, if_neg taken] at grown
      omega
    · rintro (filled | free) -
      · exact absurd filled fillsUp
      rw [if_pos free] at queue
      refine ⟨⟨book.processed order, ?_, rfl, rfl, rfl, rfl⟩, ?_⟩
      · rw [side, price, queue]
        exact List.getLast?_concat
      · rw [side, price, queue, List.length_append, List.length_singleton]

end OrderBook

namespace Session

variable {symbol : String} {handlers : Handlers} {orderIds tradeIds : IdGenerator}

/-- In every reachable book, an open limit order that comes back live is in the book exactly when
it is filled up or no order of its price and side has its id. -/
theorem accepted_order_rests_iff {requests : List Request} {order : Order}
    (own : order.symbol = symbol) (limit : order.type = .LIMIT) (opened : order.status = .OPEN)
    (positive : 0 < order.remainingQty) :
    (∀ returned, (((create symbol handlers orderIds tradeIds).final requests).step
        (.addOrder order)).2.order = some returned →
      returned.status = .OPEN ∨ returned.status = .PARTIAL →
      Admitted ((create symbol handlers orderIds tradeIds).final requests).book
        (((create symbol handlers orderIds tradeIds).final requests).step
          (.addOrder order)).1.book returned) ↔
      ((create symbol handlers orderIds tradeIds).final requests).book.FillsUp order ∨
        ((create symbol handlers orderIds tradeIds).final requests).book.IdFree
          (((create symbol handlers orderIds tradeIds).final requests).prepared order) := by
  have wf := final_wf symbol handlers orderIds tradeIds requests
  have symbolEq := final_symbol symbol handlers orderIds tradeIds requests
  generalize (create symbol handlers orderIds tradeIds).final requests = session at wf symbolEq ⊢
  have effect := step_effect wf (.addOrder order)
  generalize session.step (.addOrder order) = result at effect ⊢
  cases effect with
  | foreign _ foreign => exact absurd (own.trans symbolEq.symm) foreign
  | executed _ _ after returned trades events executed =>
    obtain ⟨-, type, -, status⟩ := prepared_frame session order
    have some : 0 < (session.prepared order).remaining := by
      rw [prepared_remaining]
      exact Quantity.lt_iff.mp positive
    have admitted := executed.admitted_iff wf (type.trans limit) (status.trans opened) some
    have fillsUp : session.book.FillsUp (session.prepared order) ↔ session.book.FillsUp order := by
      rw [prepared_eq]
      exact Iff.rfl
    rw [← fillsUp, ← admitted]
    constructor
    · exact fun all => all returned rfl
    · rintro holds _ equal
      cases equal
      exact holds

/-- A new sell order behind two others. -/
theorem sample_accepted :
    ∃ returned, ((sampleSession.final sampleAsks).step
        (.addOrder (sampleOrder .SELL .LIMIT 10000 100000000 3))).2.order = some returned ∧
      Admitted (sampleSession.final sampleAsks).book ((sampleSession.final sampleAsks).step
        (.addOrder (sampleOrder .SELL .LIMIT 10000 100000000 3))).1.book returned := by
  have admits := (@accepted_order_rests_iff "AAPL" ⟨true, true, true, true⟩ ⟨0⟩ ⟨0⟩ sampleAsks
    (sampleOrder .SELL .LIMIT 10000 100000000 3) rfl rfl rfl (by decide)).mpr (by decide)
  exact ⟨_, rfl, admits _ rfl (Or.inl rfl)⟩

/-- A sell order with the id of one that rests at its price. -/
theorem duplicate_order_is_dropped :
    ¬ ∀ returned, ((sampleSession.final sampleAsks).step
        (.addOrder (sampleOrder .SELL .LIMIT 10000 100000000 1))).2.order = some returned →
      returned.status = .OPEN ∨ returned.status = .PARTIAL →
      Admitted (sampleSession.final sampleAsks).book ((sampleSession.final sampleAsks).step
        (.addOrder (sampleOrder .SELL .LIMIT 10000 100000000 1))).1.book returned := by
  intro admitted
  exact absurd (admitted _ rfl (Or.inl rfl)).grown (by decide)

end Session

end OrderForge
