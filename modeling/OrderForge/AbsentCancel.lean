/-
This file proves that cancelling an order that is not resting leaves the book alone.
The id index outlives the orders: the entry of a filled order still names its old
price, where the cancel creates a level or finds one that other orders use by now.
No order there has the id, so the queue keeps all of its orders; and as long as the
sum at the price fits into the counter, the level is erased exactly when it is empty.
-/

import OrderForge.Canonical
import OrderForge.Ledger

namespace OrderForge

namespace Ladder

/-- Nothing is taken out under an id that no order has. -/
theorem without_of_absent {orders : List Order} {id : OrderId}
    (absent : ∀ resting ∈ orders, resting.orderId ≠ id) (price : Price) :
    without price id orders = orders :=
  List.filter_eq_self.mpr fun resting member =>
    decide_eq_true fun both => absent resting member both.2

end Ladder

namespace OrderBook

variable {book : OrderBook} {id : OrderId} {helper : FindOrderHelper}

/-- A cancel of an absent order that no counter wraps in keeps both ladders. -/
theorem Removed.orders_of_absent {result : OrderBook × List Event}
    (removed : book.Removed helper result)
    (absent : book.Absent helper.orderId)
    (fits : Ladder.queue (Ladder.without helper.price helper.orderId (book.orders helper.side))
        helper.price = [] ∨
      Ladder.quantity (Ladder.without helper.price helper.orderId (book.orders helper.side))
        helper.price % 2 ^ 64 ≠ 0) (side : Side) :
    result.1.orders side = book.orders side := by
  rcases Side.eq_or_eq_opposite side helper.side with same | same
  · rw [same, removed.own, Ladder.cancel, Ladder.prune_eq_self fits,
      Ladder.without_of_absent (absent helper.side)]
  · rw [same, removed.other]

end OrderBook

namespace Session

/-- What a call leaves as it was: the levels of both sides, with their queues and totals. -/
def KeepsLevels (call : Call) : Prop :=
  ∀ side, call.after.book.levels side = call.before.book.levels side

/-- Whether every level update of a call states the exact sum at its side and price. -/
def StatesTotals (call : Call) : Prop :=
  ∀ update ∈ call.output.events.filterMap Event.level?,
    update.symbol = call.after.book.symbol ∧
      Quantity.toNat update.totalQuantity =
        Ladder.quantity (call.after.book.orders update.side) update.price

variable {session : Session} {id : OrderId}

theorem Effect.absent_cancel {result : Session × Response}
    (effect : session.Effect (.removeOrder id) result) (wf : session.book.Wf)
    (positive : ∀ side, ∀ resting ∈ session.book.orders side, 0 < resting.remaining)
    (bounded : session.book.Bounded) (absent : session.book.Absent id) :
    KeepsLevels ⟨session, .removeOrder id, result.2, result.1⟩ ∧
      StatesTotals ⟨session, .removeOrder id, result.2, result.1⟩ := by
  cases effect with
  | unknown => exact ⟨fun _ => rfl, fun _ member => by cases member⟩
  | removed _ helper after events found removed =>
    have unwrapped := (OrderBook.cancelUnwrapped_iff found).mp
      (bounded.cancelUnwrapped positive id)
    rw [← wf.index_orderId found] at absent unwrapped
    have kept := removed.orders_of_absent absent unwrapped
    refine ⟨fun side => removed.wf.levels_eq wf removed.symbol (kept side), ?_⟩
    obtain ⟨update, reported, feed⟩ := removed.levelFeed
    intro published member
    change published ∈ events.filterMap Event.level? at member
    rw [feed] at member
    split_ifs at member with installed
    · rw [List.mem_singleton] at member
      subst member
      obtain ⟨symbol, side⟩ := reported.placed published List.mem_cons_self
      refine ⟨symbol.trans removed.symbol.symm, ?_⟩
      have total := reported.total published List.mem_cons_self
      rw [kept, Nat.mod_eq_of_lt (bounded helper.side published.price)] at total
      rw [side]
      exact total.trans (congrArg (Ladder.quantity · published.price) (kept helper.side).symm)
    · cases member

variable {symbol : String} {handlers : Handlers} {orderIds tradeIds : IdGenerator}

/-- Cancelling an order that is not resting: in every book that positive orders and cancels lead
to and whose sums fit, cancelling an id that no resting order carries keeps every level, and
what it publishes states true totals. -/
theorem absent_cancel_keeps_levels {requests : List Request}
    (positive : ∀ request ∈ requests, request.Positive)
    (bounded : ((create symbol handlers orderIds tradeIds).final requests).book.Bounded)
    {id : OrderId}
    (absent : ((create symbol handlers orderIds tradeIds).final requests).book.Absent id) :
    KeepsLevels (Machine.transition step
        ((create symbol handlers orderIds tradeIds).final requests) (.removeOrder id)) ∧
      StatesTotals (Machine.transition step
        ((create symbol handlers orderIds tradeIds).final requests) (.removeOrder id)) :=
  have wf := final_wf symbol handlers orderIds tradeIds requests
  (step_effect wf (.removeOrder id)).absent_cancel wf (final_positive positive) bounded absent

/-- The index still has the first sell order when it has been filled. -/
theorem sample_absent_cancel :
    KeepsLevels (Machine.transition step (sampleSession.final sampleFills) (.removeOrder 1)) ∧
      StatesTotals
        (Machine.transition step (sampleSession.final sampleFills) (.removeOrder 1)) := by
  refine absent_cancel_keeps_levels (by decide) (OrderBook.bounded_of_total fun side => ?_)
    fun side => ?_
  · cases side <;> decide
  · cases side <;> decide

end Session

end OrderForge
