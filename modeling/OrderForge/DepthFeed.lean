/-
This file proves that the public order book feed is complete and exact. A subscriber
replays the published updates into a view: the last total published for a side and a
price. After every call of every run the view counts, as the levels do, modulo
`2 ^ 64` the sum at each price; so it is that sum as long as the sum fits.

Nothing is assumed of the requests: updates of declined orders and of stale cancels
are as exact as the others.
-/

import OrderForge.Representation

namespace OrderForge

/-! ### The view of a subscriber -/

/-- The last total published for a side and a price, and zero when there is none. -/
abbrev DepthView := Side → Price → Quantity

/-- The view after one more update. -/
def DepthView.apply (view : DepthView) (update : PriceLevelUpdate) : DepthView :=
  fun side price =>
    if update.side = side ∧ update.price = price then update.totalQuantity else view side price

/-- The view after some updates. -/
def replay (updates : List PriceLevelUpdate) : DepthView :=
  updates.foldl DepthView.apply fun _ _ => 0

/-- The order book updates published in some calls. -/
def publishedLevels (past : List Call) : List PriceLevelUpdate :=
  past.flatMap fun call => call.output.events.filterMap Event.level?

theorem replay_publishedLevels_concat (past : List Call) (call : Call) :
    replay (publishedLevels (past ++ [call])) =
      (call.output.events.filterMap Event.level?).foldl DepthView.apply
        (replay (publishedLevels past)) := by
  rw [publishedLevels, List.flatMap_append, List.flatMap_singleton, replay, List.foldl_append]
  rfl

namespace DepthView

/-- What a view holds after some updates: what it held, or the total of one of them. -/
theorem foldl_apply (view : DepthView) (updates : List PriceLevelUpdate) (side : Side)
    (price : Price) :
    (∀ update ∈ updates, ¬ (update.side = side ∧ update.price = price)) ∧
        updates.foldl apply view side price = view side price ∨
      ∃ update ∈ updates, update.side = side ∧ update.price = price ∧
        updates.foldl apply view side price = update.totalQuantity := by
  induction updates generalizing view with
  | nil => exact Or.inl ⟨fun _ member => by (cases member), rfl⟩
  | cons head rest inductionHypothesis =>
    rw [List.foldl_cons]
    rcases inductionHypothesis (view.apply head) with ⟨absent, held⟩ | ⟨update, member, found⟩
    · rw [held, apply]
      by_cases own : head.side = side ∧ head.price = price
      · rw [if_pos own]
        exact Or.inr ⟨head, List.mem_cons_self, own.1, own.2, rfl⟩
      · rw [if_neg own]
        refine Or.inl ⟨fun update member => ?_, rfl⟩
        rcases List.mem_cons.mp member with same | behind
        · exact same ▸ own
        · exact absent update behind
    · exact Or.inr ⟨update, List.mem_cons_of_mem _ member, found⟩

/-- Whether a view counts the orders of a side. -/
def Counts (view : DepthView) (side : Side) (orders : List Order) : Prop :=
  ∀ price, Quantity.toNat (view side price) = Ladder.quantity orders price % 2 ^ 64

variable {view : DepthView} {symbol : String} {side : Side} {before after : List Order}
  {updates : List PriceLevelUpdate}

/-- The updates of an operation take the view along. -/
theorem Counts.reported (counts : view.Counts side before)
    (reported : BookSide.Reported symbol side before after updates) :
    (updates.foldl apply view).Counts side after := by
  intro price
  rcases view.foldl_apply updates side price with ⟨absent, held⟩ | ⟨update, member, -, same, held⟩
  · have queue : Ladder.queue after price = Ladder.queue before price := by
      refine reported.others price fun member => ?_
      obtain ⟨update, inUpdates, same⟩ := List.mem_map.mp member
      exact absent update inUpdates ⟨(reported.placed update inUpdates).2, same⟩
    rw [held, Ladder.quantity, queue]
    exact counts price
  · rw [held, reported.total update member, same]

/-- The updates of one side leave the other side of the view alone. -/
theorem Counts.other {orders : List Order} (counts : view.Counts side orders)
    (reported : BookSide.Reported symbol side.opposite before after updates) :
    (updates.foldl apply view).Counts side orders := by
  intro price
  rcases view.foldl_apply updates side price with ⟨-, held⟩ | ⟨update, member, same, -, -⟩
  · rw [held]
    exact counts price
  · rw [(reported.placed update member).2] at same
    exact absurd same side.opposite_ne

end DepthView

/-! ### The feed of a run -/

namespace Session

/-- The updates of a call: first those of its match, then that of the side it rests on or cancels
from. -/
theorem Effect.levels {session : Session} {request : Request} {result : Session × Response}
    (effect : session.Effect request result)
    (installed : session.book.handlers.publicOrderBookUpdate = true) :
    ∃ side passive own,
      BookSide.Reported session.book.symbol side.opposite (session.book.orders side.opposite)
        (result.1.book.orders side.opposite) passive ∧
      BookSide.Reported session.book.symbol side (session.book.orders side)
        (result.1.book.orders side) own ∧
      result.2.events.filterMap Event.level? = passive ++ own := by
  cases effect with
  | foreign order =>
    exact ⟨order.side, [], [], BookSide.Reported.silent _ _ _, BookSide.Reported.silent _ _ _, rfl⟩
  | unknown =>
    exact ⟨.BUY, [], [], BookSide.Reported.silent _ _ _, BookSide.Reported.silent _ _ _, rfl⟩
  | removed _ helper after _ _ removed =>
    obtain ⟨update, reported, feed⟩ := removed.levelFeed
    refine ⟨helper.side, [], [update], ?_, reported, feed.trans (if_pos installed)⟩
    have other : after.book.orders helper.side.opposite = _ := removed.other
    rw [other]
    exact BookSide.Reported.silent _ _ _
  | executed order _ _ _ _ _ executed =>
    obtain ⟨passive, own, passiveReported, ownReported, feed⟩ := executed.levelFeed
    exact ⟨(session.prepared order).side, passive, own, passiveReported, ownReported,
      feed.trans (if_pos installed)⟩

/-- Replaying the updates of a call takes a view that counts the book to one that counts the book
afterwards. -/
theorem Effect.counts {session : Session} {request : Request} {result : Session × Response}
    (effect : session.Effect request result)
    (installed : session.book.handlers.publicOrderBookUpdate = true) {view : DepthView}
    (counts : ∀ side, view.Counts side (session.book.orders side)) :
    ∀ side, ((result.2.events.filterMap Event.level?).foldl DepthView.apply view).Counts side
      (result.1.book.orders side) := by
  obtain ⟨own, passiveUpdates, ownUpdates, passive, reported, feed⟩ := effect.levels installed
  intro side
  rw [feed, List.foldl_append]
  rcases Side.eq_or_eq_opposite side own with same | same
  · rw [same]
    exact ((counts own).other passive).reported reported
  · rw [same]
    rw [← own.opposite_opposite] at reported
    exact ((counts own.opposite).reported passive).other reported

variable {symbol : String} {handlers : Handlers} {orderIds tradeIds : IdGenerator}

/-- In every run the replayed feed counts, modulo `2 ^ 64`, the sum at each price. -/
theorem run_counts (installed : handlers.publicOrderBookUpdate = true) (requests : List Request) :
    ∀ side,
      (replay (publishedLevels ((create symbol handlers orderIds tradeIds).run requests))).Counts
        side (((create symbol handlers orderIds tradeIds).final requests).book.orders side) := by
  refine run_induction
    (motive := fun past session => ∀ side,
      (replay (publishedLevels past)).Counts side (session.book.orders side))
    ?_ ?_ requests fun call member => (call_before member).2
  · intro side price
    cases side <;> rfl
  · intro past session request result _ counts effect handlersEq
    rw [replay_publishedLevels_concat]
    exact effect.counts (handlersEq ▸ installed) counts

/-- The depth feed is complete and exact: with the order book handler installed, after every run
in which the sum at each price fits, the replayed feed gives for every side and price the sum
of the remaining quantities that rest there. -/
theorem depth_feed_exact (installed : handlers.publicOrderBookUpdate = true)
    {requests : List Request}
    (bounded : ((create symbol handlers orderIds tradeIds).final requests).book.Bounded)
    (side : Side) (price : Price) :
    Quantity.toNat
        (replay (publishedLevels ((create symbol handlers orderIds tradeIds).run requests)) side
          price) =
      Ladder.quantity (((create symbol handlers orderIds tradeIds).final requests).book.orders side)
        price := by
  rw [run_counts installed requests side price, Nat.mod_eq_of_lt (bounded side price)]

/-- Half of the second sell order is left, and the feed says so. -/
theorem sample_depth_feed :
    Quantity.toNat (replay (publishedLevels (sampleSession.run sampleFills)) .SELL ⟨10000⟩) =
        Ladder.quantity ((sampleSession.final sampleFills).book.orders .SELL) ⟨10000⟩ ∧
      Ladder.quantity ((sampleSession.final sampleFills).book.orders .SELL) ⟨10000⟩ =
        50000000 := by
  refine ⟨depth_feed_exact rfl (OrderBook.bounded_of_total fun side => ?_) .SELL ⟨10000⟩,
    by decide⟩
  cases side <;> decide

end Session

end OrderForge
