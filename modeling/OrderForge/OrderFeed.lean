/-
This file proves that the private order feed is accurate for live orders. In a run
with distinct ids the latest update of a resting order is the order as it rests. The
updates under one id lose quantity from each to the next, and none follows one with
the status `FILLED`. One call reports every order at most once.

Counters may wrap: an order that vanishes from the book is never reported again.
-/

import OrderForge.History
import OrderForge.Identity

namespace OrderForge

/-- The order updates published in some calls. -/
def publishedOrders (past : List Call) : List Order :=
  past.flatMap fun call => call.output.events.filterMap Event.order?

theorem publishedOrders_concat (past : List Call) (call : Call) :
    publishedOrders (past ++ [call]) =
      publishedOrders past ++ call.output.events.filterMap Event.order? := by
  rw [publishedOrders, List.flatMap_append, List.flatMap_singleton]
  rfl

/-- The latest update of an id. -/
def latestUpdate (updates : List Order) (id : OrderId) : Option Order :=
  History.latest Order.orderId updates id

theorem latestUpdate_append (first second : List Order) (id : OrderId) :
    latestUpdate (first ++ second) id = (latestUpdate second id).or (latestUpdate first id) :=
  History.latest_append _ _ _

/-- How an update of an order may be followed by another one. -/
def Order.Declines (first second : Order) : Prop :=
  second.remaining < first.remaining ∧ first.status ≠ .FILLED

instance : IsTrans Order Order.Declines where
  trans _ _ _ earlier later := ⟨later.1.trans earlier.1, earlier.2⟩

/-! ### The updates of one call -/

namespace OrderBook

variable {book : OrderBook} {order resting : Order}

/-- What a call that executes an order reports: the orders it takes from, and the order. -/
def updates (book : OrderBook) (order : Order) : List Order :=
  ((book.fills order).map fun gave => gave.1.cut gave.2) ++ [book.processed order]

/-- What an order gives, it gives at once. -/
theorem mem_fills (unique : book.UniqueIds)
    (positive : ∀ side, ∀ resting ∈ book.orders side, 0 < resting.remaining) {gave : Order × Nat}
    (member : gave ∈ book.fills order) :
    gave.1 ∈ book.orders order.side.opposite ∧ 0 < gave.2 ∧
      gave.2 = book.given order gave.1 := by
  have inBook := Greedy.mem_of_taken Order.remaining member
  have single := fills_of_id unique inBook (positive _ gave.1 inBook)
  have own : gave ∈ (book.fills order).filter fun other => other.1.orderId = gave.1.orderId :=
    List.mem_filter.mpr ⟨member, decide_eq_true rfl⟩
  rw [single] at own
  split_ifs at own with none
  · cases own
  · have amount : gave.2 = book.given order gave.1 := congrArg Prod.snd (List.mem_singleton.mp own)
    exact ⟨inBook, amount ▸ Nat.pos_of_ne_zero none, amount⟩

/-- A call reports every order at most once. -/
theorem nodup_updates (unique : book.UniqueIds)
    (new : book.Absent order.orderId) :
    ((book.updates order).map Order.orderId).Nodup := by
  have passive : ((book.fills order).map fun gave => gave.1.cut gave.2).map Order.orderId =
      ((book.fills order).map Prod.fst).map Order.orderId := by
    rw [List.map_map, List.map_map]
    rfl
  rw [updates, List.map_append, passive]
  refine List.nodup_append.mpr ⟨?_, List.nodup_singleton _, ?_⟩
  · exact (unique.nodup order.side.opposite).sublist
      ((Greedy.taken_sublist Order.remaining _ _).map Order.orderId)
  · intro id member other last same
    obtain ⟨taken, inFills, rfl⟩ := List.mem_map.mp member
    obtain ⟨gave, inTaken, rfl⟩ := List.mem_map.mp inFills
    rw [List.mem_singleton.mp last, processed_orderId] at same
    exact new _ gave.1 (Greedy.mem_of_taken Order.remaining inTaken) same

theorem filter_updates (book : OrderBook) (order : Order) {id : OrderId}
    (other : id ≠ order.orderId) :
    (book.updates order).filter (fun update => update.orderId = id) =
      ((book.fills order).filter fun gave => gave.1.orderId = id).map
        fun gave => gave.1.cut gave.2 := by
  rw [updates, List.filter_append, List.filter_map, List.filter_cons_of_neg, List.filter_nil,
    List.append_nil]
  · rfl
  · rw [processed_orderId, decide_eq_true_iff]
    exact other.symm

/-- The latest update of the order is the order as it is given back. -/
theorem latest_crossing (book : OrderBook) (order : Order) :
    latestUpdate (book.updates order) order.orderId = some (book.processed order) := by
  rw [latestUpdate, History.latest, updates, List.filter_append,
    List.filter_cons_of_pos (by simpa using processed_orderId book order), List.filter_nil]
  exact List.getLast?_concat

theorem latest_passive (unique : book.UniqueIds)
    (new : book.Absent order.orderId)
    (member : resting ∈ book.orders order.side.opposite) (positive : 0 < resting.remaining) :
    latestUpdate (book.updates order) resting.orderId =
      if book.given order resting = 0 then none
      else some (resting.cut (book.given order resting)) := by
  rw [latestUpdate, History.latest, filter_updates book order (new _ resting member),
    fills_of_id unique member positive]
  split_ifs
  · rfl
  · rfl

theorem latest_absent {id : OrderId} (other : id ≠ order.orderId)
    (absent : ∀ resting ∈ book.orders order.side.opposite, resting.orderId ≠ id) :
    latestUpdate (book.updates order) id = none := by
  refine History.latest_of_filter_nil ?_
  rw [filter_updates book order other, fills_of_absent absent]
  rfl

end OrderBook

/-! ### The feed of a run -/

namespace Session

/-- The private order feed after some calls: the latest update of a resting order is the order,
the updates of an order decline, every update is of a submitted order, and no call reports an
order twice. -/
structure Accurate (past : List Call) (session : Session) : Prop where
  positive : ∀ side, ∀ resting ∈ session.book.orders side, 0 < resting.remaining
  latest : ∀ side, ∀ resting ∈ session.book.orders side,
    latestUpdate (publishedOrders past) resting.orderId = some resting
  declines : History.Linked Order.orderId Order.Declines (publishedOrders past)
  known : ∀ update ∈ publishedOrders past, ¬ Fresh past update.orderId
  once : ∀ call ∈ past, ((call.output.events.filterMap Event.order?).map Order.orderId).Nodup

theorem create_accurate (symbol : String) (handlers : Handlers) (orderIds tradeIds : IdGenerator) :
    Accurate [] (create symbol handlers orderIds tradeIds) where
  positive side _ member := by cases side <;> cases member
  latest side _ member := by cases side <;> cases member
  declines := List.Pairwise.nil
  known _ member := by cases member
  once _ member := by cases member

section Step

variable {past : List Call} {session : Session} {request : Request} {result : Session × Response}

/-- A call that publishes no order and adds none keeps the feed accurate. -/
theorem Accurate.silent (accurate : Accurate past session)
    (feed : result.2.events.filterMap Event.order? = [])
    (kept : ∀ side, ∀ resting ∈ result.1.book.orders side, resting ∈ session.book.orders side) :
    Accurate (past ++ [⟨session, request, result.2, result.1⟩]) result.1 := by
  have published : publishedOrders (past ++ [⟨session, request, result.2, result.1⟩]) =
      publishedOrders past := by
    rw [publishedOrders_concat, feed, List.append_nil]
  refine ⟨fun side resting member => accurate.positive side resting (kept side resting member),
    fun side resting member => ?_, ?_, fun update member fresh => ?_, fun call member => ?_⟩
  · rw [published]
    exact accurate.latest side resting (kept side resting member)
  · rw [published]
    exact accurate.declines
  · rw [published] at member
    exact accurate.known update member (fresh_of_concat fresh)
  · rcases List.mem_append.mp member with old | last
    · exact accurate.once call old
    · rw [List.mem_singleton.mp last, feed]
      exact List.nodup_nil

/-- The latest update of an order that rests after its call, or after that of another order. -/
theorem Accurate.latest_of_executed {order : Order} {report : List Order} {outcome : Outcome}
    (accurate : Accurate past session) (wf : session.book.Wf) (tracked : Tracked past session)
    (fresh : Fresh past order.orderId) (executed : session.book.Executed order report outcome)
    {side : Side} {kept : Order} (member : kept ∈ outcome.book.orders side) :
    latestUpdate (publishedOrders past ++ session.book.updates order) kept.orderId =
      some kept := by
  have new := tracked.not_resting fresh
  rw [latestUpdate_append]
  rcases Side.eq_or_eq_opposite side order.side with own | passive
  · rw [own, executed.mem_own (new _)] at member
    rcases member with old | ⟨-, rfl⟩
    · have others : ∀ passive ∈ session.book.orders order.side.opposite,
          passive.orderId ≠ kept.orderId := fun _ => tracked.unique.ne_of_opposite wf old
      rw [OrderBook.latest_absent (new _ kept old) others, accurate.latest _ kept old]
      rfl
    · rw [OrderBook.processed_orderId, OrderBook.latest_crossing]
      rfl
  · rw [passive] at member
    obtain ⟨resting, inBook, left⟩ := executed.mem_passive wf (accurate.positive _) member
    rw [Ladder.id_of_mem_after left, OrderBook.latest_passive tracked.unique new inBook
      (accurate.positive _ resting inBook), accurate.latest _ resting inBook,
      (Ladder.mem_after.mp left).2]
    split_ifs <;> rfl

theorem Effect.accurate_of_add {order : Order} (effect : session.Effect (.addOrder order) result)
    (wf : session.book.Wf) (tracked : Tracked past session) (accurate : Accurate past session)
    (nonzero : order.orderId ≠ 0) (fresh : Fresh past order.orderId)
    (positive : 0 < order.remainingQty)
    (installed : session.book.handlers.privateOrderUpdate = true) :
    Accurate (past ++ [⟨session, .addOrder order, result.2, result.1⟩]) result.1 := by
  have remains := effect.positive positive accurate.positive
  have new := tracked.not_resting fresh
  cases effect with
  | foreign => exact accurate.silent rfl fun _ _ member => member
  | executed _ own after returned trades events executed =>
    rw [prepared_eq_self own nonzero] at executed
    have feed : events.filterMap Event.order? = session.book.updates order :=
      executed.orderFeed.trans (if_pos installed)
    have published : publishedOrders (past ++
        [⟨session, .addOrder order, ⟨some returned, trades, events⟩, after⟩]) =
        publishedOrders past ++ session.book.updates order := by
      rw [publishedOrders_concat, feed]
    have once := OrderBook.nodup_updates tracked.unique new
    refine ⟨remains, fun side kept member => ?_, ?_, fun update member unknown => ?_,
      fun call member => ?_⟩
    · rw [published]
      exact accurate.latest_of_executed wf tracked fresh executed member
    · rw [published]
      refine accurate.declines.append once fun update inCall last found => ?_
      rcases List.mem_append.mp inCall with taken | crossing
      · obtain ⟨gave, inFills, rfl⟩ := List.mem_map.mp taken
        obtain ⟨inBook, some, amount⟩ :=
          OrderBook.mem_fills tracked.unique accurate.positive inFills
        have within := OrderBook.given_le wf inBook
        have latest := accurate.latest _ gave.1 inBook
        have same : last = gave.1 := Option.some.inj (found.symm.trans latest)
        rw [same]
        refine ⟨?_, (wf.placed inBook).2.2.2⟩
        rw [gave.1.remaining_cut _ (amount ▸ within)]
        omega
      · obtain ⟨inPast, same⟩ := History.mem_of_latest found
        refine absurd ?_ (accurate.known last inPast)
        rwa [same, List.mem_singleton.mp crossing, OrderBook.processed_orderId]
    · rw [published] at member
      rcases List.mem_append.mp member with old | inCall
      · exact accurate.known update old (fresh_of_concat unknown)
      rcases List.mem_append.mp inCall with taken | crossing
      · obtain ⟨gave, inFills, rfl⟩ := List.mem_map.mp taken
        exact tracked.not_resting (fresh_of_concat unknown) _ gave.1
          (Greedy.mem_of_taken Order.remaining inFills) rfl
      · rw [List.mem_singleton.mp crossing, OrderBook.processed_orderId] at unknown
        exact unknown order (submitted_by_call past rfl) rfl
    · rcases List.mem_append.mp member with old | last
      · exact accurate.once call old
      · rw [List.mem_singleton.mp last]
        exact feed.symm ▸ once

/-- After a cancel nothing rests that did not rest before. -/
theorem Effect.rested_of_remove {id : OrderId} (effect : session.Effect (.removeOrder id) result) :
    ∀ side, ∀ resting ∈ result.1.book.orders side, resting ∈ session.book.orders side := by
  intro side resting member
  cases effect with
  | unknown => exact member
  | removed _ _ _ _ _ removed => exact removed.mem_before member

/-- A cancel publishes no order. -/
theorem Effect.silent_of_remove {id : OrderId} (effect : session.Effect (.removeOrder id) result) :
    result.2.events.filterMap Event.order? = [] := by
  cases effect with
  | unknown => rfl
  | removed _ _ _ _ _ removed => exact removed.orderFeed

theorem Effect.accurate (effect : session.Effect request result) (wf : session.book.Wf)
    (tracked : Tracked past session) (accurate : Accurate past session)
    (fresh : ∀ order, request = .addOrder order → order.orderId ≠ 0 ∧ Fresh past order.orderId)
    (positive : request.Positive)
    (installed : session.book.handlers.privateOrderUpdate = true) :
    Accurate (past ++ [⟨session, request, result.2, result.1⟩]) result.1 := by
  cases request with
  | addOrder order =>
    obtain ⟨nonzero, unknown⟩ := fresh order rfl
    exact effect.accurate_of_add wf tracked accurate nonzero unknown positive installed
  | removeOrder id => exact accurate.silent effect.silent_of_remove effect.rested_of_remove

end Step

variable {symbol : String} {handlers : Handlers} {orderIds tradeIds : IdGenerator}

theorem run_accurate (installed : handlers.privateOrderUpdate = true) {requests : List Request}
    (identified : Identified requests) (positive : ∀ request ∈ requests, request.Positive) :
    Accurate ((create symbol handlers orderIds tradeIds).run requests)
      ((create symbol handlers orderIds tradeIds).final requests) := by
  refine (@run_identified symbol handlers orderIds tradeIds Accurate
    (fun call => call.input.Positive ∧ call.before.book.handlers = handlers)
    (create_accurate symbol handlers orderIds tradeIds) ?_ requests identified
    fun call member => ⟨positive _ (call_effect member).2.1, (call_before member).2⟩).2
  rintro past session request result wf tracked fresh accurate effect ⟨some, handlersEq⟩
  exact effect.accurate wf tracked accurate fresh some (handlersEq ▸ installed)

/-- The private order feed is accurate for live orders: with the order handler installed, after
every run of positive orders with distinct ids and of cancels, the latest update of a resting
order carries its remaining quantity and its status, each update of an order has less left than
the one before and does not follow one with the status `FILLED`, and no call reports an order
twice. -/
theorem order_feed_accurate (installed : handlers.privateOrderUpdate = true)
    {requests : List Request} (identified : Identified requests)
    (positive : ∀ request ∈ requests, request.Positive) :
    (∀ side, ∀ resting ∈
        ((create symbol handlers orderIds tradeIds).final requests).book.orders side,
      ∃ update, latestUpdate
          (publishedOrders ((create symbol handlers orderIds tradeIds).run requests))
          resting.orderId = some update ∧
        update.remainingQty = resting.remainingQty ∧ update.status = resting.status) ∧
      (publishedOrders ((create symbol handlers orderIds tradeIds).run requests)).Pairwise
        (fun first second => first.orderId = second.orderId →
          second.remainingQty < first.remainingQty ∧ first.status ≠ .FILLED) ∧
      ∀ call ∈ (create symbol handlers orderIds tradeIds).run requests,
        ((call.output.events.filterMap Event.order?).map Order.orderId).Nodup := by
  have accurate := @run_accurate symbol handlers orderIds tradeIds installed requests identified
    positive
  refine ⟨fun side resting member => ⟨resting, accurate.latest side resting member, rfl, rfl⟩, ?_,
    accurate.once⟩
  refine accurate.declines.imp fun declines same => ?_
  exact ⟨Quantity.lt_iff.mpr (declines same).1, (declines same).2⟩

/-- Half of the second sell order is left, and its latest update says so. -/
theorem sample_order_feed :
    (∃ resting ∈ (sampleSession.final sampleFills).book.orders .SELL,
      resting.orderId = 2 ∧ resting.remainingQty = ⟨50000000⟩ ∧ resting.status = .PARTIAL ∧
      ∃ update, latestUpdate (publishedOrders (sampleSession.run sampleFills))
          resting.orderId = some update ∧
        update.remainingQty = resting.remainingQty ∧ update.status = resting.status) ∧
      (publishedOrders (sampleSession.run sampleFills)).Pairwise
        (fun first second => first.orderId = second.orderId →
          second.remainingQty < first.remainingQty ∧ first.status ≠ .FILLED) ∧
      ∀ call ∈ sampleSession.run sampleFills,
        ((call.output.events.filterMap Event.order?).map Order.orderId).Nodup := by
  obtain ⟨latest, declines, once⟩ := @order_feed_accurate "AAPL" ⟨true, true, true, true⟩ ⟨0⟩ ⟨0⟩
    rfl sampleFills (by decide) (by decide)
  obtain ⟨resting, member, id, left, status⟩ :
      ∃ resting ∈ (sampleSession.final sampleFills).book.orders .SELL,
        resting.orderId = 2 ∧ resting.remainingQty = ⟨50000000⟩ ∧ resting.status = .PARTIAL := by
    decide
  exact ⟨⟨resting, member, id, left, status, latest .SELL resting member⟩, declines, once⟩

end Session

end OrderForge
