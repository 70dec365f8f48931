/-
This file settles what market and fill-and-kill orders do. They never rest, so they
leave their own side and the id index alone, and they are rejected exactly when
there is nothing to trade with. A market order is served greedily: the nested loops
over levels and queues, the deferred removal of nodes and the erasure of levels
together are one visit of the opposite ladder, as long as the counters fit.
-/

import OrderForge.Canonical
import OrderForge.Ledger

namespace OrderForge

namespace OrderBook

variable {book : OrderBook} {order : Order} {report : List Order} {outcome : Outcome}

/-- A call leaves the levels of a side whose orders stay as they are. -/
theorem Executed.levels_eq (executed : book.Executed order report outcome) (wf : book.Wf)
    {side : Side} (same : outcome.book.orders side = book.orders side) :
    outcome.book.levels side = book.levels side :=
  executed.wf.levels_eq wf executed.symbol same

theorem not_rests_of_taker (taker : order.type ≠ .LIMIT) : ¬ book.Rests order :=
  fun rests => taker rests.1

theorem Executed.own_levels (executed : book.Executed order report outcome) (wf : book.Wf)
    (taker : order.type ≠ .LIMIT) : outcome.book.levels order.side = book.levels order.side :=
  executed.levels_eq wf (by rw [executed.own, if_neg (not_rests_of_taker taker)])

theorem Executed.own_index (executed : book.Executed order report outcome)
    (taker : order.type ≠ .LIMIT) : outcome.book.ordersIdMap = book.ordersIdMap := by
  rw [executed.ordersIdMap, if_neg (not_rests_of_taker taker)]

/-! ### Rejection -/

/-- A marketable order with something left takes something. -/
theorem fills_eq_nil_iff (positive : 0 < order.remaining) :
    book.fills order = [] ↔ ¬ book.Marketable order := by
  refine ⟨fun none marketable => ?_, fills_of_not⟩
  rw [fills, demand_of_marketable marketable, Greedy.taken_eq_nil] at none
  have empty := none.resolve_left positive.ne'
  rw [Marketable, empty] at marketable
  split at marketable
  · exact marketable rfl
  · obtain ⟨passive, member, -⟩ := marketable
    cases member

theorem Executed.trades_eq_nil_iff (executed : book.Executed order report outcome) :
    outcome.trades = [] ↔ book.fills order = [] := by
  rw [← List.map_eq_nil_iff (f := Trade.terms), executed.trades, List.map_eq_nil_iff]

/-- An order that takes something ends filled or in part filled. -/
theorem afterFills_status (some : book.fills order ≠ []) :
    (book.afterFills order).status =
      if order.remaining = ((book.fills order).map Prod.snd).sum then .FILLED else .PARTIAL := by
  rw [afterFills, if_neg some, order.status_cut _ (sum_fills_le book order)]

/-- A market or fill-and-kill order ends rejected exactly when it is not marketable. -/
theorem processed_rejected_iff (taker : order.type ≠ .LIMIT) (positive : 0 < order.remaining) :
    (book.processed order).status = .REJECTED ↔ ¬ book.Marketable order := by
  rw [processed]
  split_ifs with rejected
  · exact ⟨fun _ => rejected.2, fun _ => rfl⟩
  · have marketable : book.Marketable order := by
      by_contra silent
      exact rejected ⟨taker, silent⟩
    have some := fun none => (fills_eq_nil_iff positive).mp none marketable
    rw [afterFills_status some]
    refine ⟨fun status => ?_, fun silent => absurd marketable silent⟩
    split_ifs at status

/-- What is not marketable is rejected before anything is matched. -/
theorem executeOrder_of_not_marketable (wf : book.Wf) (tradeIds : IdGenerator)
    (taker : order.type ≠ .LIMIT) (silent : ¬ book.Marketable order) :
    book.executeOrder tradeIds order = book.rejectOrder tradeIds order := by
  rw [executeOrder]
  cases type : order.type with
  | LIMIT => exact absurd type taker
  | MARKET =>
    rw [Marketable, type] at silent
    exact if_pos ((marketOrder_rejects_iff wf order).mpr (not_not.mp silent))
  | FILL_AND_KILL =>
    refine if_neg fun crossing => silent ?_
    exact (marketable_iff_crossing wf (by rw [type]; decide)).mpr crossing

/-! ### Service -/

/-- As long as the counters fit, a call serves the opposite ladder greedily. -/
theorem Executed.passive_left (executed : book.Executed order report outcome) (wf : book.Wf)
    (positive : ∀ side, ∀ resting ∈ book.orders side, 0 < resting.remaining)
    (bounded : book.Bounded) (own : order.symbol = book.symbol) :
    outcome.book.orders order.side.opposite =
      Greedy.left Order.remaining Order.cut (book.demand order)
        (book.orders order.side.opposite) :=
  executed.passive.trans (Ladder.serve_eq_left (wf.sorted _) (positive _)
    (bounded.matchUnwrapped order own))

/-- A market order asks for all it has left, whether there is anything to take or not. -/
theorem left_demand_of_market (market : order.type = .MARKET) :
    Greedy.left Order.remaining Order.cut (book.demand order) (book.orders order.side.opposite) =
      Greedy.left Order.remaining Order.cut order.remaining
        (book.orders order.side.opposite) := by
  by_cases marketable : book.Marketable order
  · rw [demand_of_marketable marketable]
  · rw [Marketable, market, not_not] at marketable
    rw [marketable, Greedy.left_nil, Greedy.left_nil]

theorem fills_of_market (market : order.type = .MARKET) :
    book.fills order =
      Greedy.taken Order.remaining order.remaining (book.orders order.side.opposite) := by
  rw [fills]
  by_cases marketable : book.Marketable order
  · rw [demand_of_marketable marketable]
  · rw [Marketable, market, not_not] at marketable
    rw [marketable, Greedy.taken_nil, Greedy.taken_nil]

/-- A market or fill-and-kill order makes no level heavier. -/
theorem Executed.bounded (executed : book.Executed order report outcome) (wf : book.Wf)
    (positive : ∀ side, ∀ resting ∈ book.orders side, 0 < resting.remaining)
    (bounded : book.Bounded) (own : order.symbol = book.symbol) (taker : order.type ≠ .LIMIT) :
    outcome.book.Bounded := by
  intro side price
  rcases Side.eq_or_eq_opposite side order.side with same | same
  · rw [same, executed.own, if_neg (not_rests_of_taker taker)]
    exact bounded _ price
  · rw [same, executed.passive_left wf positive bounded own]
    refine Nat.lt_of_le_of_lt ?_ (bounded order.side.opposite price)
    exact Greedy.total_filter_left_le Order.remaining Order.cut (fun _ _ => rfl)
      Order.remaining_cut _ _

end OrderBook

/-! ### The calls -/

/-- What serving an order greedily from the opposite side means for the trades of a call and
for the book behind it. -/
structure ServedGreedily (before : OrderBook) (order : Order) (response : Response)
    (after : OrderBook) : Prop where
  ranked : Ranked.Sorted order.side.opposite.Better Order.price
    (before.orders order.side.opposite)
  trades : response.trades.map Trade.terms =
    (Greedy.taken Order.remaining order.remaining (before.orders order.side.opposite)).map
      (MatchingEngine.termsOf order)
  published : response.events.filterMap Event.trade? =
    if before.handlers.privateTradesUpdate then response.trades else []
  passive : after.orders order.side.opposite =
    Greedy.left Order.remaining Order.cut order.remaining (before.orders order.side.opposite)
  shape : Greedy.Shape Order.remaining Order.cut order.remaining
    (before.orders order.side.opposite)
    (Greedy.taken Order.remaining order.remaining (before.orders order.side.opposite))
    (after.orders order.side.opposite)
  levels : ∀ entry ∈ after.levels order.side.opposite,
    entry.2.orders = Ladder.queue (after.orders order.side.opposite) entry.1 ∧
      entry.2.orders ≠ [] ∧
      Quantity.toNat entry.2.totalQty = Greedy.total Order.remaining entry.2.orders

/-- What a call does that may not add liquidity. -/
structure TakesOnly (session : Session) (order : Order) (result : Session × Response) : Prop where
  own : result.1.book.levels order.side = session.book.levels order.side
  index : result.1.book.ordersIdMap = session.book.ordersIdMap
  traded : result.2.order.map Order.status = some .REJECTED ↔ result.2.trades = []
  market : order.type = .MARKET → (result.2.order.map Order.status = some .REJECTED ↔
    session.book.orders order.side.opposite = [])
  fillAndKill : order.type = .FILL_AND_KILL →
    (result.2.order.map Order.status = some .REJECTED ↔
      ∀ resting ∈ session.book.orders order.side.opposite, ¬ order.accepts resting.price)
  silent : result.2.order.map Order.status = some .REJECTED →
    (∀ side, result.1.book.levels side = session.book.levels side) ∧
      ∀ event ∈ result.2.events, ∃ order, event = .privateOrderUpdate order

namespace OrderBook

variable {book : OrderBook} {order : Order} {report : List Order} {outcome : Outcome}

theorem Wf.level_totalQty (wf : book.Wf) (bounded : book.Bounded) {side : Side}
    {entry : Price × PriceLevel} (member : entry ∈ book.levels side) :
    Quantity.toNat entry.2.totalQty = Greedy.total Order.remaining entry.2.orders := by
  have fits := bounded side entry.1
  rw [Ladder.quantity, ← (wf.level_orders member).1] at fits
  cases side with
  | BUY => exact (wf.bids.levels entry member).totalQty_eq fits
  | SELL => exact (wf.asks.levels entry member).totalQty_eq fits

theorem Executed.servedGreedily {order : Option Order} {taker : Order}
    {after : Session} {result : Order} {trades : List Trade} {events : List Event}
    (executed : book.Executed taker report ⟨after.book, after.tradeIds, result, trades, events⟩)
    (wf : book.Wf) (positive : ∀ side, ∀ resting ∈ book.orders side, 0 < resting.remaining)
    (bounded : book.Bounded) (own : taker.symbol = book.symbol) (market : taker.type = .MARKET) :
    ServedGreedily book taker ⟨order, trades, events⟩ after.book := by
  have takes : taker.type ≠ .LIMIT := by
    rw [market]
    decide
  have passive := executed.passive_left wf positive bounded own
  have fits := executed.bounded wf positive bounded own takes
  rw [left_demand_of_market market] at passive
  refine ⟨wf.sorted _, ?_, executed.tradeFeed, passive, ?_, fun entry member => ?_⟩
  · rw [executed.trades, fills_of_market market]
  · rw [passive]
    exact Greedy.shape _ _ _ _
  · obtain ⟨queue, populated⟩ := executed.wf.level_orders member
    exact ⟨queue, populated, executed.wf.level_totalQty fits member⟩

end OrderBook

namespace Session

theorem marketable_prepared (session : Session) (order : Order) :
    session.book.Marketable (session.prepared order) ↔ session.book.Marketable order := by
  rw [prepared_eq]
  exact Iff.rfl

/-- A rejected order leaves the levels as they are and publishes nothing but itself. -/
theorem step_of_not_marketable {session : Session} {order : Order} (wf : session.book.Wf)
    (own : order.symbol = session.book.symbol) (taker : order.type ≠ .LIMIT)
    (silent : ¬ session.book.Marketable order) :
    (session.step (.addOrder order)).1.book = session.book ∧
      (session.step (.addOrder order)).2.events =
        emit session.book.handlers.privateOrderUpdate
          (.privateOrderUpdate ((session.prepared order).setStatus .REJECTED)) := by
  have silentPrepared : ¬ session.book.Marketable (session.prepared order) := by
    rwa [marketable_prepared]
  have rejected := OrderBook.executeOrder_of_not_marketable wf session.tradeIds
    (by rwa [(prepared_frame session order).2.1]) silentPrepared
  have outcome := OrderBook.addOrder_own session.orderIds session.tradeIds own
  change (session.book.addOrder session.orderIds session.tradeIds order).1.book = _ ∧
    (session.book.addOrder session.orderIds session.tradeIds order).1.events = _
  rw [outcome]
  change (session.book.executeOrder session.tradeIds (session.prepared order)).book = _ ∧
    (session.book.executeOrder session.tradeIds (session.prepared order)).events ++
      emit session.book.handlers.privateOrderUpdate (.privateOrderUpdate
        (session.book.executeOrder session.tradeIds (session.prepared order)).order) = _
  rw [rejected]
  exact ⟨rfl, rfl⟩

theorem step_takesOnly {session : Session} {order : Order} {result : Session × Response}
    (wf : session.book.Wf) (stepped : session.step (.addOrder order) = result)
    (own : order.symbol = session.book.symbol) (taker : order.type ≠ .LIMIT)
    (positive : 0 < order.remainingQty) : TakesOnly session order result := by
  have effect := step_effect wf (.addOrder order)
  have silence := step_of_not_marketable wf own taker
  rw [stepped] at effect silence
  cases effect with
  | foreign _ foreign => exact absurd own foreign
  | executed _ _ after returned trades events executed =>
    have takes : (session.prepared order).type ≠ .LIMIT := by
      rwa [(prepared_frame session order).2.1]
    have some : 0 < (session.prepared order).remaining := by
      rw [prepared_remaining]
      exact Quantity.lt_iff.mp positive
    have rejected : (Option.some returned).map Order.status = Option.some .REJECTED ↔
        ¬ session.book.Marketable order := by
      have result : returned = _ := executed.result
      rw [Option.map_some, Option.some_inj, result, OrderBook.processed_rejected_iff takes some,
        marketable_prepared]
    have ownLevels := executed.own_levels wf takes
    rw [prepared_side] at ownLevels
    refine ⟨ownLevels, executed.own_index takes, ?_, fun market => ?_, fun kill => ?_,
      fun ended => ?_⟩
    · rw [rejected, executed.trades_eq_nil_iff, OrderBook.fills_eq_nil_iff some,
        marketable_prepared]
    · rw [rejected, OrderBook.Marketable, market, not_not]
    · rw [rejected, OrderBook.Marketable, kill]
      simp only [not_exists, not_and]
    · obtain ⟨book, published⟩ := silence (rejected.mp ended)
      refine ⟨fun side => by rw [book], fun event member => ?_⟩
      rw [published, emit] at member
      split_ifs at member
      · exact ⟨_, List.mem_singleton.mp member⟩
      · cases member

variable {symbol : String} {handlers : Handlers} {orderIds tradeIds : IdGenerator}

/-- In every reachable book of positive orders whose counters fit, a market order is served
greedily from the opposite side. -/
theorem market_order_served_greedily {requests : List Request} {order : Order}
    (positive : ∀ side, ∀ resting ∈
      ((create symbol handlers orderIds tradeIds).final requests).book.orders side,
      0 < resting.remaining)
    (bounded : ((create symbol handlers orderIds tradeIds).final requests).book.Bounded)
    (own : order.symbol = symbol) (market : order.type = .MARKET) :
    ServedGreedily ((create symbol handlers orderIds tradeIds).final requests).book
      (((create symbol handlers orderIds tradeIds).final requests).prepared order)
      (((create symbol handlers orderIds tradeIds).final requests).step (.addOrder order)).2
      (((create symbol handlers orderIds tradeIds).final requests).step
        (.addOrder order)).1.book := by
  have wf := final_wf symbol handlers orderIds tradeIds requests
  have symbolEq := final_symbol symbol handlers orderIds tradeIds requests
  generalize (create symbol handlers orderIds tradeIds).final requests = session
    at wf symbolEq positive bounded ⊢
  have effect := step_effect wf (.addOrder order)
  generalize session.step (.addOrder order) = result at effect ⊢
  obtain ⟨symbolKept, typeKept, -⟩ := prepared_frame session order
  cases effect with
  | foreign _ foreign => exact absurd (own.trans symbolEq.symm) foreign
  | executed _ _ after returned trades events executed =>
    exact executed.servedGreedily wf positive bounded symbolKept (typeKept.trans market)

/-- A market order that takes one sell order and half of another. -/
theorem sample_served_greedily :
    ServedGreedily (sampleSession.final sampleAsks).book
      ((sampleSession.final sampleAsks).prepared (sampleOrder .BUY .MARKET 0 150000000 3))
      ((sampleSession.final sampleAsks).step
        (.addOrder (sampleOrder .BUY .MARKET 0 150000000 3))).2
      ((sampleSession.final sampleAsks).step
        (.addOrder (sampleOrder .BUY .MARKET 0 150000000 3))).1.book :=
  market_order_served_greedily
    (fun side => by cases side <;> decide)
    (OrderBook.bounded_of_total fun side => by cases side <;> decide) rfl rfl

/-- In every reachable book, a market or fill-and-kill order adds nothing, and is rejected exactly
when nothing is marketable. -/
theorem immediate_order_takes_only {requests : List Request} {order : Order}
    (own : order.symbol = symbol) (taker : order.type ≠ .LIMIT)
    (positive : 0 < order.remainingQty) :
    TakesOnly ((create symbol handlers orderIds tradeIds).final requests) order
      (((create symbol handlers orderIds tradeIds).final requests).step (.addOrder order)) :=
  step_takesOnly (final_wf symbol handlers orderIds tradeIds requests) rfl
    (own.trans (final_symbol symbol handlers orderIds tradeIds requests).symm) taker positive

/-- A fill-and-kill order whose limit nothing meets. -/
theorem sample_takes_only :
    TakesOnly (sampleSession.final sampleAsks)
      (sampleOrder .BUY .FILL_AND_KILL 9000 100000000 3)
      ((sampleSession.final sampleAsks).step
        (.addOrder (sampleOrder .BUY .FILL_AND_KILL 9000 100000000 3))) :=
  immediate_order_takes_only rfl (by decide) (by decide)

end Session

end OrderForge
