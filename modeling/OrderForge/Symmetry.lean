/-
This file proves that buying and selling are symmetric. A run and the run of the
mirrored requests stay mirror images of each other call by call: the same comparisons
come out the same way, so the same orders are matched, rested and cancelled, and every
trade, status, event and level of one is that of the other with the side swapped and
the sign of the price changed.
-/

import OrderForge.Mirror
import OrderForge.SessionInvariant

namespace OrderForge

namespace OrderBook

/-- Whether a book is another one seen in the mirror. -/
structure Mirrored (first second : OrderBook) : Prop where
  symbol : second.symbol = first.symbol
  handlers : second.handlers = first.handlers
  bids : first.asks.Mirrored second.bids
  asks : first.bids.Mirrored second.asks
  index : FlatMap.Image id FindOrderHelper.mirror first.ordersIdMap second.ordersIdMap

/-- Whether all prices a book knows have opposites. -/
structure Reversible (book : OrderBook) : Prop where
  orders : ∀ side, ∀ resting ∈ book.orders side, Price.Reversible resting.price
  index : ∀ entry ∈ book.ordersIdMap.entries, Price.Reversible entry.2.price

end OrderBook

/-- Whether the outcome of a call is that of another one seen in the mirror. -/
structure Outcome.Mirrored (first second : Outcome) : Prop where
  book : first.book.Mirrored second.book
  tradeIds : second.tradeIds = first.tradeIds
  order : second.order = first.order.mirror
  trades : second.trades = first.trades.map Trade.mirror
  events : second.events = first.events.map Event.mirror

theorem emit_mirror (installed : Bool) (event : Event) :
    emit installed event.mirror = (emit installed event).map Event.mirror := by
  cases installed <;> rfl

theorem flatMap_mirror {Item Image : Type} (change : Item → Image) {event : Item → List Event}
    {other : Image → List Event} (commutes : ∀ item,
      other (change item) = (event item).map Event.mirror) (items : List Item) :
    (items.map change).flatMap other = (items.flatMap event).map Event.mirror := by
  rw [List.flatMap_map, List.map_flatMap]
  exact List.flatMap_congr fun item _ => commutes item

namespace OrderBook

theorem create_mirrored (symbol : String) (handlers : Handlers) :
    (create symbol handlers).Mirrored (create symbol handlers) where
  symbol := rfl
  handlers := rfl
  bids := BookSide.create_mirrored symbol .SELL
  asks := BookSide.create_mirrored symbol .BUY
  index := rfl

theorem create_reversible (symbol : String) (handlers : Handlers) :
    (create symbol handlers).Reversible where
  orders side _ member := by cases side <;> cases member
  index _ member := by cases member

variable {first second : OrderBook} {order : Order}

theorem Mirrored.matchEvents (mirrored : first.Mirrored second) (engine : MatchingEngine)
    (updates : List PriceLevelUpdate) :
    second.matchEvents engine.mirror (updates.map PriceLevelUpdate.mirror) =
      (first.matchEvents engine updates).map Event.mirror := by
  rw [OrderBook.matchEvents, OrderBook.matchEvents, List.map_append, List.map_append,
    mirrored.handlers, mirrored.symbol]
  refine congrArg₂ _ (congrArg₂ _ ?_ ?_) ?_
  · exact flatMap_mirror Order.mirror (fun order => emit_mirror _ (.privateOrderUpdate order)) _
  · refine flatMap_mirror Trade.mirror (fun trade => ?_) _
    rw [List.map_append, ← emit_mirror, ← emit_mirror]
    rfl
  · exact flatMap_mirror PriceLevelUpdate.mirror
      (fun update => emit_mirror _ (.publicOrderBookUpdate update)) _

theorem isBuy_mirror (order : Order) : order.mirror.isBuy = !order.isBuy := by
  rw [Order.isBuy, Order.isBuy, Order.mirror]
  cases order.side <;> rfl

/-- The two versions of a match do the same. -/
theorem Mirrored.matchOrder (mirrored : first.Mirrored second) (tradeIds : IdGenerator)
    (order : Order) :
    (first.matchOrder tradeIds order).Mirrored (second.matchOrder tradeIds order.mirror) := by
  have created : MatchingEngine.create order.mirror tradeIds =
      (MatchingEngine.create order tradeIds).mirror := rfl
  rw [OrderBook.matchOrder, OrderBook.matchOrder, isBuy_mirror, created]
  cases order.isBuy with
  | true =>
    obtain ⟨levels, same⟩ := mirrored.bids.matchOrder (MatchingEngine.create order tradeIds)
    simp only [Bool.not_true, Bool.false_eq_true, if_false, if_true]
    generalize first.asks.matchOrder (MatchingEngine.create order tradeIds) = plain
      at levels same ⊢
    generalize second.bids.matchOrder (MatchingEngine.create order tradeIds).mirror = image
      at levels same ⊢
    obtain ⟨asks, engine, updates⟩ := plain
    obtain ⟨bids, other, others⟩ := image
    cases same
    exact ⟨⟨mirrored.symbol, mirrored.handlers,
      levels.removeMarkedOrderNodes engine.removeLevels, mirrored.asks, mirrored.index⟩,
      rfl, rfl, rfl, mirrored.matchEvents engine updates⟩
  | false =>
    obtain ⟨levels, same⟩ := mirrored.asks.matchOrder (MatchingEngine.create order tradeIds)
    simp only [Bool.not_false, Bool.false_eq_true, if_false, if_true]
    generalize first.bids.matchOrder (MatchingEngine.create order tradeIds) = plain
      at levels same ⊢
    generalize second.asks.matchOrder (MatchingEngine.create order tradeIds).mirror = image
      at levels same ⊢
    obtain ⟨bids, engine, updates⟩ := plain
    obtain ⟨asks, other, others⟩ := image
    cases same
    exact ⟨⟨mirrored.symbol, mirrored.handlers, mirrored.bids,
      levels.removeMarkedOrderNodes engine.removeLevels, mirrored.index⟩,
      rfl, rfl, rfl, mirrored.matchEvents engine updates⟩

theorem Mirrored.unchanged (mirrored : first.Mirrored second) (tradeIds : IdGenerator)
    (order : Order) :
    (first.unchanged tradeIds order).Mirrored (second.unchanged tradeIds order.mirror) :=
  ⟨mirrored, rfl, rfl, rfl, rfl⟩

theorem Mirrored.rejectOrder (mirrored : first.Mirrored second) (tradeIds : IdGenerator)
    (order : Order) :
    (first.rejectOrder tradeIds order).Mirrored (second.rejectOrder tradeIds order.mirror) :=
  mirrored.unchanged tradeIds (order.setStatus .REJECTED)

/-! ### Comparisons -/

theorem Wf.best_reversible (wf : first.Wf) (reversible : first.Reversible) :
    (∀ best ∈ first.bids.bestPrice, Price.Reversible best) ∧
      ∀ best ∈ first.asks.bestPrice, Price.Reversible best := by
  have head : ∀ {orders : List Order}, (∀ resting ∈ orders, Price.Reversible resting.price) →
      ∀ best ∈ orders.head?.map Order.price, Price.Reversible best := by
    intro orders all best member
    obtain ⟨resting, first_, rfl⟩ := Option.map_eq_some_iff.mp member
    exact all resting (List.mem_of_mem_head? first_)
  rw [BookSide.bestPrice_eq wf.bids, BookSide.bestPrice_eq wf.asks]
  exact ⟨head (reversible.orders .BUY), head (reversible.orders .SELL)⟩

theorem Mirrored.isCrossingOrder (mirrored : first.Mirrored second) (wf : first.Wf)
    (reversible : first.Reversible) (own : Price.Reversible order.price) :
    second.isCrossingOrder order.mirror = first.isCrossingOrder order := by
  obtain ⟨bids, asks⟩ := wf.best_reversible reversible
  have bidPrice : second.bids.bestPrice = first.asks.bestPrice.map Neg.neg :=
    mirrored.bids.levels.bestPrice
  have askPrice : second.asks.bestPrice = first.bids.bestPrice.map Neg.neg :=
    mirrored.asks.levels.bestPrice
  rw [OrderBook.isCrossingOrder, OrderBook.isCrossingOrder, isBuy_mirror, bidPrice, askPrice]
  cases order.isBuy with
  | true =>
    cases best : first.asks.bestPrice with
    | none => rfl
    | some ask => exact decide_eq_decide.mpr (Price.neg_le_neg_iff own (asks ask best))
  | false =>
    cases best : first.bids.bestPrice with
    | none => rfl
    | some bid => exact decide_eq_decide.mpr (Price.neg_le_neg_iff (bids bid best) own)

theorem Mirrored.rejects (mirrored : first.Mirrored second) (order : Order) :
    (order.mirror.isBuy && second.asks.empty || !order.mirror.isBuy && second.bids.empty) =
      (order.isBuy && first.asks.empty || !order.isBuy && first.bids.empty) := by
  have bids : second.bids.empty = first.asks.empty := mirrored.bids.levels.empty
  have asks : second.asks.empty = first.bids.empty := mirrored.asks.levels.empty
  rw [isBuy_mirror, bids, asks, Bool.not_not, Bool.or_comm]

/-! ### The calls -/

/-- Every level has the price of an order. -/
theorem Wf.levels_reversible (wf : first.Wf) :
    ((∀ resting ∈ first.orders .BUY, Price.Reversible resting.price) →
      first.bids.levels.Reversible) ∧
    ((∀ resting ∈ first.orders .SELL, Price.Reversible resting.price) →
      first.asks.levels.Reversible) := by
  refine ⟨fun all entry member => ?_, fun all entry member => ?_⟩
  · obtain ⟨resting, inLevel⟩ := List.exists_mem_of_ne_nil _ (wf.bids.populated entry member)
    have price := ((wf.bids.levels entry member).placed resting inLevel).2.2.1
    exact price ▸ all resting (BookSide.mem_ordersOf.mpr ⟨entry, member, inLevel⟩)
  · obtain ⟨resting, inLevel⟩ := List.exists_mem_of_ne_nil _ (wf.asks.populated entry member)
    have price := ((wf.asks.levels entry member).placed resting inLevel).2.2.1
    exact price ▸ all resting (BookSide.mem_ordersOf.mpr ⟨entry, member, inLevel⟩)

theorem Mirrored.addOrderHelper (mirrored : first.Mirrored second) (price : Price)
    (orderId : OrderId) (side : Side) :
    (first.addOrderHelper price orderId side).Mirrored
      (second.addOrderHelper (-price) orderId side.opposite) :=
  ⟨mirrored.symbol, mirrored.handlers, mirrored.bids, mirrored.asks,
    mirrored.index.emplace _ (fun _ _ => ⟨Iff.rfl, Iff.rfl⟩) ⟨orderId, price, side⟩⟩

theorem Mirrored.restOrder (mirrored : first.Mirrored second) (wf : first.Wf)
    (reversible : ∀ resting ∈ first.orders order.side, Price.Reversible resting.price)
    (own : Price.Reversible order.price) :
    (first.restOrder order).1.Mirrored (second.restOrder order.mirror).1 ∧
      (second.restOrder order.mirror).2 = (first.restOrder order).2.mirror := by
  rw [OrderBook.restOrder, OrderBook.restOrder, isBuy_mirror]
  cases buy : order.isBuy with
  | true =>
    rw [of_decide_eq_true buy] at reversible
    obtain ⟨added, update⟩ := mirrored.asks.addOrder reverses_greater
      (wf.levels_reversible.1 reversible) own
    have book : OrderBook.Mirrored { first with bids := (first.bids.addOrder order).1 }
        { second with asks := (second.asks.addOrder order.mirror).1 } :=
      ⟨mirrored.symbol, mirrored.handlers, mirrored.bids, added, mirrored.index⟩
    simp only [Bool.not_true, Bool.false_eq_true, if_false, if_true]
    exact ⟨book.addOrderHelper order.price order.orderId order.side, update⟩
  | false =>
    have side : order.side = .SELL :=
      (Side.eq_or_eq_opposite order.side .BUY).resolve_left (of_decide_eq_false buy)
    rw [side] at reversible
    obtain ⟨added, update⟩ := mirrored.bids.addOrder reverses_less
      (wf.levels_reversible.2 reversible) own
    have book : OrderBook.Mirrored { first with asks := (first.asks.addOrder order).1 }
        { second with bids := (second.bids.addOrder order.mirror).1 } :=
      ⟨mirrored.symbol, mirrored.handlers, added, mirrored.asks, mirrored.index⟩
    simp only [Bool.not_false, Bool.false_eq_true, if_false, if_true]
    exact ⟨book.addOrderHelper order.price order.orderId order.side, update⟩

theorem Mirrored.limitOrder (mirrored : first.Mirrored second) (wf : first.Wf)
    (reversible : first.Reversible) (own : Price.Reversible order.price)
    (limit : order.type = .LIMIT) (tradeIds : IdGenerator) :
    (first.limitOrder tradeIds order).Mirrored (second.limitOrder tradeIds order.mirror) := by
  have crossed : first.Crossed order _ := matched_crossed wf tradeIds (by
    rw [limit]
    decide)
  have matched : Outcome.Mirrored
      (if first.isCrossingOrder order then first.matchOrder tradeIds order
        else first.unchanged tradeIds order)
      (if second.isCrossingOrder order.mirror then second.matchOrder tradeIds order.mirror
        else second.unchanged tradeIds order.mirror) := by
    rw [mirrored.isCrossingOrder wf reversible own]
    split_ifs
    · exact mirrored.matchOrder tradeIds order
    · exact mirrored.unchanged tradeIds order
  rw [OrderBook.limitOrder, OrderBook.limitOrder]
  generalize (if first.isCrossingOrder order then first.matchOrder tradeIds order
    else first.unchanged tradeIds order) = plain at crossed matched ⊢
  generalize (if second.isCrossingOrder order.mirror then second.matchOrder tradeIds order.mirror
    else second.unchanged tradeIds order.mirror) = image at matched ⊢
  have status : image.order.status = plain.order.status := by
    rw [matched.order]
    rfl
  obtain ⟨-, sideEq, priceEq, -⟩ := first.afterFills_frame order
  rw [← crossed.result] at sideEq priceEq
  obtain ⟨rested, update⟩ := matched.book.restOrder crossed.wf
    (by rw [sideEq, crossed.own]; exact reversible.orders _) (by rwa [priceEq])
  rw [status]
  split_ifs
  · exact matched
  · rw [← matched.order] at rested update
    refine ⟨rested, matched.tradeIds, matched.order, matched.trades, ?_⟩
    simp only [update, rested.handlers, matched.events, List.map_append, ← emit_mirror]
    rfl

theorem Mirrored.marketOrder (mirrored : first.Mirrored second) (tradeIds : IdGenerator)
    (order : Order) :
    (first.marketOrder tradeIds order).Mirrored (second.marketOrder tradeIds order.mirror) := by
  rw [OrderBook.marketOrder, OrderBook.marketOrder, mirrored.rejects]
  split_ifs
  · exact mirrored.rejectOrder tradeIds order
  · exact mirrored.matchOrder tradeIds order

theorem Mirrored.fillAndKillOrder (mirrored : first.Mirrored second) (wf : first.Wf)
    (reversible : first.Reversible) (own : Price.Reversible order.price)
    (tradeIds : IdGenerator) :
    (first.fillAndKillOrder tradeIds order).Mirrored
      (second.fillAndKillOrder tradeIds order.mirror) := by
  rw [OrderBook.fillAndKillOrder, OrderBook.fillAndKillOrder,
    mirrored.isCrossingOrder wf reversible own]
  split_ifs
  · exact mirrored.matchOrder tradeIds order
  · exact mirrored.rejectOrder tradeIds order

theorem Mirrored.executeOrder (mirrored : first.Mirrored second) (wf : first.Wf)
    (reversible : first.Reversible) (own : Price.Reversible order.price)
    (tradeIds : IdGenerator) :
    (first.executeOrder tradeIds order).Mirrored
      (second.executeOrder tradeIds order.mirror) := by
  have same : order.mirror.type = order.type := rfl
  rw [OrderBook.executeOrder, OrderBook.executeOrder, same]
  cases type : order.type with
  | MARKET => exact mirrored.marketOrder tradeIds order
  | FILL_AND_KILL => exact mirrored.fillAndKillOrder wf reversible own tradeIds
  | LIMIT => exact mirrored.limitOrder wf reversible own type tradeIds

theorem Mirrored.addOrder (mirrored : first.Mirrored second) (wf : first.Wf)
    (reversible : first.Reversible) (own : Price.Reversible order.price)
    (identified : order.orderId ≠ 0) (orderIds tradeIds : IdGenerator) :
    (first.addOrder orderIds tradeIds order).1.Mirrored
        (second.addOrder orderIds tradeIds order.mirror).1 ∧
      (second.addOrder orderIds tradeIds order.mirror).2 =
        (first.addOrder orderIds tradeIds order).2 := by
  have symbol := mirrored.symbol
  have prepared : second.prepareOrder orderIds order.mirror =
      Prod.map Order.mirror id (first.prepareOrder orderIds order) := by
    have plain : (order.setSymbol first.symbol).orderId ≠ 0 := identified
    have image : (order.mirror.setSymbol first.symbol).orderId ≠ 0 := identified
    rw [prepareOrder, prepareOrder, symbol]
    simp only [plain, image, if_false]
    rfl
  have same : order.mirror.isSameSymbol second.symbol = order.isSameSymbol first.symbol := by
    rw [symbol]
    rfl
  rw [OrderBook.addOrder, OrderBook.addOrder, same, prepared]
  split_ifs
  · have price : (first.prepareOrder orderIds order).1.price = order.price := by
      rw [show (first.prepareOrder orderIds order).1 = _ from first.prepared_eq orderIds order]
    have executed := mirrored.executeOrder wf reversible (price.symm ▸ own) tradeIds
    refine ⟨⟨executed.book, executed.tradeIds, executed.order, executed.trades, ?_⟩, rfl⟩
    simp only [Prod.map, executed.events, executed.order, mirrored.handlers, List.map_append,
      ← emit_mirror]
    rfl
  · exact ⟨mirrored.unchanged tradeIds order, rfl⟩

theorem Mirrored.removeOrder (mirrored : first.Mirrored second) (wf : first.Wf)
    (reversible : first.Reversible) (id : OrderId) :
    (first.removeOrder id).1.Mirrored (second.removeOrder id).1 ∧
      (second.removeOrder id).2 = (first.removeOrder id).2.map Event.mirror := by
  have found : second.ordersIdMap.find? id = _ :=
    mirrored.index.find? Function.injective_id id
  have erased := mirrored.index.erase Function.injective_id id
  rw [OrderBook.removeOrder, OrderBook.removeOrder, found]
  cases entry : first.ordersIdMap.find? id with
  | none => exact ⟨mirrored, rfl⟩
  | some helper =>
    have own : Price.Reversible helper.price :=
      reversible.index (id, helper) ((FlatMap.find?_eq_some _).mp entry)
    have image : helper.mirror.side = helper.side.opposite := rfl
    simp only [Option.map_some, image]
    cases side : helper.side with
    | BUY =>
      obtain ⟨removed, update⟩ := mirrored.asks.removeOrder reverses_greater
        (wf.levels_reversible.1 (reversible.orders .BUY)) own
      simp only [Side.opposite, reduceCtorEq, if_false, if_true, update, mirrored.handlers]
      exact ⟨⟨mirrored.symbol, rfl, mirrored.bids, removed, erased⟩,
        emit_mirror _ (.publicOrderBookUpdate _)⟩
    | SELL =>
      obtain ⟨removed, update⟩ := mirrored.bids.removeOrder reverses_less
        (wf.levels_reversible.2 (reversible.orders .SELL)) own
      simp only [Side.opposite, reduceCtorEq, if_false, if_true, update, mirrored.handlers]
      exact ⟨⟨mirrored.symbol, rfl, removed, mirrored.asks, erased⟩,
        emit_mirror _ (.publicOrderBookUpdate _)⟩

end OrderBook

/-! ### Runs -/

def Request.mirror : Request → Request
  | .addOrder order => .addOrder order.mirror
  | .removeOrder id => .removeOrder id

def Response.mirror (response : Response) : Response where
  order := response.order.map Order.mirror
  trades := response.trades.map Trade.mirror
  events := response.events.map Event.mirror

/-- Whether a request submits nothing but an order with an id of its own and a price that has an
opposite. -/
def Request.Reversible : Request → Prop
  | .addOrder order => order.orderId ≠ 0 ∧ Price.Reversible order.price
  | .removeOrder _ => True

instance : DecidablePred Request.Reversible
  | .addOrder order => inferInstanceAs (Decidable (order.orderId ≠ 0 ∧ _))
  | .removeOrder _ => inferInstanceAs (Decidable True)

namespace Session

/-- Whether a session is another one seen in the mirror. -/
structure Mirrored (first second : Session) : Prop where
  book : first.book.Mirrored second.book
  orderIds : second.orderIds = first.orderIds
  tradeIds : second.tradeIds = first.tradeIds

theorem Effect.reversible {session : Session} {request : Request} {result : Session × Response}
    (effect : session.Effect request result) (allowed : request.Reversible)
    (reversible : session.book.Reversible) : result.1.book.Reversible where
  orders side resting member := by
    rcases effect.origin member with old | ⟨origin, inBook, amount, -, -, rfl⟩ |
      ⟨order, rfl, -, -, -, rfl⟩
    · exact reversible.orders side resting old
    · exact reversible.orders side origin inBook
    · rw [(session.book.processed_frame _).1, prepared_eq]
      exact allowed.2
  index entry member := by
    cases effect with
    | foreign => exact reversible.index entry member
    | unknown => exact reversible.index entry member
    | removed _ _ _ _ _ removed =>
      rw [removed.ordersIdMap] at member
      exact reversible.index entry (List.mem_of_mem_filter member)
    | executed order _ _ _ _ _ executed =>
      rw [executed.ordersIdMap] at member
      split_ifs at member
      · rcases FlatMap.mem_insertEntry_of member with new | old
        · rw [new, prepared_eq]
          exact allowed.2
        · exact reversible.index entry old
      · exact reversible.index entry member

/-- One call and its mirror image. -/
theorem Mirrored.step {first second : Session} (mirrored : first.Mirrored second)
    (wf : first.book.Wf) (reversible : first.book.Reversible) {request : Request}
    (allowed : request.Reversible) :
    (first.step request).1.Mirrored (second.step request.mirror).1 ∧
      (second.step request.mirror).2 = (first.step request).2.mirror := by
  obtain ⟨other, otherOrderIds, otherTradeIds⟩ := second
  obtain ⟨image, orderIdsEq, tradeIdsEq⟩ := mirrored
  change otherOrderIds = _ at orderIdsEq
  change otherTradeIds = _ at tradeIdsEq
  subst orderIdsEq tradeIdsEq
  cases request with
  | addOrder order =>
    obtain ⟨outcome, orderIds⟩ := image.addOrder wf reversible allowed.2 allowed.1
      first.orderIds first.tradeIds
    refine ⟨⟨outcome.book, orderIds, outcome.tradeIds⟩, ?_⟩
    exact congr (congrArg₂ Response.mk (congrArg some outcome.order) outcome.trades)
      outcome.events
  | removeOrder id =>
    obtain ⟨book, events⟩ := image.removeOrder wf reversible id
    exact ⟨⟨book, rfl, rfl⟩, congrArg (Response.mk none []) events⟩

variable {symbol : String} {handlers : Handlers} {orderIds tradeIds : IdGenerator}

theorem create_mirrored (symbol : String) (handlers : Handlers) (orderIds tradeIds : IdGenerator) :
    (create symbol handlers orderIds tradeIds).Mirrored
      (create symbol handlers orderIds tradeIds) :=
  ⟨OrderBook.create_mirrored symbol handlers, rfl, rfl⟩

/-- In every run of orders with ids of their own and prices that have opposites, the mirrored
requests are answered by the mirrored responses and lead to the mirrored book. -/
theorem run_mirrored {requests : List Request}
    (allowed : ∀ request ∈ requests, request.Reversible) :
    ((create symbol handlers orderIds tradeIds).run (requests.map Request.mirror)).map
        Transition.output =
      ((create symbol handlers orderIds tradeIds).run requests).map
        (fun call => call.output.mirror) ∧
    ((create symbol handlers orderIds tradeIds).final requests).book.Mirrored
      ((create symbol handlers orderIds tradeIds).final (requests.map Request.mirror)).book := by
  obtain ⟨⟨final, -⟩, outputs⟩ := Machine.run_simulation
    (motive := fun first second : Session =>
      first.Mirrored second ∧ first.book.Wf ∧ first.book.Reversible)
    Session.step Request.mirror Response.mirror
    (fun first second request related permitted => by
      obtain ⟨mirrored, wf, reversible⟩ := related
      obtain ⟨next, output⟩ := mirrored.step wf reversible permitted
      have effect := step_effect wf request
      exact ⟨⟨next, effect.wf wf, effect.reversible permitted reversible⟩, output⟩)
    allowed ⟨create_mirrored symbol handlers orderIds tradeIds,
      OrderBook.create_wf symbol handlers,
      OrderBook.create_reversible symbol handlers⟩
  exact ⟨outputs, final.book⟩

/-- The sample day with buyers for sellers, at negative prices. -/
theorem sample_mirrored :
    (sampleSession.run (sampleDay.map Request.mirror)).map Transition.output =
      (sampleSession.run sampleDay).map (fun call => call.output.mirror) ∧
    (sampleSession.final sampleDay).book.Mirrored
      (sampleSession.final (sampleDay.map Request.mirror)).book :=
  run_mirrored (by decide)

end Session

end OrderForge
