/-
This file says once what a call can do to a book. A call that adds an order takes
its fills from the opposite ladder, rests what is left of a limit order on its own
ladder, and publishes accordingly; a cancel takes an order off the ladder its index
entry names. Every later property of a run is derived from `addOrder_executed`,
`addOrder_foreign`, `removeOrder_removed` and `removeOrder_unknown`.
-/

import OrderForge.BookInvariant
import OrderForge.Session

namespace OrderForge

/-! ### The feeds -/

namespace Event

/-- The order of a private order update. -/
def order? : Event → Option Order
  | privateOrderUpdate order => some order
  | _ => none

/-- The trade of a private trade update. -/
def trade? : Event → Option Trade
  | privateTradesUpdate trade => some trade
  | _ => none

/-- The update of a public order book update. -/
def level? : Event → Option PriceLevelUpdate
  | publicOrderBookUpdate update => some update
  | _ => none

end Event

theorem filterMap_emit {Item : Type} (project : Event → Option Item) (installed : Bool)
    (event : Event) :
    (emit installed event).filterMap project =
      if installed then (project event).toList else [] := by
  cases installed
  · rfl
  · rw [emit, if_pos rfl, if_pos rfl]
    cases found : project event <;> simp [found]

theorem filterMap_flatMap_emit {Item Source : Type} (project : Event → Option Item)
    (installed : Bool) (event : Source → Event) (sources : List Source) :
    (sources.flatMap fun source => emit installed (event source)).filterMap project =
      if installed then sources.filterMap fun source => project (event source) else [] := by
  cases installed
  · have nothing : ∀ sources : List Source,
        (sources.flatMap fun source => emit false (event source)) = [] := fun sources =>
      List.flatMap_eq_nil_iff.mpr fun _ _ => rfl
    rw [nothing]
    rfl
  · induction sources with
    | nil => rfl
    | cons source rest inductionHypothesis =>
      rw [List.flatMap_cons, List.filterMap_append, inductionHypothesis, filterMap_emit]
      cases found : project (event source) <;> simp [found]

namespace OrderBook

section Feeds

variable (book : OrderBook) (engine : MatchingEngine) (updates : List PriceLevelUpdate)

/-- The events of the trades of a match. -/
theorem filterMap_tradeEvents {Item : Type} (project : Event → Option Item) (trades : List Trade)
    (silent : ∀ update, project (.publicLastTradeUpdate update) = none) :
    (trades.flatMap fun trade =>
      emit book.handlers.privateTradesUpdate (.privateTradesUpdate trade) ++
      emit book.handlers.publicLastTradeUpdate (.publicLastTradeUpdate
        ⟨book.symbol, trade.price, trade.qty, trade.crossingSide⟩)).filterMap project =
      if book.handlers.privateTradesUpdate then
        trades.filterMap fun trade => project (.privateTradesUpdate trade) else [] := by
  rw [← filterMap_flatMap_emit]
  induction trades with
  | nil => rfl
  | cons trade rest inductionHypothesis =>
    rw [List.flatMap_cons, List.flatMap_cons, List.filterMap_append, List.filterMap_append,
      List.filterMap_append, inductionHypothesis, filterMap_emit project
      book.handlers.publicLastTradeUpdate, silent, Option.toList_none, ite_self, List.append_nil]

theorem matchEvents_orders :
    (book.matchEvents engine updates).filterMap Event.order? =
      if book.handlers.privateOrderUpdate then engine.modifiedOrders else [] := by
  rw [matchEvents, List.filterMap_append, List.filterMap_append, filterMap_flatMap_emit,
    filterMap_tradeEvents _ _ _ fun _ => rfl, filterMap_flatMap_emit]
  simp [Event.order?]

theorem matchEvents_trades :
    (book.matchEvents engine updates).filterMap Event.trade? =
      if book.handlers.privateTradesUpdate then engine.trades else [] := by
  rw [matchEvents, List.filterMap_append, List.filterMap_append, filterMap_flatMap_emit,
    filterMap_tradeEvents _ _ _ fun _ => rfl, filterMap_flatMap_emit]
  simp [Event.trade?]

theorem matchEvents_levels :
    (book.matchEvents engine updates).filterMap Event.level? =
      if book.handlers.publicOrderBookUpdate then updates else [] := by
  rw [matchEvents, List.filterMap_append, List.filterMap_append, filterMap_flatMap_emit,
    filterMap_tradeEvents _ _ _ fun _ => rfl, filterMap_flatMap_emit]
  simp [Event.level?]

end Feeds

/-! ### The match -/

/-- The crossing order after its fills. -/
def afterFills (book : OrderBook) (order : Order) : Order :=
  if book.fills order = [] then order
  else order.cut ((book.fills order).map Prod.snd).sum

/-- What matching a crossing order does. -/
structure Crossed (book : OrderBook) (order : Order) (outcome : Outcome) : Prop where
  symbol : outcome.book.symbol = book.symbol
  handlers : outcome.book.handlers = book.handlers
  ordersIdMap : outcome.book.ordersIdMap = book.ordersIdMap
  wf : outcome.book.Wf
  own : outcome.book.orders order.side = book.orders order.side
  passive : outcome.book.orders order.side.opposite =
    Ladder.serve order.side.opposite.Better (book.demand order)
      (book.orders order.side.opposite)
  result : outcome.order = book.afterFills order
  trades : outcome.trades.map Trade.terms =
    (book.fills order).map (MatchingEngine.termsOf order)
  orderFeed : outcome.events.filterMap Event.order? =
    if book.handlers.privateOrderUpdate then
      (book.fills order).map fun gave => gave.1.cut gave.2 else []
  tradeFeed : outcome.events.filterMap Event.trade? =
    if book.handlers.privateTradesUpdate then outcome.trades else []
  levelFeed : ∃ updates,
    BookSide.Reported book.symbol order.side.opposite (book.orders order.side.opposite)
      (outcome.book.orders order.side.opposite) updates ∧
    outcome.events.filterMap Event.level? =
      if book.handlers.publicOrderBookUpdate then updates else []

variable {book : OrderBook} {order : Order}

theorem demand_of_marketable (marketable : book.Marketable order) :
    book.demand order = order.remaining := if_pos marketable

theorem demand_of_not (silent : ¬ book.Marketable order) : book.demand order = 0 := if_neg silent

theorem fills_of_not (silent : ¬ book.Marketable order) : book.fills order = [] := by
  rw [fills, demand_of_not silent, Greedy.taken_zero]

theorem demand_le (book : OrderBook) (order : Order) : book.demand order ≤ order.remaining := by
  rw [demand]
  split_ifs
  · exact le_refl _
  · exact Nat.zero_le _

theorem sum_fills (book : OrderBook) (order : Order) :
    ((book.fills order).map Prod.snd).sum =
      min (book.demand order) (Greedy.total Order.remaining (book.orders order.side.opposite)) :=
  Greedy.sum_taken _ _ _

/-- No order is filled beyond what it has left. -/
theorem sum_fills_le (book : OrderBook) (order : Order) :
    ((book.fills order).map Prod.snd).sum ≤ order.remaining :=
  (sum_fills book order).trans_le ((Nat.min_le_left _ _).trans (demand_le book order))

theorem afterFills_remaining (book : OrderBook) (order : Order) :
    (book.afterFills order).remaining =
      order.remaining - ((book.fills order).map Prod.snd).sum := by
  rw [afterFills]
  split_ifs with none
  · rw [none]
    rfl
  · exact order.remaining_cut _ (sum_fills_le book order)

/-- An order that is not marketable leaves everything as it is. -/
theorem unchanged_crossed (wf : book.Wf) (tradeIds : IdGenerator)
    (silent : ¬ book.Marketable order) : book.Crossed order (book.unchanged tradeIds order) where
  symbol := rfl
  handlers := rfl
  ordersIdMap := rfl
  wf := wf
  own := rfl
  passive := by
    rw [demand_of_not silent, Ladder.serve_zero]
    rfl
  result := by
    rw [afterFills, if_pos (fills_of_not silent)]
    rfl
  trades := by
    rw [fills_of_not silent]
    rfl
  orderFeed := by
    rw [fills_of_not silent]
    exact (ite_self _).symm
  tradeFeed := (ite_self _).symm
  levelFeed := ⟨[], BookSide.Reported.silent _ _ _, (ite_self _).symm⟩

/-- What the engine reports after it matched an order against a side. -/
theorem engine_report {CompFunc : Price → Price → Prop} [IsStrictTotalOrder Price CompFunc]
    {bookSide : BookSide CompFunc} {symbol : String} {side : Side}
    (wf : bookSide.Wf symbol side) (order : Order) (tradeIds : IdGenerator)
    {gave : List (Order × Nat)}
    (gaveEq : Greedy.taken Order.remaining order.remaining bookSide.orders = gave) :
    let engine := (bookSide.matchOrder (MatchingEngine.create order tradeIds)).2.1
    engine.originalOrder = (if gave = [] then order else order.cut (gave.map Prod.snd).sum) ∧
      engine.trades.map Trade.terms = gave.map (MatchingEngine.termsOf order) ∧
      engine.modifiedOrders = gave.map fun given => given.1.cut given.2 := by
  intro engine
  obtain ⟨prices, absorbed⟩ := BookSide.matchOrder_engine wf (MatchingEngine.create order tradeIds)
  change engine = _ at absorbed
  rw [show (MatchingEngine.create order tradeIds).quota = order.remaining from rfl, gaveEq]
    at absorbed
  refine ⟨?_, ?_, ?_⟩
  · rw [absorbed]
    exact MatchingEngine.absorb_originalOrder _ _
  · rw [absorbed]
    exact (MatchingEngine.absorb_trades _ _).trans (List.nil_append _)
  · rw [absorbed]
    exact (MatchingEngine.absorb_modifiedOrders _ _).trans (List.nil_append _)

theorem matchOrder_crossed (wf : book.Wf) (tradeIds : IdGenerator)
    (marketable : book.Marketable order) : book.Crossed order (book.matchOrder tradeIds order) := by
  have wanted := demand_of_marketable marketable
  cases side : order.side with
  | BUY =>
    have fillsEq : Greedy.taken Order.remaining order.remaining book.asks.orders =
        book.fills order := by
      rw [fills, wanted, side]
      rfl
    obtain ⟨original, trades, modified⟩ := engine_report wf.asks order tradeIds fillsEq
    have result : book.matchOrder tradeIds order = _ := if_pos (decide_eq_true side)
    rw [result]
    refine ⟨rfl, rfl, rfl, ?_, ?_, ?_, original, trades, ?_, ?_, ?_⟩
    · exact ⟨wf.bids, BookSide.matched_wf wf.asks rfl, wf.indexed⟩
    · rw [side]
      rfl
    · rw [side, wanted]
      exact BookSide.matched_orders wf.asks rfl
    · refine (matchEvents_orders book
        (book.asks.matchOrder (MatchingEngine.create order tradeIds)).2.1 _).trans ?_
      rw [modified]
    · exact matchEvents_trades _ _ _
    · refine ⟨_, ?_, matchEvents_levels _ _ _⟩
      rw [side]
      exact BookSide.matched_reported wf.asks rfl
  | SELL =>
    have fillsEq : Greedy.taken Order.remaining order.remaining book.bids.orders =
        book.fills order := by
      rw [fills, wanted, side]
      rfl
    obtain ⟨original, trades, modified⟩ := engine_report wf.bids order tradeIds fillsEq
    have result : book.matchOrder tradeIds order = _ := if_neg (by
      rw [Order.isBuy, side]
      decide)
    rw [result]
    refine ⟨rfl, rfl, rfl, ?_, ?_, ?_, original, trades, ?_, ?_, ?_⟩
    · exact ⟨BookSide.matched_wf wf.bids rfl, wf.asks, wf.indexed⟩
    · rw [side]
      rfl
    · rw [side, wanted]
      exact BookSide.matched_orders wf.bids rfl
    · refine (matchEvents_orders book
        (book.bids.matchOrder (MatchingEngine.create order tradeIds)).2.1 _).trans ?_
      rw [modified]
    · exact matchEvents_trades _ _ _
    · refine ⟨_, ?_, matchEvents_levels _ _ _⟩
      rw [side]
      exact BookSide.matched_reported wf.bids rfl

/-! ### Resting an order -/

/-- The book after an order came to rest, and the update of its level. -/
structure Rested (book : OrderBook) (order : Order) (result : OrderBook × PriceLevelUpdate) :
    Prop where
  symbol : result.1.symbol = book.symbol
  handlers : result.1.handlers = book.handlers
  ordersIdMap : result.1.ordersIdMap =
    book.ordersIdMap.emplace order.orderId ⟨order.orderId, order.price, order.side⟩
  wf : result.1.Wf
  own : result.1.orders order.side =
    Ladder.rest order.side.Better order (book.orders order.side)
  passive : result.1.orders order.side.opposite = book.orders order.side.opposite
  reported : BookSide.Reported book.symbol order.side (book.orders order.side)
    (result.1.orders order.side) [result.2]

theorem emplace_indexed (wf : book.Wf) (id : OrderId) (price : Price) (side : Side) :
    ∀ entry ∈ (book.ordersIdMap.emplace id ⟨id, price, side⟩).entries,
      entry.2.orderId = entry.1 := by
  intro entry member
  rcases FlatMap.mem_insertEntry_of member with same | old
  · rw [same]
  · exact wf.indexed entry old

theorem restOrder_rested (wf : book.Wf)
    (restable : BookSide.Restable book.symbol order.side order) :
    book.Rested order (book.restOrder order) := by
  cases side : order.side with
  | BUY =>
    rw [side] at restable
    have result : book.restOrder order = _ := if_pos (decide_eq_true side)
    have index := emplace_indexed wf order.orderId order.price order.side
    rw [result]
    refine ⟨rfl, rfl, rfl, ⟨BookSide.addOrder_wf wf.bids restable, wf.asks, index⟩, ?_, ?_, ?_⟩
    · rw [side]
      exact BookSide.addOrder_orders wf.bids restable
    · rw [side]
      rfl
    · rw [side]
      exact BookSide.addOrder_reported wf.bids restable
  | SELL =>
    rw [side] at restable
    have result : book.restOrder order = _ := if_neg (by
      rw [Order.isBuy, side]
      decide)
    have index := emplace_indexed wf order.orderId order.price order.side
    rw [result]
    refine ⟨rfl, rfl, rfl, ⟨wf.bids, BookSide.addOrder_wf wf.asks restable, index⟩, ?_, ?_, ?_⟩
    · rw [side]
      exact BookSide.addOrder_orders wf.asks restable
    · rw [side]
      rfl
    · rw [side]
      exact BookSide.addOrder_reported wf.asks restable

/-! ### A whole call that adds an order -/

/-- The order as the caller gets it back. -/
def processed (book : OrderBook) (order : Order) : Order :=
  if order.type ≠ .LIMIT ∧ ¬ book.Marketable order then order.setStatus .REJECTED
  else book.afterFills order

/-- Whether the call hands the order to its own side. -/
def Rests (book : OrderBook) (order : Order) : Prop :=
  order.type = .LIMIT ∧ (book.processed order).status ≠ .FILLED

instance (book : OrderBook) (order : Order) : Decidable (book.Rests order) :=
  inferInstanceAs (Decidable (_ ∧ _))

/-- What a call that adds an order does; `report` lists the orders it reports at its end. -/
structure Executed (book : OrderBook) (order : Order) (report : List Order) (outcome : Outcome) :
    Prop where
  symbol : outcome.book.symbol = book.symbol
  handlers : outcome.book.handlers = book.handlers
  ordersIdMap : outcome.book.ordersIdMap =
    if book.Rests order then
      book.ordersIdMap.emplace order.orderId ⟨order.orderId, order.price, order.side⟩
    else book.ordersIdMap
  wf : outcome.book.Wf
  own : outcome.book.orders order.side =
    if book.Rests order then
      Ladder.rest order.side.Better (book.processed order) (book.orders order.side)
    else book.orders order.side
  passive : outcome.book.orders order.side.opposite =
    Ladder.serve order.side.opposite.Better (book.demand order)
      (book.orders order.side.opposite)
  result : outcome.order = book.processed order
  trades : outcome.trades.map Trade.terms =
    (book.fills order).map (MatchingEngine.termsOf order)
  orderFeed : outcome.events.filterMap Event.order? =
    if book.handlers.privateOrderUpdate then
      ((book.fills order).map fun gave => gave.1.cut gave.2) ++ report else []
  tradeFeed : outcome.events.filterMap Event.trade? =
    if book.handlers.privateTradesUpdate then outcome.trades else []
  levelFeed : ∃ passive own,
    BookSide.Reported book.symbol order.side.opposite (book.orders order.side.opposite)
      (outcome.book.orders order.side.opposite) passive ∧
    BookSide.Reported book.symbol order.side (book.orders order.side)
      (outcome.book.orders order.side) own ∧
    outcome.events.filterMap Event.level? =
      if book.handlers.publicOrderBookUpdate then passive ++ own else []

theorem afterFills_frame (book : OrderBook) (order : Order) :
    (book.afterFills order).symbol = order.symbol ∧ (book.afterFills order).side = order.side ∧
      (book.afterFills order).price = order.price ∧
      (book.afterFills order).orderId = order.orderId ∧
      (book.afterFills order).type = order.type ∧ (book.afterFills order).qty = order.qty := by
  rw [afterFills]
  split_ifs
  · exact ⟨rfl, rfl, rfl, rfl, rfl, rfl⟩
  · exact ⟨rfl, rfl, rfl, rfl, rfl, rfl⟩

theorem processed_of_limit (limit : order.type = .LIMIT) :
    book.processed order = book.afterFills order := if_neg fun both => both.1 limit

theorem processed_of_marketable (marketable : book.Marketable order) :
    book.processed order = book.afterFills order := if_neg fun both => both.2 marketable

theorem processed_frame (book : OrderBook) (order : Order) :
    (book.processed order).price = order.price ∧
      (book.processed order).orderId = order.orderId ∧
      (book.processed order).type = order.type := by
  rw [processed]
  split_ifs
  · exact ⟨rfl, rfl, rfl⟩
  · obtain ⟨-, -, price, id, type, -⟩ := book.afterFills_frame order
    exact ⟨price, id, type⟩

theorem processed_orderId (book : OrderBook) (order : Order) :
    (book.processed order).orderId = order.orderId := (processed_frame book order).2.1

/-- What is left of an order at the end of its call. -/
theorem processed_remaining (book : OrderBook) (order : Order) :
    (book.processed order).remaining = order.remaining - ((book.fills order).map Prod.snd).sum := by
  rw [processed]
  split_ifs with rejected
  · rw [fills_of_not rejected.2]
    rfl
  · exact afterFills_remaining book order

/-- Only an order that is not filled up comes to rest. -/
theorem sum_fills_lt (positive : 0 < order.remaining) (rests : book.Rests order) :
    ((book.fills order).map Prod.snd).sum < order.remaining := by
  refine Nat.lt_of_le_of_ne (sum_fills_le book order) fun all => rests.2 ?_
  have some : book.fills order ≠ [] := fun none => by
    rw [none] at all
    exact positive.ne all
  rw [processed_of_limit rests.1, afterFills, if_neg some,
    order.status_cut _ (sum_fills_le book order), if_pos all.symm]

/-- A call that ends with its match. -/
theorem Crossed.executed {outcome : Outcome} (crossed : book.Crossed order outcome)
    (stays : ¬ book.Rests order) (processed : book.processed order = book.afterFills order) :
    book.Executed order [] outcome where
  symbol := crossed.symbol
  handlers := crossed.handlers
  ordersIdMap := by rw [if_neg stays, crossed.ordersIdMap]
  wf := crossed.wf
  own := by rw [if_neg stays, crossed.own]
  passive := crossed.passive
  result := crossed.result.trans processed.symm
  trades := crossed.trades
  orderFeed := by rw [List.append_nil, crossed.orderFeed]
  tradeFeed := crossed.tradeFeed
  levelFeed := by
    obtain ⟨updates, reported, feed⟩ := crossed.levelFeed
    refine ⟨updates, [], reported, ?_, by rw [List.append_nil, feed]⟩
    rw [crossed.own]
    exact BookSide.Reported.silent _ _ _

theorem rejectOrder_executed (wf : book.Wf) (tradeIds : IdGenerator)
    (taker : order.type ≠ .LIMIT) (silent : ¬ book.Marketable order) :
    book.Executed order [] (book.rejectOrder tradeIds order) := by
  have stays : ¬ book.Rests order := fun rests => taker rests.1
  have unchanged := unchanged_crossed wf tradeIds silent
  refine ⟨rfl, rfl, by rw [if_neg stays]; rfl, wf, by rw [if_neg stays]; rfl, unchanged.passive,
    ?_, unchanged.trades, by rw [List.append_nil]; exact unchanged.orderFeed,
    unchanged.tradeFeed, ?_⟩
  · rw [processed, if_pos ⟨taker, silent⟩]
    rfl
  · obtain ⟨updates, reported, feed⟩ := unchanged.levelFeed
    exact ⟨updates, [], reported, BookSide.Reported.silent _ _ _,
      by rw [List.append_nil]; exact feed⟩

theorem marketOrder_rejects_iff (wf : book.Wf) (order : Order) :
    (order.isBuy && book.asks.empty || !order.isBuy && book.bids.empty) = true ↔
      book.orders order.side.opposite = [] := by
  rw [Order.isBuy]
  cases order.side with
  | BUY =>
    refine Iff.trans ?_ (BookSide.empty_iff wf.asks)
    simp
  | SELL =>
    refine Iff.trans ?_ (BookSide.empty_iff wf.bids)
    simp

theorem marketOrder_executed (wf : book.Wf) (tradeIds : IdGenerator)
    (market : order.type = .MARKET) :
    book.Executed order [] (book.marketOrder tradeIds order) := by
  have taker : order.type ≠ .LIMIT := by
    rw [market]
    decide
  have marketable : book.Marketable order ↔ book.orders order.side.opposite ≠ [] := by
    rw [Marketable, market]
  rw [marketOrder]
  split_ifs with rejects
  · refine rejectOrder_executed wf tradeIds taker fun matches_ => ?_
    exact marketable.mp matches_ ((marketOrder_rejects_iff wf order).mp rejects)
  · have serves := marketable.mpr fun none => rejects ((marketOrder_rejects_iff wf order).mpr none)
    exact (matchOrder_crossed wf tradeIds serves).executed (fun rests => taker rests.1)
      (processed_of_marketable serves)

theorem marketable_iff_crossing (wf : book.Wf) (priced : order.type ≠ .MARKET) :
    book.Marketable order ↔ book.isCrossingOrder order = true := by
  rw [isCrossingOrder_iff wf, Marketable]
  cases type : order.type with
  | MARKET => exact absurd type priced
  | LIMIT => rfl
  | FILL_AND_KILL => rfl

theorem fillAndKillOrder_executed (wf : book.Wf) (tradeIds : IdGenerator)
    (kill : order.type = .FILL_AND_KILL) :
    book.Executed order [] (book.fillAndKillOrder tradeIds order) := by
  have taker : order.type ≠ .LIMIT := by
    rw [kill]
    decide
  have crossing : book.Marketable order ↔ _ := marketable_iff_crossing wf (by
    rw [kill]
    decide)
  rw [fillAndKillOrder]
  split_ifs with crosses
  · have serves := crossing.mpr crosses
    exact (matchOrder_crossed wf tradeIds serves).executed (fun rests => taker rests.1)
      (processed_of_marketable serves)
  · exact rejectOrder_executed wf tradeIds taker fun serves => crosses (crossing.mp serves)

/-- The first half of a limit order: it is matched if it crosses. -/
theorem matched_crossed (wf : book.Wf) (tradeIds : IdGenerator) (priced : order.type ≠ .MARKET) :
    book.Crossed order (if book.isCrossingOrder order then book.matchOrder tradeIds order
      else book.unchanged tradeIds order) := by
  have crossing : book.Marketable order ↔ _ := marketable_iff_crossing wf priced
  split_ifs with crosses
  · exact matchOrder_crossed wf tradeIds (crossing.mpr crosses)
  · exact unchanged_crossed wf tradeIds fun serves => crosses (crossing.mp serves)

theorem limitOrder_executed (wf : book.Wf) (tradeIds : IdGenerator) (limit : order.type = .LIMIT)
    (own : order.symbol = book.symbol) :
    book.Executed order [] (book.limitOrder tradeIds order) := by
  have crossed := matched_crossed wf tradeIds (by
    rw [limit]
    decide)
  have processed : book.processed order = _ := processed_of_limit limit
  rw [limitOrder]
  generalize (if book.isCrossingOrder order then book.matchOrder tradeIds order
    else book.unchanged tradeIds order) = outcome at crossed ⊢
  by_cases filled : outcome.order.status = .FILLED
  · rw [if_pos filled]
    refine crossed.executed (fun rests => rests.2 ?_) processed
    rw [processed, ← crossed.result, filled]
  rw [if_neg filled]
  obtain ⟨symbolEq, sideEq, priceEq, idEq, typeEq, -⟩ := book.afterFills_frame order
  have rests : book.Rests order := ⟨limit, by rwa [processed, ← crossed.result]⟩
  rw [crossed.result] at filled ⊢
  have restable : BookSide.Restable outcome.book.symbol (book.afterFills order).side
      (book.afterFills order) :=
    ⟨symbolEq.trans (own.trans crossed.symbol.symm), rfl, typeEq.trans limit, filled⟩
  have rested := restOrder_rested crossed.wf restable
  have ownOrders := rested.own
  have passiveOrders := rested.passive
  have reported := rested.reported
  rw [sideEq, crossed.own] at ownOrders
  rw [sideEq] at passiveOrders
  rw [sideEq, crossed.own, crossed.symbol] at reported
  refine ⟨rested.symbol.trans crossed.symbol, rested.handlers.trans crossed.handlers, ?_,
    rested.wf, ?_, ?_, ?_, crossed.trades, ?_, ?_, ?_⟩
  · rw [if_pos rests, ← crossed.ordersIdMap]
    refine rested.ordersIdMap.trans ?_
    rw [idEq, priceEq, sideEq]
  · rw [if_pos rests, processed]
    exact ownOrders
  · exact passiveOrders.trans crossed.passive
  · exact processed.symm
  · rw [List.append_nil, ← crossed.orderFeed, List.filterMap_append, filterMap_emit]
    simp [Event.order?]
  · rw [← crossed.tradeFeed, List.filterMap_append, filterMap_emit]
    simp [Event.trade?]
  · obtain ⟨updates, passiveReported, feed⟩ := crossed.levelFeed
    refine ⟨updates, _, ?_, reported, ?_⟩
    · rw [passiveOrders]
      exact passiveReported
    · rw [List.filterMap_append, feed, filterMap_emit, rested.handlers,
        crossed.handlers]
      cases book.handlers.publicOrderBookUpdate <;> simp [Event.level?]

theorem executeOrder_executed (wf : book.Wf) (tradeIds : IdGenerator)
    (own : order.symbol = book.symbol) :
    book.Executed order [] (book.executeOrder tradeIds order) := by
  rw [executeOrder]
  cases type : order.type with
  | MARKET => exact marketOrder_executed wf tradeIds type
  | FILL_AND_KILL => exact fillAndKillOrder_executed wf tradeIds type
  | LIMIT => exact limitOrder_executed wf tradeIds type own

/-- The order that reaches the `switch`. -/
def prepared (book : OrderBook) (orderIds : IdGenerator) (order : Order) : Order :=
  (book.prepareOrder orderIds order).1

theorem prepared_eq (book : OrderBook) (orderIds : IdGenerator) (order : Order) :
    book.prepared orderIds order =
      { order with
        symbol := book.symbol
        orderId := if order.orderId = 0 then orderIds.generateId.1 else order.orderId } := by
  rw [prepared, prepareOrder]
  by_cases zero : order.orderId = 0
  · have zero' : (order.setSymbol book.symbol).orderId = 0 := zero
    simp only [zero, zero', if_true]
    rfl
  · have fixed : (order.setSymbol book.symbol).orderId ≠ 0 := zero
    simp only [zero, fixed, if_false]
    rfl

/-- An order with an id of its own reaches the `switch` as it is. -/
theorem prepared_of_id {orderIds : IdGenerator} (own : order.symbol = book.symbol)
    (identified : order.orderId ≠ 0) : book.prepared orderIds order = order := by
  rw [prepared_eq, if_neg identified, ← own]

/-- An order of the book's symbol is executed, and reported at the end. -/
theorem addOrder_own (orderIds tradeIds : IdGenerator) (own : order.symbol = book.symbol) :
    (book.addOrder orderIds tradeIds order).1 =
      { book.executeOrder tradeIds (book.prepared orderIds order) with
        events := (book.executeOrder tradeIds (book.prepared orderIds order)).events ++
          emit book.handlers.privateOrderUpdate (.privateOrderUpdate
            (book.executeOrder tradeIds (book.prepared orderIds order)).order) } := by
  have accepted : order.isSameSymbol book.symbol = true := decide_eq_true own.symm
  rw [addOrder, if_pos accepted]
  rfl

theorem addOrder_executed (wf : book.Wf) (orderIds tradeIds : IdGenerator)
    (own : order.symbol = book.symbol) :
    book.Executed (book.prepared orderIds order)
      [book.processed (book.prepared orderIds order)]
      (book.addOrder orderIds tradeIds order).1 := by
  have symbol : (book.prepared orderIds order).symbol = book.symbol := by rw [prepared_eq]
  have executed := executeOrder_executed wf tradeIds symbol
  rw [addOrder_own orderIds tradeIds own]
  refine ⟨executed.symbol, executed.handlers, executed.ordersIdMap, executed.wf, executed.own,
    executed.passive, executed.result, executed.trades, ?_, ?_, ?_⟩
  · rw [List.filterMap_append, executed.orderFeed, filterMap_emit, executed.result]
    cases book.handlers.privateOrderUpdate <;> simp [Event.order?]
  · rw [List.filterMap_append, executed.tradeFeed, filterMap_emit]
    simp [Event.trade?]
  · obtain ⟨passive, ownUpdates, passiveReported, ownReported, feed⟩ := executed.levelFeed
    refine ⟨passive, ownUpdates, passiveReported, ownReported, ?_⟩
    rw [List.filterMap_append, feed, filterMap_emit]
    simp [Event.level?]

/-- An order of another symbol is ignored. -/
theorem addOrder_foreign (orderIds tradeIds : IdGenerator) (foreign : order.symbol ≠ book.symbol) :
    book.addOrder orderIds tradeIds order = (book.unchanged tradeIds order, orderIds) := by
  rw [addOrder, if_neg]
  rw [Order.isSameSymbol, decide_eq_true_iff]
  exact Ne.symm foreign

/-! ### A cancel -/

/-- What a cancel does when the index has an entry. -/
structure Removed (book : OrderBook) (helper : FindOrderHelper)
    (result : OrderBook × List Event) : Prop where
  symbol : result.1.symbol = book.symbol
  handlers : result.1.handlers = book.handlers
  ordersIdMap : result.1.ordersIdMap = book.ordersIdMap.erase helper.orderId
  wf : result.1.Wf
  own : result.1.orders helper.side =
    Ladder.cancel helper.price helper.orderId (book.orders helper.side)
  other : result.1.orders helper.side.opposite = book.orders helper.side.opposite
  orderFeed : result.2.filterMap Event.order? = []
  tradeFeed : result.2.filterMap Event.trade? = []
  levelFeed : ∃ update,
    BookSide.Reported book.symbol helper.side (book.orders helper.side)
      (result.1.orders helper.side) [update] ∧
    result.2.filterMap Event.level? =
      if book.handlers.publicOrderBookUpdate then [update] else []

theorem removeOrder_unknown {id : OrderId} (unknown : book.ordersIdMap.find? id = none) :
    book.removeOrder id = (book, []) := by
  rw [removeOrder, unknown]

theorem Wf.index_orderId (wf : book.Wf) {id : OrderId} {helper : FindOrderHelper}
    (found : book.ordersIdMap.find? id = some helper) : helper.orderId = id :=
  wf.indexed (id, helper) ((FlatMap.find?_eq_some _).mp found)

/-- A cancel publishes the update of a level and nothing else. -/
theorem emit_level (installed : Bool) (update : PriceLevelUpdate) :
    (emit installed (.publicOrderBookUpdate update)).filterMap Event.order? = [] ∧
      (emit installed (.publicOrderBookUpdate update)).filterMap Event.trade? = [] ∧
      (emit installed (.publicOrderBookUpdate update)).filterMap Event.level? =
        if installed then [update] else [] := by
  refine ⟨?_, ?_, filterMap_emit _ _ _⟩
  · rw [filterMap_emit]
    exact ite_self _
  · rw [filterMap_emit]
    exact ite_self _

theorem removeOrder_removed (wf : book.Wf) {id : OrderId} {helper : FindOrderHelper}
    (found : book.ordersIdMap.find? id = some helper) :
    book.Removed helper (book.removeOrder id) := by
  have own := wf.index_orderId found
  subst own
  have index : ∀ entry ∈ (book.ordersIdMap.erase helper.orderId).entries,
      entry.2.orderId = entry.1 := fun entry member =>
    wf.indexed entry (List.mem_of_mem_filter member)
  rw [removeOrder, found]
  cases side : helper.side with
  | BUY =>
    simp only [side, if_true]
    obtain ⟨orders, trades, levels⟩ := emit_level book.handlers.publicOrderBookUpdate
      (book.bids.removeOrder helper).2
    refine ⟨rfl, rfl, rfl, ⟨BookSide.removeOrder_wf wf.bids helper, wf.asks, index⟩, ?_, ?_,
      orders, trades, _, ?_, levels⟩
    · rw [side]
      exact BookSide.removeOrder_orders wf.bids helper
    · rw [side]
      rfl
    · rw [side]
      exact BookSide.removeOrder_reported wf.bids helper
  | SELL =>
    simp only [side, reduceCtorEq, if_false]
    obtain ⟨orders, trades, levels⟩ := emit_level book.handlers.publicOrderBookUpdate
      (book.asks.removeOrder helper).2
    refine ⟨rfl, rfl, rfl, ⟨wf.bids, BookSide.removeOrder_wf wf.asks helper, index⟩, ?_, ?_,
      orders, trades, _, ?_, levels⟩
    · rw [side]
      exact BookSide.removeOrder_orders wf.asks helper
    · rw [side]
      rfl
    · rw [side]
      exact BookSide.removeOrder_reported wf.asks helper

/-- After a cancel nothing rests that did not rest before. -/
theorem Removed.mem_before {helper : FindOrderHelper} {result : OrderBook × List Event}
    (removed : book.Removed helper result) {side : Side} {resting : Order}
    (member : resting ∈ result.1.orders side) : resting ∈ book.orders side := by
  rcases Side.eq_or_eq_opposite side helper.side with same | same
  · rw [same] at member ⊢
    rw [removed.own] at member
    exact Ladder.mem_of_cancel member
  · rw [same] at member ⊢
    rwa [removed.other] at member

end OrderBook

end OrderForge
