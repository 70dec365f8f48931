/-
This file models the order book. A call takes the book and the id generators to the
book afterwards, the caller's order afterwards (`add_order` takes it by reference),
the trades its matching engine made and the events it published, in order.

A feed handler is modelled by whether it is installed: a call of an installed
handler is an event. The account handler is never called. `orders_id_map_` is
never iterated, so it is kept as the sorted list of its entries.
-/

import Mathlib.Order.RelClasses
import OrderForge.BookSide

namespace OrderForge

/-- `BookSide<std::greater<>>`. -/
abbrev BookSideBid := BookSide (· > ·)

/-- `BookSide<std::less<>>`. -/
abbrev BookSideAsk := BookSide (· < ·)

/-- `OrdersIdMap`. -/
abbrev OrdersIdMap := FlatMap (fun first second : OrderId => first < second) FindOrderHelper

/-- Which feed handlers are installed. -/
structure Handlers where
  privateOrderUpdate : Bool
  privateTradesUpdate : Bool
  publicOrderBookUpdate : Bool
  publicLastTradeUpdate : Bool

/-- One call of a feed handler. -/
inductive Event
  | privateOrderUpdate (order : Order)
  | privateTradesUpdate (trade : Trade)
  | publicOrderBookUpdate (update : PriceLevelUpdate)
  | publicLastTradeUpdate (update : LastTradeUpdate)
deriving DecidableEq

structure OrderBook where
  symbol : String
  bids : BookSideBid
  asks : BookSideAsk
  ordersIdMap : OrdersIdMap
  handlers : Handlers

/-- What a call that adds an order leaves behind. -/
structure Outcome where
  book : OrderBook
  tradeIds : IdGenerator
  order : Order
  trades : List Trade
  events : List Event

/-- An event, if its handler is installed. -/
def emit (installed : Bool) (event : Event) : List Event := if installed then [event] else []

namespace OrderBook

def create (symbol : String) (handlers : Handlers) : OrderBook where
  symbol := symbol
  bids := BookSide.create symbol .BUY
  asks := BookSide.create symbol .SELL
  ordersIdMap := FlatMap.empty
  handlers := handlers

/-- The events that end `match_order`: the changed passive orders, then the trades, then the
levels. -/
def matchEvents (book : OrderBook) (engine : MatchingEngine) (updates : List PriceLevelUpdate) :
    List Event :=
  engine.modifiedOrders.flatMap (fun order =>
    emit book.handlers.privateOrderUpdate (.privateOrderUpdate order)) ++
  engine.trades.flatMap (fun trade =>
    emit book.handlers.privateTradesUpdate (.privateTradesUpdate trade) ++
    emit book.handlers.publicLastTradeUpdate (.publicLastTradeUpdate
      ⟨book.symbol, trade.price, trade.qty, trade.crossingSide⟩)) ++
  updates.flatMap (fun update =>
    emit book.handlers.publicOrderBookUpdate (.publicOrderBookUpdate update))

/-- `OrderBook::match_order`. -/
def matchOrder (book : OrderBook) (tradeIds : IdGenerator) (order : Order) : Outcome :=
  let engine := MatchingEngine.create order tradeIds
  if order.isBuy then
    let (asks, engine, updates) := book.asks.matchOrder engine
    { book := { book with asks := asks.removeMarkedOrderNodes engine.removeLevels }
      tradeIds := engine.tradeIds
      order := engine.originalOrder
      trades := engine.trades
      events := book.matchEvents engine updates }
  else
    let (bids, engine, updates) := book.bids.matchOrder engine
    { book := { book with bids := bids.removeMarkedOrderNodes engine.removeLevels }
      tradeIds := engine.tradeIds
      order := engine.originalOrder
      trades := engine.trades
      events := book.matchEvents engine updates }

/-- `OrderBook::is_crossing_order`. -/
def isCrossingOrder (book : OrderBook) (order : Order) : Bool :=
  if order.isBuy then
    match book.asks.bestPrice with
    | none => false
    | some oppositeBestPrice => order.price ≥ oppositeBestPrice
  else
    match book.bids.bestPrice with
    | none => false
    | some oppositeBestPrice => order.price ≤ oppositeBestPrice

/-- A call that changes nothing but the order itself. -/
def unchanged (book : OrderBook) (tradeIds : IdGenerator) (order : Order) : Outcome where
  book := book
  tradeIds := tradeIds
  order := order
  trades := []
  events := []

/-- `OrderBook::reject_order`. -/
def rejectOrder (book : OrderBook) (tradeIds : IdGenerator) (order : Order) : Outcome :=
  book.unchanged tradeIds (order.setStatus .REJECTED)

/-- `OrderBook::add_order_helper`: `emplace` keeps an entry that is already there. -/
def addOrderHelper (book : OrderBook) (price : Price) (orderId : OrderId) (side : Side) :
    OrderBook :=
  { book with ordersIdMap := book.ordersIdMap.emplace orderId ⟨orderId, price, side⟩ }

/-- The end of `limit_order`: the order is handed to its own side and to the id index. -/
def restOrder (book : OrderBook) (order : Order) : OrderBook × PriceLevelUpdate :=
  if order.isBuy then
    let (bids, update) := book.bids.addOrder order
    ({ book with bids }.addOrderHelper order.price order.orderId order.side, update)
  else
    let (asks, update) := book.asks.addOrder order
    ({ book with asks }.addOrderHelper order.price order.orderId order.side, update)

/-- `OrderBook::limit_order`. -/
def limitOrder (book : OrderBook) (tradeIds : IdGenerator) (order : Order) : Outcome :=
  let outcome :=
    if book.isCrossingOrder order then book.matchOrder tradeIds order
    else book.unchanged tradeIds order
  if outcome.order.status = .FILLED then outcome
  else
    let (book, update) := outcome.book.restOrder outcome.order
    { outcome with
      book := book
      events := outcome.events ++
        emit book.handlers.publicOrderBookUpdate (.publicOrderBookUpdate update) }

/-- `OrderBook::market_order`. -/
def marketOrder (book : OrderBook) (tradeIds : IdGenerator) (order : Order) : Outcome :=
  if order.isBuy && book.asks.empty || !order.isBuy && book.bids.empty then
    book.rejectOrder tradeIds order
  else book.matchOrder tradeIds order

/-- `OrderBook::fill_and_kill_order`. -/
def fillAndKillOrder (book : OrderBook) (tradeIds : IdGenerator) (order : Order) : Outcome :=
  if book.isCrossingOrder order then book.matchOrder tradeIds order
  else book.rejectOrder tradeIds order

/-- The `switch` of `add_order`. -/
def executeOrder (book : OrderBook) (tradeIds : IdGenerator) (order : Order) : Outcome :=
  match order.type with
  | .MARKET => book.marketOrder tradeIds order
  | .FILL_AND_KILL => book.fillAndKillOrder tradeIds order
  | .LIMIT => book.limitOrder tradeIds order

/-- The symbol and the id an order has when it reaches the `switch`, and the generator of
order ids afterwards. -/
def prepareOrder (book : OrderBook) (orderIds : IdGenerator) (order : Order) :
    Order × IdGenerator :=
  let order := order.setSymbol book.symbol
  if order.orderId = 0 then
    let (orderId, orderIds) := orderIds.generateId
    ({ order with orderId }, orderIds)
  else (order, orderIds)

/-- `OrderBook::add_order`, with the generator of order ids afterwards. -/
def addOrder (book : OrderBook) (orderIds tradeIds : IdGenerator) (order : Order) :
    Outcome × IdGenerator :=
  if order.isSameSymbol book.symbol then
    let (order, orderIds) := book.prepareOrder orderIds order
    let outcome := book.executeOrder tradeIds order
    ({ outcome with
      events := outcome.events ++
        emit book.handlers.privateOrderUpdate (.privateOrderUpdate outcome.order) }, orderIds)
  else (book.unchanged tradeIds order, orderIds)

/-- `OrderBook::remove_order`. -/
def removeOrder (book : OrderBook) (id : OrderId) : OrderBook × List Event :=
  match book.ordersIdMap.find? id with
  | some helper =>
    let (book, update) :=
      if helper.side = .BUY then
        let (bids, update) := book.bids.removeOrder helper
        ({ book with bids }, update)
      else
        let (asks, update) := book.asks.removeOrder helper
        ({ book with asks }, update)
    ({ book with ordersIdMap := book.ordersIdMap.erase id },
      emit book.handlers.publicOrderBookUpdate (.publicOrderBookUpdate update))
  | none => (book, [])

end OrderBook

end OrderForge
