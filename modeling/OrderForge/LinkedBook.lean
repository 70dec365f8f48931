/-
This file models an order book at the level of its pointers: the flat maps of a book
hold addresses of levels, and all books of a process share the pool of the order
nodes and the generators of ids. A call has no result when it follows a pointer that
leads nowhere.
-/

import OrderForge.LinkedLevel
import OrderForge.Process

namespace OrderForge

/-- `OrderBookDataMap<CompFunc>`, with the pointers it keeps. -/
structure LinkedDataMap (CompFunc : Price → Price → Prop) where
  symbol : String
  side : Side
  bookCont : FlatMap CompFunc PriceLvlPtr

namespace LinkedDataMap

variable {CompFunc : Price → Price → Prop} [DecidableRel CompFunc]
  [IsStrictTotalOrder Price CompFunc]

def create (symbol : String) (side : Side) : LinkedDataMap CompFunc where
  symbol := symbol
  side := side
  bookCont := FlatMap.empty

def empty (levels : LinkedDataMap CompFunc) : Bool := levels.bookCont.isEmpty

def bestPrice (levels : LinkedDataMap CompFunc) : Option Price :=
  levels.bookCont.begin?.map Prod.fst

/-- `add_book_level`: the level is made before the map is asked. -/
def addBookLevel (levels : LinkedDataMap CompFunc) (heap : LevelHeap) (price : Price) :
    LevelHeap × LinkedDataMap CompFunc × PriceLvlPtr :=
  let (ptr, heap) := heap.newLevel (LinkedLevel.create levels.symbol price levels.side)
  let bookCont := levels.bookCont.emplace price ptr
  (heap, { levels with bookCont }, (bookCont.find? price).getD ptr)

def getBookLevel (levels : LinkedDataMap CompFunc) (heap : LevelHeap) (price : Price) :
    LevelHeap × LinkedDataMap CompFunc × PriceLvlPtr :=
  match levels.bookCont.find? price with
  | some ptr => (heap, levels, ptr)
  | none => levels.addBookLevel heap price

/-- `remove_book_level`: the level itself stays where it is. -/
def removeBookLevel (levels : LinkedDataMap CompFunc) (price : Price) : LinkedDataMap CompFunc :=
  { levels with bookCont := levels.bookCont.erase price }

end LinkedDataMap

/-- `BookSide<CompFunc>`, with the pointers it keeps. -/
structure LinkedSide (CompFunc : Price → Price → Prop) where
  side : Side
  levels : LinkedDataMap CompFunc

namespace LinkedSide

variable {CompFunc : Price → Price → Prop} [DecidableRel CompFunc]
  [IsStrictTotalOrder Price CompFunc]

def create (symbol : String) (side : Side) : LinkedSide CompFunc where
  side := side
  levels := LinkedDataMap.create symbol side

def empty (bookSide : LinkedSide CompFunc) : Bool := bookSide.levels.empty

def bestPrice (bookSide : LinkedSide CompFunc) : Option Price := bookSide.levels.bestPrice

/-- `BookSide::add_order`. -/
def addOrder (bookSide : LinkedSide CompFunc) (heap : LevelHeap) (order : Order) :
    Option (LevelHeap × LinkedSide CompFunc × PriceLevelUpdate) :=
  let (heap, levels, ptr) := bookSide.levels.getBookLevel heap order.price
  (heap.call ptr fun level pool => level.addOrder pool order).map fun (heap, update) =>
    (heap, { bookSide with levels }, update)

/-- `BookSide::remove_order`. -/
def removeOrder (bookSide : LinkedSide CompFunc) (heap : LevelHeap) (helper : FindOrderHelper) :
    Option (LevelHeap × LinkedSide CompFunc × PriceLevelUpdate) :=
  let (heap, levels, ptr) := bookSide.levels.getBookLevel heap helper.price
  (heap.call ptr fun level pool => level.removeOrder pool helper.orderId).map
    fun (heap, update) =>
      let levels :=
        if update.totalQuantity.value = 0 then levels.removeBookLevel update.price else levels
      (heap, { bookSide with levels }, update)

/-- What the first loop of `match_order` changes. -/
structure Scan where
  heap : LevelHeap
  engine : LinkedEngine
  updates : List PriceLevelUpdate

/-- The body of the first loop of `match_order`. -/
def matchLevel (scan : Scan) (entry : Price × PriceLvlPtr) : Option Scan :=
  if scan.engine.hasRemainingQty then
    (scan.heap.call entry.2 fun level pool =>
      level.matchOrder entry.2 pool scan.engine).map fun (heap, engine, update) =>
        ⟨heap, engine, scan.updates ++ [update]⟩
  else some scan

/-- The body of the second loop of `match_order`. -/
def removeIfEmpty (levels : LinkedDataMap CompFunc) (update : PriceLevelUpdate) :
    LinkedDataMap CompFunc :=
  if update.totalQuantity.value = 0 then levels.removeBookLevel update.price else levels

/-- `BookSide::match_order`. -/
def matchOrder (bookSide : LinkedSide CompFunc) (heap : LevelHeap) (engine : LinkedEngine) :
    Option (LevelHeap × LinkedSide CompFunc × LinkedEngine × List PriceLevelUpdate) :=
  (bookSide.levels.bookCont.entries.foldlM matchLevel ⟨heap, engine, []⟩).map fun scan =>
    (scan.heap, { bookSide with levels := scan.updates.foldl removeIfEmpty bookSide.levels },
      scan.engine, scan.updates)

end LinkedSide

/-- `OrderBook`, with the pointers it keeps. -/
structure LinkedBook where
  symbol : String
  bids : LinkedSide (· > ·)
  asks : LinkedSide (· < ·)
  ordersIdMap : OrdersIdMap
  handlers : Handlers

/-- What a call that adds an order leaves behind. -/
structure LinkedOutcome where
  heap : LevelHeap
  book : LinkedBook
  tradeIds : IdGenerator
  order : Order
  trades : List Trade
  events : List Event

namespace LinkedBook

scoped instance bidsOrdered : IsStrictTotalOrder Price (· > ·) := inferInstance

scoped instance asksOrdered : IsStrictTotalOrder Price (· < ·) := inferInstance

def create (symbol : String) (handlers : Handlers) : LinkedBook where
  symbol := symbol
  bids := LinkedSide.create symbol .BUY
  asks := LinkedSide.create symbol .SELL
  ordersIdMap := FlatMap.empty
  handlers := handlers

/-- The end of `match_order`: the changed passive orders are published where they are, the marked
nodes are unlinked, and then the trades and the levels are published. -/
def finishMatch (book : LinkedBook) (heap : LevelHeap) (engine : LinkedEngine)
    (updates : List PriceLevelUpdate) : Option (LevelHeap × List Event) :=
  (engine.modifiedOrders.mapM fun modifiedOrder =>
    (heap.pool.read (some modifiedOrder)).map fun node => node.content.2).bind fun modified =>
    (engine.removeLevels.foldlM LevelHeap.removeMarkedOrderNodes heap).map fun heap =>
      (heap,
        modified.flatMap (fun order =>
          emit book.handlers.privateOrderUpdate (.privateOrderUpdate order)) ++
        engine.trades.flatMap (fun trade =>
          emit book.handlers.privateTradesUpdate (.privateTradesUpdate trade) ++
          emit book.handlers.publicLastTradeUpdate (.publicLastTradeUpdate
            ⟨book.symbol, trade.price, trade.qty, trade.crossingSide⟩)) ++
        updates.flatMap (fun update =>
          emit book.handlers.publicOrderBookUpdate (.publicOrderBookUpdate update)))

/-- `OrderBook::match_order`. -/
def matchOrder (book : LinkedBook) (heap : LevelHeap) (tradeIds : IdGenerator) (order : Order) :
    Option LinkedOutcome :=
  let engine := LinkedEngine.create order tradeIds
  if order.isBuy then
    (book.asks.matchOrder heap engine).bind fun (heap, asks, engine, updates) =>
      (book.finishMatch heap engine updates).map fun (heap, events) => {
        heap := heap
        book := { book with asks }
        tradeIds := engine.tradeIds
        order := engine.originalOrder
        trades := engine.trades
        events := events }
  else
    (book.bids.matchOrder heap engine).bind fun (heap, bids, engine, updates) =>
      (book.finishMatch heap engine updates).map fun (heap, events) => {
        heap := heap
        book := { book with bids }
        tradeIds := engine.tradeIds
        order := engine.originalOrder
        trades := engine.trades
        events := events }

/-- `OrderBook::is_crossing_order`. -/
def isCrossingOrder (book : LinkedBook) (order : Order) : Bool :=
  if order.isBuy then
    match book.asks.bestPrice with
    | none => false
    | some oppositeBestPrice => order.price ≥ oppositeBestPrice
  else
    match book.bids.bestPrice with
    | none => false
    | some oppositeBestPrice => order.price ≤ oppositeBestPrice

/-- A call that changes nothing but the order itself. -/
def unchanged (book : LinkedBook) (heap : LevelHeap) (tradeIds : IdGenerator) (order : Order) :
    LinkedOutcome where
  heap := heap
  book := book
  tradeIds := tradeIds
  order := order
  trades := []
  events := []

/-- `OrderBook::reject_order`. -/
def rejectOrder (book : LinkedBook) (heap : LevelHeap) (tradeIds : IdGenerator) (order : Order) :
    LinkedOutcome :=
  book.unchanged heap tradeIds (order.setStatus .REJECTED)

/-- `OrderBook::add_order_helper`. -/
def addOrderHelper (book : LinkedBook) (price : Price) (orderId : OrderId) (side : Side) :
    LinkedBook :=
  { book with ordersIdMap := book.ordersIdMap.emplace orderId ⟨orderId, price, side⟩ }

/-- The end of `limit_order`. -/
def restOrder (book : LinkedBook) (heap : LevelHeap) (order : Order) :
    Option (LevelHeap × LinkedBook × PriceLevelUpdate) :=
  if order.isBuy then
    (book.bids.addOrder heap order).map fun (heap, bids, update) =>
      (heap, { book with bids }.addOrderHelper order.price order.orderId order.side, update)
  else
    (book.asks.addOrder heap order).map fun (heap, asks, update) =>
      (heap, { book with asks }.addOrderHelper order.price order.orderId order.side, update)

/-- `OrderBook::limit_order`. -/
def limitOrder (book : LinkedBook) (heap : LevelHeap) (tradeIds : IdGenerator) (order : Order) :
    Option LinkedOutcome :=
  (if book.isCrossingOrder order then book.matchOrder heap tradeIds order
    else some (book.unchanged heap tradeIds order)).bind fun outcome =>
    if outcome.order.status = .FILLED then some outcome
    else
      (outcome.book.restOrder outcome.heap outcome.order).map fun (heap, book, update) =>
        { outcome with
          heap := heap
          book := book
          events := outcome.events ++
            emit book.handlers.publicOrderBookUpdate (.publicOrderBookUpdate update) }

/-- `OrderBook::market_order`. -/
def marketOrder (book : LinkedBook) (heap : LevelHeap) (tradeIds : IdGenerator) (order : Order) :
    Option LinkedOutcome :=
  if order.isBuy && book.asks.empty || !order.isBuy && book.bids.empty then
    some (book.rejectOrder heap tradeIds order)
  else book.matchOrder heap tradeIds order

/-- `OrderBook::fill_and_kill_order`. -/
def fillAndKillOrder (book : LinkedBook) (heap : LevelHeap) (tradeIds : IdGenerator)
    (order : Order) : Option LinkedOutcome :=
  if book.isCrossingOrder order then book.matchOrder heap tradeIds order
  else some (book.rejectOrder heap tradeIds order)

/-- The `switch` of `add_order`. -/
def executeOrder (book : LinkedBook) (heap : LevelHeap) (tradeIds : IdGenerator) (order : Order) :
    Option LinkedOutcome :=
  match order.type with
  | .MARKET => book.marketOrder heap tradeIds order
  | .FILL_AND_KILL => book.fillAndKillOrder heap tradeIds order
  | .LIMIT => book.limitOrder heap tradeIds order

/-- The symbol and the id an order has when it reaches the `switch`, and the generator of
order ids afterwards. -/
def prepareOrder (book : LinkedBook) (orderIds : IdGenerator) (order : Order) :
    Order × IdGenerator :=
  let order := order.setSymbol book.symbol
  if order.orderId = 0 then
    let (orderId, orderIds) := orderIds.generateId
    ({ order with orderId }, orderIds)
  else (order, orderIds)

/-- `OrderBook::add_order`, with the generator of order ids afterwards. -/
def addOrder (book : LinkedBook) (heap : LevelHeap) (orderIds tradeIds : IdGenerator)
    (order : Order) : Option (LinkedOutcome × IdGenerator) :=
  if order.isSameSymbol book.symbol then
    let (order, orderIds) := book.prepareOrder orderIds order
    (book.executeOrder heap tradeIds order).map fun outcome =>
      ({ outcome with
        events := outcome.events ++
          emit book.handlers.privateOrderUpdate (.privateOrderUpdate outcome.order) }, orderIds)
  else some (book.unchanged heap tradeIds order, orderIds)

/-- `OrderBook::remove_order`. -/
def removeOrder (book : LinkedBook) (heap : LevelHeap) (id : OrderId) :
    Option (LevelHeap × LinkedBook × List Event) :=
  match book.ordersIdMap.find? id with
  | some helper =>
    (if helper.side = .BUY then
      (book.bids.removeOrder heap helper).map fun (heap, bids, update) =>
        (heap, { book with bids }, update)
    else
      (book.asks.removeOrder heap helper).map fun (heap, asks, update) =>
        (heap, { book with asks }, update)).map fun (heap, book, update) =>
      (heap, { book with ordersIdMap := book.ordersIdMap.erase id },
        emit book.handlers.publicOrderBookUpdate (.publicOrderBookUpdate update))
  | none => some (heap, book, [])

end LinkedBook

/-! ### The books of a process -/

/-- The books by their names, what they have made, and the generators they share. -/
structure LinkedProcess (Name : Type) where
  heap : LevelHeap
  books : Name → LinkedBook
  orderIds : IdGenerator
  tradeIds : IdGenerator

namespace LinkedProcess

variable {Name : Type} [DecidableEq Name]

/-- Empty books and a new pool. -/
def create (symbol : Name → String) (handlers : Name → Handlers)
    (nodeSize : { size : Nat // 0 < size }) (initialSize : Nat)
    (orderIds tradeIds : IdGenerator) : LinkedProcess Name where
  heap := ⟨⟨nodeSize, PoolAllocator.create initialSize, fun _ => none⟩, []⟩
  books name := LinkedBook.create (symbol name) (handlers name)
  orderIds := orderIds
  tradeIds := tradeIds

/-- The result of one call of a book. -/
def call (process : LinkedProcess Name) (name : Name) :
    Request → Option (LinkedProcess Name × Response)
  | .addOrder order =>
    ((process.books name).addOrder process.heap process.orderIds process.tradeIds order).map
      fun (outcome, orderIds) =>
        ({ heap := outcome.heap
           books := Function.update process.books name outcome.book
           orderIds := orderIds
           tradeIds := outcome.tradeIds }, ⟨some outcome.order, outcome.trades, outcome.events⟩)
  | .removeOrder id =>
    ((process.books name).removeOrder process.heap id).map fun (heap, book, events) =>
      ({ process with
         heap := heap
         books := Function.update process.books name book }, ⟨none, [], events⟩)

/-- One call of one of the books; it puts out nothing when a pointer leads nowhere. -/
def step (process : LinkedProcess Name) (request : Name × Request) :
    LinkedProcess Name × Option Response :=
  match process.call request.1 request.2 with
  | some (process, response) => (process, some response)
  | none => (process, none)

end LinkedProcess

end OrderForge
