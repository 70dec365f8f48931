/-
This file models a price level and the matching engine at the level of their
pointers. The levels are objects that `new` puts at addresses of their own; the
orders of all levels are in the nodes of one pool. The engine keeps pointers to the
orders it has changed and to the levels that have to unlink nodes, a level keeps
pointers to the nodes it has marked.

Whoever follows a null pointer, one to a slot without a node or one to no level has
no result. A removed level is only taken out of its map: no level is deleted while
its book lives, so the levels made so far are a list and an address is a place in it.
-/

import OrderForge.HashLinkedList
import OrderForge.PriceLevel

namespace OrderForge

/-- `PriceLevel*`. -/
abbrev PriceLvlPtr := Nat

/-- The pool behind `Node<OrderId, Order>::operator new`. -/
abbrev OrderPool := NodePool OrderId Order

/-- `MatchingEngine`, with the pointers it keeps. -/
structure LinkedEngine where
  originalOrder : Order
  trades : List Trade
  modifiedOrders : List Slot
  removeLevels : List PriceLvlPtr
  tradeIds : IdGenerator

namespace LinkedEngine

def create (order : Order) (tradeIds : IdGenerator) : LinkedEngine where
  originalOrder := order
  trades := []
  modifiedOrders := []
  removeLevels := []
  tradeIds := tradeIds

/-- The engine without its pointers. -/
def bare (engine : LinkedEngine) : MatchingEngine where
  originalOrder := engine.originalOrder
  trades := engine.trades
  modifiedOrders := []
  removeLevels := []
  tradeIds := engine.tradeIds

def hasRemainingQty (engine : LinkedEngine) : Bool := engine.bare.hasRemainingQty

def addLevelToRemoveOrders (engine : LinkedEngine) (bookLevel : PriceLvlPtr) : LinkedEngine :=
  { engine with removeLevels := engine.removeLevels ++ [bookLevel] }

/-- `MatchingEngine::match_order` on the order in a node: the quantity removed, the pool
afterwards and the engine afterwards. -/
def matchOrder (engine : LinkedEngine) (pool : OrderPool) (order : Slot) :
    Option (Quantity × OrderPool × LinkedEngine) :=
  (pool.read (some order)).bind fun node =>
    let (removedQty, item, bare) := engine.bare.matchOrder node.content.2
    (pool.write (some order) fun node => { node with content := (node.content.1, item) }).map
      fun pool => (removedQty, pool, {
        originalOrder := bare.originalOrder
        trades := bare.trades
        modifiedOrders := engine.modifiedOrders ++ [order]
        removeLevels := engine.removeLevels
        tradeIds := bare.tradeIds })

end LinkedEngine

/-- `PriceLevel`, with the pointers it keeps. -/
structure LinkedLevel where
  symbol : String
  price : Price
  totalQty : Quantity
  side : Side
  orderCont : HashLinkedList OrderId
  ordersToBeRemoved : List Slot

namespace LinkedLevel

def create (symbol : String) (price : Price) (side : Side) : LinkedLevel where
  symbol := symbol
  price := price
  totalQty := 0
  side := side
  orderCont := HashLinkedList.create
  ordersToBeRemoved := []

/-- The update a level publishes about itself. -/
def update (level : LinkedLevel) : PriceLevelUpdate where
  symbol := level.symbol
  price := level.price
  totalQuantity := level.totalQty
  side := level.side

/-- `PriceLevel::add_order`. -/
def addOrder (level : LinkedLevel) (pool : OrderPool) (order : Order) :
    Option (OrderPool × LinkedLevel × PriceLevelUpdate) :=
  if level.orderCont.contains order.orderId then
    some (pool, level, { level.update with symbol := order.symbol })
  else
    (level.orderCont.push pool order.orderId order).map fun (pool, orderCont) =>
      let level := { level with
        orderCont := orderCont
        totalQty := level.totalQty + order.remainingQty }
      (pool, level, level.update)

/-- `PriceLevel::remove_order`. -/
def removeOrder (level : LinkedLevel) (pool : OrderPool) (id : OrderId) :
    Option (OrderPool × LinkedLevel × PriceLevelUpdate) :=
  (level.orderCont.find pool id).bind fun res =>
    match res with
    | some order =>
      (level.orderCont.remove pool id).map fun (pool, orderCont) =>
        let level := { level with
          totalQty := level.totalQty - order.remainingQty
          orderCont := orderCont }
        (pool, level, level.update)
    | none => some (pool, level, level.update)

/-- The loop of `remove_marked_order_nodes`: a node is read for the log before it goes. -/
def removeNodes : List Slot → OrderPool → HashLinkedList OrderId →
    HashLinkedList.Result OrderId Order
  | [], pool, orderCont => some (pool, orderCont)
  | node :: rest, pool, orderCont =>
    (pool.read (some node)).bind fun _ =>
      (orderCont.removeNode pool node).bind fun (pool, orderCont) =>
        removeNodes rest pool orderCont

/-- `PriceLevel::remove_marked_order_nodes`. -/
def removeMarkedOrderNodes (level : LinkedLevel) (pool : OrderPool) :
    Option (OrderPool × LinkedLevel) :=
  (removeNodes level.ordersToBeRemoved pool level.orderCont).map fun (pool, orderCont) =>
    (pool, { level with orderCont := orderCont, ordersToBeRemoved := [] })

/-- What the loop of `match_order` changes. -/
structure Scan where
  pool : OrderPool
  totalQty : Quantity
  ordersToBeRemoved : List Slot
  engine : LinkedEngine

/-- The body of the loop of `match_order`. -/
def matchNode (scan : Scan) (order : Slot) : Option Scan :=
  if scan.engine.hasRemainingQty then
    (scan.engine.matchOrder scan.pool order).bind fun (removedQty, pool, engine) =>
      (pool.read (some order)).map fun node => {
        pool := pool
        totalQty := scan.totalQty - removedQty
        ordersToBeRemoved :=
          if node.content.2.status = .FILLED then scan.ordersToBeRemoved ++ [order]
          else scan.ordersToBeRemoved
        engine := engine }
  else some scan

/-- The loop of `match_order` from a pointer on, with a bound on the number of steps: the iterator
is at the node to the right next, until it is null. -/
def matchNodes : Nat → Option Slot → Scan → Option Scan
  | 0, _, _ => none
  | _ + 1, none, scan => some scan
  | fuel + 1, some order, scan =>
    (matchNode scan order).bind fun scan =>
      (scan.pool.read (some order)).bind fun node => matchNodes fuel node.right scan

/-- `PriceLevel::match_order` of the level at the address `self`. -/
def matchOrder (level : LinkedLevel) (self : PriceLvlPtr) (pool : OrderPool)
    (engine : LinkedEngine) :
    Option (OrderPool × LinkedLevel × LinkedEngine × PriceLevelUpdate) :=
  (matchNodes (level.orderCont.size + 1) level.orderCont.front
    ⟨pool, level.totalQty, level.ordersToBeRemoved, engine⟩).map fun scan =>
      let matched := { level with
        totalQty := scan.totalQty
        ordersToBeRemoved := scan.ordersToBeRemoved }
      let engine :=
        if matched.totalQty ≠ level.totalQty then scan.engine.addLevelToRemoveOrders self
        else scan.engine
      (scan.pool, matched, engine, matched.update)

end LinkedLevel

/-- The nodes and the levels that have been made. -/
structure LevelHeap where
  pool : OrderPool
  levels : List LinkedLevel

namespace LevelHeap

/-- `new PriceLevel`. -/
def newLevel (heap : LevelHeap) (level : LinkedLevel) : PriceLvlPtr × LevelHeap :=
  (heap.levels.length, { heap with levels := heap.levels ++ [level] })

/-- A call of a member function of the level at an address. -/
def call {Result : Type} (heap : LevelHeap) (ptr : PriceLvlPtr)
    (body : LinkedLevel → OrderPool → Option (OrderPool × LinkedLevel × Result)) :
    Option (LevelHeap × Result) :=
  heap.levels[ptr]?.bind fun level =>
    (body level heap.pool).map fun (pool, level, result) =>
      (⟨pool, heap.levels.set ptr level⟩, result)

/-- `PriceLevel::remove_marked_order_nodes` of the level at an address. -/
def removeMarkedOrderNodes (heap : LevelHeap) (ptr : PriceLvlPtr) : Option LevelHeap :=
  (heap.call ptr fun level pool =>
    (level.removeMarkedOrderNodes pool).map fun (pool, level) => (pool, level, ())).map Prod.fst

end LevelHeap

end OrderForge
