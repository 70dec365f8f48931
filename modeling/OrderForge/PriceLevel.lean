/-
This file models one price level of the book: the queue of the orders resting at
a price, the counter of their total quantity, and the nodes a match has filled but
not yet unlinked.

The hashed linked list of the source is an insertion-ordered map here. A node
pointer is the id its node is stored under, which the list's own index makes
unique. The assertions of `add_order` are not modelled: a book side hands a level
only orders of its own price, and an order has an id by then, unless the generator has
come around to zero.
-/

import OrderForge.InsertionMap
import OrderForge.MatchingEngine

namespace OrderForge

/-- `PriceLevel::OrdersCont`. -/
abbrev OrdersCont := InsertionMap OrderId Order

@[ext]
structure PriceLevel where
  symbol : String
  price : Price
  totalQty : Quantity
  side : Side
  orderCont : OrdersCont
  ordersToBeRemoved : List OrderId

namespace PriceLevel

def create (symbol : String) (price : Price) (side : Side) : PriceLevel where
  symbol := symbol
  price := price
  totalQty := 0
  side := side
  orderCont := InsertionMap.empty
  ordersToBeRemoved := []

/-- The update a level publishes about itself. -/
def update (level : PriceLevel) : PriceLevelUpdate where
  symbol := level.symbol
  price := level.price
  totalQuantity := level.totalQty
  side := level.side

/-- `PriceLevel::add_order`: a copy of the order goes to the back of the queue, unless its id
is already in the level. -/
def addOrder (level : PriceLevel) (order : Order) : PriceLevel × PriceLevelUpdate :=
  if fresh : level.orderCont.contains order.orderId = false then
    let level := { level with
      orderCont := level.orderCont.push order.orderId order fresh
      totalQty := level.totalQty + order.remainingQty }
    (level, level.update)
  else (level, { level.update with symbol := order.symbol })

/-- `PriceLevel::remove_order`. -/
def removeOrder (level : PriceLevel) (id : OrderId) : PriceLevel × PriceLevelUpdate :=
  let level := match level.orderCont.find? id with
    | some order => { level with
        totalQty := level.totalQty - order.remainingQty
        orderCont := level.orderCont.remove id }
    | none => level
  (level, level.update)

/-- `PriceLevel::remove_marked_order_nodes`. -/
def removeMarkedOrderNodes (level : PriceLevel) : PriceLevel :=
  { level with
    orderCont := level.ordersToBeRemoved.foldl InsertionMap.remove level.orderCont
    ordersToBeRemoved := [] }

/-- What the loop of `match_order` changes besides the nodes. -/
structure Scan where
  totalQty : Quantity
  ordersToBeRemoved : List OrderId
  engine : MatchingEngine

/-- The body of the loop of `match_order`. -/
def matchNode (scan : Scan) (node : OrderId × Order) : Order × Scan :=
  if scan.engine.hasRemainingQty then
    let (removedQty, item, engine) := scan.engine.matchOrder node.2
    (item, {
      totalQty := scan.totalQty - removedQty
      ordersToBeRemoved :=
        if item.status = .FILLED then scan.ordersToBeRemoved ++ [node.1]
        else scan.ordersToBeRemoved
      engine := engine })
  else (node.2, scan)

/-- `PriceLevel::match_order`. -/
def matchOrder (level : PriceLevel) (engine : MatchingEngine) :
    PriceLevel × MatchingEngine × PriceLevelUpdate :=
  let (orderCont, scan) := level.orderCont.mapAccum matchNode
    ⟨level.totalQty, level.ordersToBeRemoved, engine⟩
  let matched := { level with
    orderCont := orderCont
    totalQty := scan.totalQty
    ordersToBeRemoved := scan.ordersToBeRemoved }
  let engine :=
    if matched.totalQty ≠ level.totalQty then scan.engine.addLevelToRemoveOrders level.price
    else scan.engine
  (matched, engine, matched.update)

end PriceLevel

end OrderForge
