/-
This file models the records the exchange works on: orders, trades, the price
level updates and last trade updates it publishes, the helper stored in the id
index, and the generator of order and trade ids. A timestamp is kept where the
source keeps one; no modelled function reads it.
-/

import OrderForge.ScaledInt

namespace OrderForge

inductive Side
  | BUY
  | SELL
deriving DecidableEq

inductive OrderStatus
  | OPEN
  | PARTIAL
  | FILLED
  | CANCELLED
  | REJECTED
deriving DecidableEq

inductive OrderType
  | LIMIT
  | MARKET
  | FILL_AND_KILL
deriving DecidableEq

structure Order where
  symbol : String
  price : Price
  qty : Quantity
  remainingQty : Quantity
  side : Side
  status : OrderStatus
  type : OrderType
  clientOrderId : OrderId
  orderId : OrderId
  timestamp : Int64
  accId : UInt64
deriving DecidableEq

namespace Order

/-- The constructor: a new order has all of its quantity left. -/
def create (symbol : String) (price : Price) (qty : Quantity) (side : Side) (status : OrderStatus)
    (type : OrderType) (accId : UInt64) (clientOrderId orderId : OrderId) (timestamp : Int64) :
    Order where
  symbol := symbol
  price := price
  qty := qty
  remainingQty := qty
  side := side
  status := status
  type := type
  clientOrderId := clientOrderId
  orderId := orderId
  timestamp := timestamp
  accId := accId

def isBuy (order : Order) : Bool := order.side = .BUY

def isSameSymbol (order : Order) (symbol : String) : Bool := symbol = order.symbol

def setStatus (order : Order) (status : OrderStatus) : Order := { order with status }

def setSymbol (order : Order) (symbol : String) : Order := { order with symbol }

/-- `Order::reduce_qty`: a reduction below zero is only logged. -/
def reduceQty (order : Order) (qty : Quantity) : Order :=
  if order.remainingQty < qty then order
  else { order with remainingQty := order.remainingQty - qty }

end Order

/-- What `orders_id_map_` keeps of a resting order. -/
structure FindOrderHelper where
  orderId : OrderId
  price : Price
  side : Side
deriving DecidableEq

structure Trade where
  symbol : String
  price : Price
  qty : Quantity
  crossingSide : Side
  passiveAccountId : UInt64
  crossingAccountId : UInt64
  passiveOrderId : OrderId
  crossingOrderId : OrderId
  tradeId : UInt64
deriving DecidableEq

/-- Everything a trade says but its own id. -/
def Trade.terms (trade : Trade) : Trade := { trade with tradeId := 0 }

structure LastTradeUpdate where
  symbol : String
  price : Price
  quantity : Quantity
  side : Side
deriving DecidableEq

structure PriceLevelUpdate where
  symbol : String
  price : Price
  totalQuantity : Quantity
  side : Side
deriving DecidableEq

/-- `IdGenerator<T>`: the counter starts at the day's number times `COUNTER_SPACE`. -/
structure IdGenerator where
  counter : UInt64
deriving DecidableEq

/-- `IdGenerator::generate_id`: the new id and the generator afterwards. -/
def IdGenerator.generateId (generator : IdGenerator) : UInt64 × IdGenerator :=
  (generator.counter + 1, ⟨generator.counter + 1⟩)

/-- The side a passive order of a crossing order rests on. -/
def Side.opposite : Side → Side
  | .BUY => .SELL
  | .SELL => .BUY

@[simp]
theorem Side.opposite_opposite (side : Side) : side.opposite.opposite = side := by
  cases side <;> rfl

theorem Side.eq_or_eq_opposite (first second : Side) :
    first = second ∨ first = second.opposite := by
  cases first <;> cases second <;> decide

theorem Side.opposite_ne (side : Side) : side.opposite ≠ side := by
  cases side <;> decide

end OrderForge
