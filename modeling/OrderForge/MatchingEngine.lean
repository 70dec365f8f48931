/-
This file models the matching engine: the object that matches one crossing order
against passive orders one at a time. The source keeps references to the crossing
order and pointers to the passive orders it changed; here the crossing order is a
field of the engine, and a changed passive order is recorded as it is after the
change. No passive order is matched twice by one engine, so the record is what the
pointer shows when the updates are published.

The lemmas reduce one match to `Order.fill`: both orders lose the smaller of the
two remaining quantities, and each is `FILLED` or `PARTIAL` by what it has left.
-/

import OrderForge.Order

namespace OrderForge

/-- The matching engine. `tradeIds` is the generator behind `get_id<Trade>()`. -/
structure MatchingEngine where
  originalOrder : Order
  trades : List Trade
  modifiedOrders : List Order
  removeLevels : List Price
  tradeIds : IdGenerator

namespace MatchingEngine

def create (order : Order) (tradeIds : IdGenerator) : MatchingEngine where
  originalOrder := order
  trades := []
  modifiedOrders := []
  removeLevels := []
  tradeIds := tradeIds

def remainingQty (engine : MatchingEngine) : Quantity := engine.originalOrder.remainingQty

def hasRemainingQty (engine : MatchingEngine) : Bool := 0 < engine.remainingQty.value

def addLevelToRemoveOrders (engine : MatchingEngine) (price : Price) : MatchingEngine :=
  { engine with removeLevels := engine.removeLevels ++ [price] }

/-- The three-way comparison that ends a match: the passive order and the crossing order with
their new statuses. -/
def settle (order original : Order) : Order × Order :=
  if order.remainingQty = original.remainingQty then
    (order.setStatus .FILLED, original.setStatus .FILLED)
  else if order.remainingQty > original.remainingQty then
    (order.setStatus .PARTIAL, original.setStatus .FILLED)
  else if order.remainingQty < original.remainingQty then
    (order.setStatus .FILLED, original.setStatus .PARTIAL)
  else (order, original)

/-- `MatchingEngine::match_order`: the quantity removed, the passive order afterwards and the
engine afterwards. -/
def matchOrder (engine : MatchingEngine) (order : Order) : Quantity × Order × MatchingEngine :=
  let removedQty := min order.remainingQty engine.remainingQty
  let reduced := order.reduceQty removedQty
  let settled := settle reduced
    { engine.originalOrder with remainingQty := engine.remainingQty - removedQty }
  let (tradeId, tradeIds) := engine.tradeIds.generateId
  let trade : Trade := {
    symbol := order.symbol
    price := order.price
    qty := removedQty
    crossingSide := engine.originalOrder.side
    passiveAccountId := order.accId
    crossingAccountId := engine.originalOrder.accId
    passiveOrderId := order.orderId
    crossingOrderId := engine.originalOrder.orderId
    tradeId := tradeId }
  (removedQty, settled.1, {
    originalOrder := settled.2
    trades := engine.trades ++ [trade]
    modifiedOrders := engine.modifiedOrders ++ [settled.1]
    removeLevels := engine.removeLevels
    tradeIds := tradeIds })

end MatchingEngine

/-! ### One match -/

/-- An order after a match of the given amount. -/
def Order.fill (order : Order) (amount : Quantity) : Order :=
  { order with
    remainingQty := order.remainingQty - amount
    status := if order.remainingQty - amount = 0 then .FILLED else .PARTIAL }

namespace MatchingEngine

/-- The trade of a match. -/
def tradeWith (engine : MatchingEngine) (order : Order) (amount : Quantity) : Trade where
  symbol := order.symbol
  price := order.price
  qty := amount
  crossingSide := engine.originalOrder.side
  passiveAccountId := order.accId
  crossingAccountId := engine.originalOrder.accId
  passiveOrderId := order.orderId
  crossingOrderId := engine.originalOrder.orderId
  tradeId := engine.tradeIds.generateId.1

/-- The engine after a match of the given amount against an order. -/
def record (engine : MatchingEngine) (order : Order) (amount : Quantity) : MatchingEngine where
  originalOrder := engine.originalOrder.fill amount
  trades := engine.trades ++ [engine.tradeWith order amount]
  modifiedOrders := engine.modifiedOrders ++ [order.fill amount]
  removeLevels := engine.removeLevels
  tradeIds := engine.tradeIds.generateId.2

/-- The amount one match moves. -/
def amountOf (engine : MatchingEngine) (order : Order) : Quantity :=
  min order.remainingQty engine.remainingQty

theorem reduceQty_amountOf (engine : MatchingEngine) (order : Order) :
    order.reduceQty (engine.amountOf order) =
      { order with remainingQty := order.remainingQty - engine.amountOf order } :=
  if_neg (not_lt.mpr (min_le_left _ _))

/-- A match uses up one of the two orders. -/
theorem sub_amountOf (engine : MatchingEngine) (order : Order) :
    order.remainingQty - engine.amountOf order = 0 ∨
      engine.remainingQty - engine.amountOf order = 0 := by
  rcases le_total order.remainingQty engine.remainingQty with le | le
  · refine Or.inl ?_
    rw [amountOf, min_eq_left le, Quantity.sub_self]
  · refine Or.inr ?_
    rw [amountOf, min_eq_right le, Quantity.sub_self]

/-- When one of the two orders is used up, the comparison gives each order the status of what
it has left. -/
theorem settle_eq (order original : Order)
    (usedUp : order.remainingQty = 0 ∨ original.remainingQty = 0) :
    settle order original =
      (order.setStatus (if order.remainingQty = 0 then .FILLED else .PARTIAL),
        original.setStatus (if original.remainingQty = 0 then .FILLED else .PARTIAL)) := by
  unfold settle
  rcases usedUp with zero | zero
  · rw [zero, if_pos rfl]
    by_cases same : original.remainingQty = 0
    · rw [same, if_pos rfl, if_pos rfl]
    · rw [if_neg (Ne.symm same), if_neg (Quantity.not_lt_zero _),
        if_pos (Quantity.pos_iff.mpr same), if_neg same]
  · rw [zero, if_pos (rfl : (0 : Quantity) = 0)]
    by_cases same : order.remainingQty = 0
    · rw [if_pos same, if_pos same]
    · rw [if_neg same, if_pos (Quantity.pos_iff.mpr same), if_neg same]

/-- One match takes the smaller remaining quantity from both orders and sets both statuses
by what is left. -/
theorem matchOrder_eq (engine : MatchingEngine) (order : Order) :
    engine.matchOrder order =
      (engine.amountOf order, order.fill (engine.amountOf order),
        engine.record order (engine.amountOf order)) := by
  have settled := settle_eq
    { order with remainingQty := order.remainingQty - engine.amountOf order }
    { engine.originalOrder with remainingQty := engine.remainingQty - engine.amountOf order }
    (sub_amountOf engine order)
  have reduced := reduceQty_amountOf engine order
  unfold amountOf at settled reduced
  unfold matchOrder
  simp only [reduced, settled]
  rfl

end MatchingEngine

end OrderForge
