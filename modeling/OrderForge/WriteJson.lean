/-
This file models the lines of text that the feeds publish: for each kind of event the
JSON object that is built of it, the line that the object is written as, and the
handler of the application that sends the line to the connections of the feed.

The writing of a JSON value as text is a parameter.
-/

import OrderForge.MessageFormat
import OrderForge.OrderBook
import OrderForge.TcpReactor

namespace OrderForge

def ORDER_KEY : String := "o"
def TRADE_KEY : String := "t"
def LAST_TRADE_KEY : String := "l"
def PRICE_LEVEL_UPDATE_KEY : String := "p"

/-! ### Objects -/

/-- The envelope that three kinds of events are written in. -/
def envelope (event symbol : String) (data : List (String × Json)) : Json :=
  .object [("event", .string event), ("symbol", .string symbol), ("data", .object data)]

/-- `json_obj` of an order. -/
def Order.jsonObj (order : Order) : Json :=
  envelope ORDER_KEY order.symbol [
    ("symbol", .string order.symbol),
    ("price", .float order.price.descaledValue),
    ("quantity", .float order.qty.descaledValue),
    ("remaining_quantity", .float order.remainingQty.descaledValue),
    ("side", .string order.side.name),
    ("status", .string order.status.name),
    ("type", .string order.type.name),
    ("client_order_id", .unsigned order.clientOrderId),
    ("order_id", .unsigned order.orderId),
    ("timestamp", .integer order.timestamp),
    ("account_id", .unsigned order.accId)]

/-- `json_obj` of a trade. -/
def Trade.jsonObj (trade : Trade) : Json :=
  envelope TRADE_KEY trade.symbol [
    ("symbol", .string trade.symbol),
    ("price", .float trade.price.descaledValue),
    ("quantity", .float trade.qty.descaledValue),
    ("crossing_side", .string trade.crossingSide.name),
    ("passive_account_id", .unsigned trade.passiveAccountId),
    ("crossing_account_id", .unsigned trade.crossingAccountId),
    ("passive_order_id", .unsigned trade.passiveOrderId),
    ("crossing_order_id", .unsigned trade.crossingOrderId),
    ("trade_id", .unsigned trade.tradeId)]

/-- `json_obj` of a price level update. -/
def PriceLevelUpdate.jsonObj (update : PriceLevelUpdate) : Json :=
  envelope PRICE_LEVEL_UPDATE_KEY update.symbol [
    ("price", .float update.price.descaledValue),
    ("total_quantity", .float update.totalQuantity.descaledValue),
    ("side", .string update.side.name)]

/-- `json_obj` of a last trade update: the name of the symbol ends in a colon. -/
def LastTradeUpdate.jsonObj (update : LastTradeUpdate) : Json :=
  .object [("event", .string LAST_TRADE_KEY), ("symbol:", .string update.symbol), ("data", .object [
    ("price", .float update.price.descaledValue),
    ("quantity", .float update.quantity.descaledValue),
    ("side", .string update.side.name)])]

def Event.jsonObj : Event → Json
  | .privateOrderUpdate order => order.jsonObj
  | .privateTradesUpdate trade => trade.jsonObj
  | .publicOrderBookUpdate update => update.jsonObj
  | .publicLastTradeUpdate update => update.jsonObj

/-! ### Lines -/

/-- `to_json_string`, with `dump`. -/
def Event.toJsonString (dump : Json → String) (event : Event) : String := dump event.jsonObj ++ "\n"

/-! ### The handlers of the feeds -/

namespace OrderForgeApp

variable (dump : Json → String) (tcpReactor : TCPReactor)

def privateOrderUpdateHandler (order : Order) : Option (List (Address × String)) :=
  tcpReactor.broadcastAll ((Event.privateOrderUpdate order).toJsonString dump) .PRIVATE_FEED_ORDERS

def privateTradesUpdateHandler (trade : Trade) : Option (List (Address × String)) :=
  tcpReactor.broadcastAll ((Event.privateTradesUpdate trade).toJsonString dump) .PRIVATE_FEED_TRADES

def publicOrderBookUpdateHandler (update : PriceLevelUpdate) : Option (List (Address × String)) :=
  tcpReactor.broadcastAll ((Event.publicOrderBookUpdate update).toJsonString dump)
    .PUBLIC_FEED_ORDER_BOOK

def publicLastTradeUpdateHandler (update : LastTradeUpdate) : Option (List (Address × String)) :=
  tcpReactor.broadcastAll ((Event.publicLastTradeUpdate update).toJsonString dump)
    .PUBLIC_FEED_LAST_TRADE

/-- The call of a feed handler, with the calls of `send_buffer` it makes. -/
def feed : Event → Option (List (Address × String))
  | .privateOrderUpdate order => privateOrderUpdateHandler dump tcpReactor order
  | .privateTradesUpdate trade => privateTradesUpdateHandler dump tcpReactor trade
  | .publicOrderBookUpdate update => publicOrderBookUpdateHandler dump tcpReactor update
  | .publicLastTradeUpdate update => publicLastTradeUpdateHandler dump tcpReactor update

end OrderForgeApp

end OrderForge
