/-
This file settles which events a subscriber reads back from the lines of the feeds. One
reader takes the kind of an event, its symbol and its data from members of one name for
all kinds. It reads back every event but a last trade update, whose symbol stands under
another name; so no two events of the other kinds have lines that read alike.

What the numbers of an event stand for is read back where no two prices, and no two
quantities, of the events in question are written as one number; and the line of such an
event is taken to be parsed as a value that is alike to the one written.
-/

import Mathlib.Data.Set.Function
import OrderForge.Registry
import OrderForge.WriteJson

namespace OrderForge

/-! ### The lines that are sent -/

/-- The connections that an event is sent to. -/
def Event.connectionType : Event → ConnectionType
  | .privateOrderUpdate _ => .PRIVATE_FEED_ORDERS
  | .privateTradesUpdate _ => .PRIVATE_FEED_TRADES
  | .publicOrderBookUpdate _ => .PUBLIC_FEED_ORDER_BOOK
  | .publicLastTradeUpdate _ => .PUBLIC_FEED_LAST_TRADE

/-- While a broadcast is sent properly, each subscriber of its feed gets the line of an event
once. -/
theorem feed_of_broadcastsOnce {tcpReactor : TCPReactor} (once : tcpReactor.BroadcastsOnce)
    (dump : Json → String) (event : Event) :
    ∃ sent, OrderForgeApp.feed dump tcpReactor event = some sent ∧ sent.Nodup ∧
      ∀ handler text, (handler, text) ∈ sent ↔ text = event.toJsonString dump ∧
        ∃ object, tcpReactor.heap.find? handler = some object ∧
          object.getConnectionType = event.connectionType := by
  cases event with
  | privateOrderUpdate order => exact once _ _
  | privateTradesUpdate trade => exact once _ _
  | publicOrderBookUpdate update => exact once _ _
  | publicLastTradeUpdate update => exact once _ _

/-! ### The reader -/

/-- What the numbers that are written for prices and quantities are read as. -/
structure NumberReader where
  price : Float.Model → Price
  quantity : Float.Model → Quantity

/-- What the member of an event's data under a name is. -/
abbrev EventData := String → Option Json.Scalar

namespace EventData

variable (data : EventData) (numbers : NumberReader) (name : String)

def price : Option Price := ((data name).bind Json.Scalar.float?).map numbers.price

def quantity : Option Quantity := ((data name).bind Json.Scalar.float?).map numbers.quantity

def id : Option UInt64 := ((data name).bind Json.Scalar.integer?).map UInt64.ofInt

def timestamp : Option Int64 := ((data name).bind Json.Scalar.integer?).map Int64.ofInt

/-- The enumerator that a member names. -/
def enum {EnumType : Type} (values : List EnumType) (enumName : EnumType → String) :
    Option EnumType :=
  ((data name).bind Json.Scalar.string?).bind fun text =>
    values.find? fun value => enumName value = text

def side : Option Side := data.enum name [.BUY, .SELL] Side.name

def type : Option OrderType := data.enum name [.LIMIT, .MARKET, .FILL_AND_KILL] OrderType.name

def status : Option OrderStatus :=
  data.enum name [.OPEN, .PARTIAL, .FILLED, .CANCELLED, .REJECTED] OrderStatus.name

end EventData

section Reader

variable (numbers : NumberReader) (symbol : String) (data : EventData)

def readOrder : Option Order := do
  let price ← data.price numbers "price"
  let qty ← data.quantity numbers "quantity"
  let remainingQty ← data.quantity numbers "remaining_quantity"
  let side ← data.side "side"
  let status ← data.status "status"
  let type ← data.type "type"
  let clientOrderId ← data.id "client_order_id"
  let orderId ← data.id "order_id"
  let timestamp ← data.timestamp "timestamp"
  let accId ← data.id "account_id"
  return { symbol, price, qty, remainingQty, side, status, type, clientOrderId, orderId,
           timestamp, accId }

def readTrade : Option Trade := do
  let price ← data.price numbers "price"
  let qty ← data.quantity numbers "quantity"
  let crossingSide ← data.side "crossing_side"
  let passiveAccountId ← data.id "passive_account_id"
  let crossingAccountId ← data.id "crossing_account_id"
  let passiveOrderId ← data.id "passive_order_id"
  let crossingOrderId ← data.id "crossing_order_id"
  let tradeId ← data.id "trade_id"
  return { symbol, price, qty, crossingSide, passiveAccountId, crossingAccountId, passiveOrderId,
           crossingOrderId, tradeId }

def readPriceLevelUpdate : Option PriceLevelUpdate := do
  let price ← data.price numbers "price"
  let totalQuantity ← data.quantity numbers "total_quantity"
  let side ← data.side "side"
  return { symbol, price, totalQuantity, side }

def readLastTradeUpdate : Option LastTradeUpdate := do
  let price ← data.price numbers "price"
  let quantity ← data.quantity numbers "quantity"
  let side ← data.side "side"
  return { symbol, price, quantity, side }

end Reader

/-- The data of the kind that an event is of. -/
def readKind (numbers : NumberReader) (kind symbol : String) (data : EventData) : Option Event :=
  if kind = ORDER_KEY then (readOrder numbers symbol data).map Event.privateOrderUpdate
  else if kind = TRADE_KEY then (readTrade numbers symbol data).map Event.privateTradesUpdate
  else if kind = PRICE_LEVEL_UPDATE_KEY then
    (readPriceLevelUpdate numbers symbol data).map Event.publicOrderBookUpdate
  else if kind = LAST_TRADE_KEY then
    (readLastTradeUpdate numbers symbol data).map Event.publicLastTradeUpdate
  else none

/-- What the members of the data of an object are. -/
def eventData (json : Json) : EventData := fun name => json.scalarAt ["data", name]

/-- The event of a JSON value. -/
def readEvent (numbers : NumberReader) (json : Json) : Option Event := do
  let kind ← (json.scalarAt ["event"]).bind Json.Scalar.string?
  let symbol ← (json.scalarAt ["symbol"]).bind Json.Scalar.string?
  readKind numbers kind symbol (eventData json)

/-- The event of a line. -/
def readLine (parse : String → Option Json) (numbers : NumberReader) (line : String) :
    Option Event :=
  (parse line).bind (readEvent numbers)

/-! ### What is assumed -/

def Event.price : Event → Price
  | .privateOrderUpdate order => order.price
  | .privateTradesUpdate trade => trade.price
  | .publicOrderBookUpdate update => update.price
  | .publicLastTradeUpdate update => update.price

def Event.quantities : Event → List Quantity
  | .privateOrderUpdate order => [order.qty, order.remainingQty]
  | .privateTradesUpdate trade => [trade.qty]
  | .publicOrderBookUpdate update => [update.totalQuantity]
  | .publicLastTradeUpdate update => [update.quantity]

/-- Whether the prices and the quantities of some events are written as numbers of their own, and
the line of each is parsed as a value alike to the one written. -/
structure Rendered (dump : Json → String) (parse : String → Option Json) (events : Set Event) :
    Prop where
  price : Set.InjOn ScaledInt.descaledValue {price | ∃ event ∈ events, event.price = price}
  quantity : Set.InjOn ScaledInt.descaledValue
    {quantity | ∃ event ∈ events, quantity ∈ event.quantities}
  line : ∀ event ∈ events, ∃ json, parse (event.toJsonString dump) = some json ∧
    event.jsonObj.Alike json

/-- Whether an event is read back from its line, and no other event has a line that reads alike. -/
def Decodes (dump : Json → String) (parse : String → Option Json) (numbers : NumberReader)
    (events : Set Event) (event : Event) : Prop :=
  readLine parse numbers (event.toJsonString dump) = some event ∧
    ∀ other ∈ events, readLine parse numbers (other.toJsonString dump) =
      readLine parse numbers (event.toJsonString dump) → other = event

/-- Whether the numbers of an event are read as what they are written for. -/
structure NumberReader.Reads (numbers : NumberReader) (event : Event) : Prop where
  price : numbers.price event.price.descaledValue = event.price
  quantity : ∀ quantity ∈ event.quantities, numbers.quantity quantity.descaledValue = quantity

theorem Rendered.exists_numberReader {dump : Json → String} {parse : String → Option Json}
    {events : Set Event} (rendered : Rendered dump parse events) :
    ∃ numbers : NumberReader, ∀ event ∈ events, numbers.Reads event := by
  have price := rendered.price.leftInvOn_invFunOn
  have quantity := rendered.quantity.leftInvOn_invFunOn
  exact ⟨⟨Function.invFunOn _ _, Function.invFunOn _ _⟩, fun event member =>
    ⟨price ⟨event, member, rfl⟩, fun _ own => quantity ⟨event, member, own⟩⟩⟩

/-! ### Reading one field -/

namespace EventData

variable {data : EventData} {numbers : NumberReader} {name : String}

theorem price_of {price : Price} (found : data name = some (.float price.descaledValue))
    (reads : numbers.price price.descaledValue = price) : data.price numbers name = some price := by
  rw [EventData.price, found]
  exact congrArg some reads

theorem quantity_of {quantity : Quantity}
    (found : data name = some (.float quantity.descaledValue))
    (reads : numbers.quantity quantity.descaledValue = quantity) :
    data.quantity numbers name = some quantity := by
  rw [EventData.quantity, found]
  exact congrArg some reads

theorem id_of {id : UInt64} (found : data name = some (.integer id.toNat)) :
    data.id name = some id := by
  rw [EventData.id, found]
  refine congrArg some (UInt64.toNat.inj ?_)
  have small := id.toNat_lt
  rw [UInt64.ofInt, UInt64.toNat_ofNat']
  omega

theorem timestamp_of {timestamp : Int64} (found : data name = some (.integer timestamp.toInt)) :
    data.timestamp name = some timestamp := by
  rw [EventData.timestamp, found]
  exact congrArg some (Int64.ofInt_toInt timestamp)

theorem side_of {side : Side} (found : data name = some (.string side.name)) :
    data.side name = some side := by
  rw [EventData.side, enum, found]
  cases side <;> rfl

theorem type_of {type : OrderType} (found : data name = some (.string type.name)) :
    data.type name = some type := by
  rw [EventData.type, enum, found]
  cases type <;> rfl

theorem status_of {status : OrderStatus} (found : data name = some (.string status.name)) :
    data.status name = some status := by
  rw [EventData.status, enum, found]
  cases status <;> rfl

end EventData

/-! ### Reading one event -/

section Kinds

variable {numbers : NumberReader}

theorem readOrder_jsonObj {order : Order} (reads : numbers.Reads (.privateOrderUpdate order)) :
    readOrder numbers order.symbol (eventData order.jsonObj) = some order := by
  have price : (eventData order.jsonObj).price numbers "price" = some order.price :=
    EventData.price_of rfl reads.price
  have qty : (eventData order.jsonObj).quantity numbers "quantity" = some order.qty :=
    EventData.quantity_of rfl (reads.quantity _ List.mem_cons_self)
  have remainingQty : (eventData order.jsonObj).quantity numbers "remaining_quantity" =
      some order.remainingQty :=
    EventData.quantity_of rfl (reads.quantity _ (List.mem_cons_of_mem _ List.mem_cons_self))
  have side : (eventData order.jsonObj).side "side" = some order.side := EventData.side_of rfl
  have status : (eventData order.jsonObj).status "status" = some order.status :=
    EventData.status_of rfl
  have type : (eventData order.jsonObj).type "type" = some order.type := EventData.type_of rfl
  have clientOrderId : (eventData order.jsonObj).id "client_order_id" = some order.clientOrderId :=
    EventData.id_of rfl
  have orderId : (eventData order.jsonObj).id "order_id" = some order.orderId :=
    EventData.id_of rfl
  have timestamp : (eventData order.jsonObj).timestamp "timestamp" = some order.timestamp :=
    EventData.timestamp_of rfl
  have accId : (eventData order.jsonObj).id "account_id" = some order.accId := EventData.id_of rfl
  rw [readOrder, price, qty, remainingQty, side, status, type, clientOrderId, orderId, timestamp,
    accId]
  rfl

theorem readTrade_jsonObj {trade : Trade} (reads : numbers.Reads (.privateTradesUpdate trade)) :
    readTrade numbers trade.symbol (eventData trade.jsonObj) = some trade := by
  have price : (eventData trade.jsonObj).price numbers "price" = some trade.price :=
    EventData.price_of rfl reads.price
  have qty : (eventData trade.jsonObj).quantity numbers "quantity" = some trade.qty :=
    EventData.quantity_of rfl (reads.quantity _ List.mem_cons_self)
  have crossingSide : (eventData trade.jsonObj).side "crossing_side" = some trade.crossingSide :=
    EventData.side_of rfl
  have passiveAccountId : (eventData trade.jsonObj).id "passive_account_id" =
      some trade.passiveAccountId :=
    EventData.id_of rfl
  have crossingAccountId : (eventData trade.jsonObj).id "crossing_account_id" =
      some trade.crossingAccountId :=
    EventData.id_of rfl
  have passiveOrderId : (eventData trade.jsonObj).id "passive_order_id" =
      some trade.passiveOrderId :=
    EventData.id_of rfl
  have crossingOrderId : (eventData trade.jsonObj).id "crossing_order_id" =
      some trade.crossingOrderId :=
    EventData.id_of rfl
  have tradeId : (eventData trade.jsonObj).id "trade_id" = some trade.tradeId :=
    EventData.id_of rfl
  rw [readTrade, price, qty, crossingSide, passiveAccountId, crossingAccountId, passiveOrderId,
    crossingOrderId, tradeId]
  rfl

theorem readPriceLevelUpdate_jsonObj {update : PriceLevelUpdate}
    (reads : numbers.Reads (.publicOrderBookUpdate update)) :
    readPriceLevelUpdate numbers update.symbol (eventData update.jsonObj) = some update := by
  have price : (eventData update.jsonObj).price numbers "price" = some update.price :=
    EventData.price_of rfl reads.price
  have totalQuantity : (eventData update.jsonObj).quantity numbers "total_quantity" =
      some update.totalQuantity :=
    EventData.quantity_of rfl (reads.quantity _ List.mem_cons_self)
  have side : (eventData update.jsonObj).side "side" = some update.side := EventData.side_of rfl
  rw [readPriceLevelUpdate, price, totalQuantity, side]
  rfl

end Kinds

/-! ### Reading lines -/

section Lines

variable {numbers : NumberReader} {event : Event}

theorem readEvent_jsonObj (reads : numbers.Reads event)
    (others : ¬ ∃ update, event = .publicLastTradeUpdate update) :
    readEvent numbers event.jsonObj = some event := by
  cases event with
  | privateOrderUpdate order =>
    exact congrArg (Option.map Event.privateOrderUpdate) (readOrder_jsonObj reads)
  | privateTradesUpdate trade =>
    exact congrArg (Option.map Event.privateTradesUpdate) (readTrade_jsonObj reads)
  | publicOrderBookUpdate update =>
    exact congrArg (Option.map Event.publicOrderBookUpdate) (readPriceLevelUpdate_jsonObj reads)
  | publicLastTradeUpdate update => exact absurd ⟨update, rfl⟩ others

theorem readEvent_congr {first second : Json} (alike : first.Alike second) :
    readEvent numbers first = readEvent numbers second := by
  have same : first.scalarAt = second.scalarAt := alike
  have data : eventData first = eventData second := funext fun name => congrFun same _
  rw [readEvent, readEvent, same, data]

variable {dump : Json → String} {parse : String → Option Json} {events : Set Event}

theorem Rendered.readLine_eq (rendered : Rendered dump parse events) (member : event ∈ events) :
    readLine parse numbers (event.toJsonString dump) = readEvent numbers event.jsonObj := by
  obtain ⟨json, parsed, alike⟩ := rendered.line event member
  rw [readLine, parsed, Option.bind_some, readEvent_congr alike]

/-- One reader reads an event back, and no other event from a line like its line, exactly when the
event is no last trade update. -/
theorem events_decode_iff (rendered : Rendered dump parse events) :
    ∃ numbers : NumberReader, ∀ event ∈ events, Decodes dump parse numbers events event ↔
      ¬ ∃ update, event = .publicLastTradeUpdate update := by
  obtain ⟨numbers, reads⟩ := rendered.exists_numberReader
  refine ⟨numbers, fun event member => ⟨?_, fun wellNamed => ?_⟩⟩
  · rintro ⟨decoded, -⟩ ⟨update, rfl⟩
    rw [rendered.readLine_eq member] at decoded
    cases decoded
  · have decoded : readLine parse numbers (event.toJsonString dump) = some event :=
      (rendered.readLine_eq member).trans (readEvent_jsonObj (reads event member) wellNamed)
    refine ⟨decoded, fun other own same => ?_⟩
    rw [decoded, rendered.readLine_eq own] at same
    by_cases misnamed : ∃ update, other = .publicLastTradeUpdate update
    · obtain ⟨update, rfl⟩ := misnamed
      cases same
    · exact Option.some.inj ((readEvent_jsonObj (reads other own) misnamed).symm.trans same)

end Lines

/-! ### Samples -/

def samplePriceLevelUpdate : PriceLevelUpdate := ⟨"AAPL", ⟨10000⟩, ⟨100000000⟩, .BUY⟩

def sampleLastTradeUpdate : LastTradeUpdate := ⟨"AAPL", ⟨10000⟩, ⟨100000000⟩, .BUY⟩

def sampleEvents : Set Event :=
  {.publicOrderBookUpdate samplePriceLevelUpdate, .publicLastTradeUpdate sampleLastTradeUpdate}

def samplePriceLevelLine : String :=
  "\x7b\"data\":\x7b\"price\":100.0,\"side\":\"BUY\",\"total_quantity\":1.0\x7d," ++
    "\"event\":\"p\",\"symbol\":\"AAPL\"\x7d"

def sampleLastTradeLine : String :=
  "\x7b\"data\":\x7b\"price\":100.0,\"quantity\":1.0,\"side\":\"BUY\"\x7d," ++
    "\"event\":\"l\",\"symbol:\":\"AAPL\"\x7d"

/-- The texts of the sample events. -/
def sampleDump (json : Json) : String :=
  match json.scalarAt ["event"] with
  | some (.string "p") => samplePriceLevelLine
  | some (.string "l") => sampleLastTradeLine
  | _ => ""

def sampleParse (text : String) : Option Json :=
  [(samplePriceLevelLine ++ "\n", samplePriceLevelUpdate.jsonObj),
    (sampleLastTradeLine ++ "\n", sampleLastTradeUpdate.jsonObj)].lookup text

theorem sampleEvents_rendered : Rendered sampleDump sampleParse sampleEvents where
  price := by
    rintro _ ⟨_, rfl | rfl, rfl⟩ _ ⟨_, rfl | rfl, rfl⟩ - <;> rfl
  quantity := by
    rintro _ ⟨_, rfl | rfl, own⟩ _ ⟨_, rfl | rfl, other⟩ - <;>
      exact (List.mem_singleton.mp own).trans (List.mem_singleton.mp other).symm
  line := by
    rintro _ (rfl | rfl)
    · exact ⟨samplePriceLevelUpdate.jsonObj, rfl, rfl⟩
    · exact ⟨sampleLastTradeUpdate.jsonObj, rfl, rfl⟩

theorem sample_decodes :
    ∃ numbers : NumberReader, ∀ event ∈ sampleEvents,
      Decodes sampleDump sampleParse numbers sampleEvents event ↔
        ¬ ∃ update, event = .publicLastTradeUpdate update :=
  events_decode_iff sampleEvents_rendered

/-- No reader of the envelope reads the sample of a last trade update back. -/
theorem last_trade_update_lost :
    ¬ ∀ (dump : Json → String) (parse : String → Option Json) (events : Set Event),
      Rendered dump parse events → ∃ numbers : NumberReader, ∀ event ∈ events,
        Decodes dump parse numbers events event := by
  intro decodable
  obtain ⟨numbers, decodes⟩ := decodable sampleDump sampleParse sampleEvents sampleEvents_rendered
  obtain ⟨decoded, -⟩ := decodes (.publicLastTradeUpdate sampleLastTradeUpdate) (Or.inr rfl)
  rw [sampleEvents_rendered.readLine_eq (Or.inr rfl)] at decoded
  cases decoded

end OrderForge
