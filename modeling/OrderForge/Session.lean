/-
This file models how a book is used: a session is a book together with the id
generators, and a run is any sequence of `add_order` and `remove_order` calls made
on a book that starts empty. Each call is a transition of the machine library, so
a property of a run may speak about the session before and after every call, the
order as the caller gets it back, the trades made and the events published.
-/

import OrderForge.Machine
import OrderForge.OrderBook

namespace OrderForge

/-- A book and the generators behind `get_id<Order>()` and `get_id<Trade>()`. -/
structure Session where
  book : OrderBook
  orderIds : IdGenerator
  tradeIds : IdGenerator

/-- One call on the book. -/
inductive Request
  | addOrder (order : Order)
  | removeOrder (id : OrderId)
deriving DecidableEq

/-- What a call gives back and publishes. `order` is the caller's order after `add_order`. -/
structure Response where
  order : Option Order
  trades : List Trade
  events : List Event

/-- One call of a run. -/
abbrev Call := Transition Session Request Response

namespace Session

/-- A session on an empty book. -/
def create (symbol : String) (handlers : Handlers) (orderIds tradeIds : IdGenerator) :
    Session where
  book := OrderBook.create symbol handlers
  orderIds := orderIds
  tradeIds := tradeIds

/-- One call. -/
def step (session : Session) : Request → Session × Response
  | .addOrder order =>
    let (outcome, orderIds) := session.book.addOrder session.orderIds session.tradeIds order
    (⟨outcome.book, orderIds, outcome.tradeIds⟩,
      ⟨some outcome.order, outcome.trades, outcome.events⟩)
  | .removeOrder id =>
    let (book, events) := session.book.removeOrder id
    ({ session with book }, ⟨none, [], events⟩)

/-- The calls of a run. -/
def run (session : Session) (requests : List Request) : List Call :=
  Machine.run step session requests

/-- The session a run ends in. -/
def final (session : Session) (requests : List Request) : Session :=
  Machine.final step session requests

end Session

/-! ### Sample runs -/

/-- An order of the sample runs, with its raw price and quantity. -/
def sampleOrder (side : Side) (type : OrderType) (price : Int64) (qty : UInt64) (id : OrderId) :
    Order :=
  Order.create "AAPL" ⟨price⟩ ⟨qty⟩ side .OPEN type 555 0 id 0

/-- The start of the sample runs: an empty book with every handler installed. -/
def sampleSession : Session := Session.create "AAPL" ⟨true, true, true, true⟩ ⟨0⟩ ⟨0⟩

/-- Two sell orders at one price. -/
def sampleAsks : List Request :=
  [.addOrder (sampleOrder .SELL .LIMIT 10000 100000000 1),
    .addOrder (sampleOrder .SELL .LIMIT 10000 100000000 2)]

/-- A buy order that takes the first of them and half of the second. -/
def sampleFills : List Request :=
  sampleAsks ++ [.addOrder (sampleOrder .BUY .LIMIT 10500 150000000 3)]

/-- What is left of the second is cancelled, and a market order finds nothing. -/
def sampleDay : List Request :=
  sampleFills ++ [.removeOrder 2, .addOrder (sampleOrder .BUY .MARKET 0 100000000 4)]

/-- A sell order that is cancelled. -/
def sampleCancel : List Request :=
  [.addOrder (sampleOrder .SELL .LIMIT 10000 100000000 1), .removeOrder 1]

end OrderForge
