/-
This file says what an order book is for. An ideal book has on each side the resting
orders in the order in which they are served, and nothing else: no levels, no counters
and no index. An order trades with the orders at the prices it accepts, the best price
first and at a price the oldest order first. What is left of a limit order rests behind
the orders of its price; what is left of the others is dropped. A cancel takes off the
order with its id.
-/

import OrderForge.BookInvariant
import OrderForge.Session

namespace OrderForge

structure IdealBook where
  symbol : String
  ladder : Side → List Order

/-- What a call says: the order as it is given back, the terms of its trades, and the orders that
it reports, the passive ones first. -/
structure IdealAnswer where
  order : Option Order
  trades : List Trade
  reports : List Order
deriving DecidableEq

/-- Whether an order may trade at a price. -/
def Order.TradesAt (order : Order) (price : Price) : Prop :=
  order.type = .MARKET ∨ order.accepts price

instance (order : Order) : DecidablePred order.TradesAt := fun _ =>
  inferInstanceAs (Decidable (_ ∨ _))

namespace IdealBook

def create (symbol : String) : IdealBook := ⟨symbol, fun _ => []⟩

variable (book : IdealBook) (order : Order)

/-- The orders that an order may trade with. -/
def counterparts : List Order :=
  (book.ladder order.side.opposite).filter fun resting => order.TradesAt resting.price

/-- The orders beyond the limit of an order. -/
def beyond : List Order :=
  (book.ladder order.side.opposite).filter fun resting => ¬ order.TradesAt resting.price

/-- What each counterpart gives. -/
def fills : List (Order × Nat) :=
  Greedy.taken Order.remaining order.remaining (book.counterparts order)

/-- The order as it is given back. -/
def executed : Order :=
  if book.fills order = [] then
    if order.type = .LIMIT then order else order.setStatus .REJECTED
  else order.cut ((book.fills order).map Prod.snd).sum

/-- The opposite side afterwards. -/
def served : List Order :=
  Greedy.left Order.remaining Order.cut order.remaining (book.counterparts order) ++
    book.beyond order

/-- The own side afterwards. -/
def rested : List Order :=
  if order.type = .LIMIT ∧ 0 < (book.executed order).remaining then
    Ranked.insert order.side.Better Order.price (book.executed order) (book.ladder order.side)
  else book.ladder order.side

def addOrder : IdealBook × IdealAnswer :=
  if order.symbol = book.symbol then
    ({ book with
        ladder := fun side => if side = order.side then book.rested order else book.served order },
      { order := some (book.executed order)
        trades := (book.fills order).map (MatchingEngine.termsOf order)
        reports := ((book.fills order).map fun gave => gave.1.cut gave.2) ++
          [book.executed order] })
  else (book, ⟨some order, [], []⟩)

def removeOrder (id : OrderId) : IdealBook :=
  { book with ladder := fun side => (book.ladder side).filter fun resting => resting.orderId ≠ id }

/-- A call. -/
def step (book : IdealBook) : Request → IdealBook × IdealAnswer
  | .addOrder order => book.addOrder order
  | .removeOrder id => (book.removeOrder id, ⟨none, [], []⟩)

variable {book order}

/-- An order trades within its limit. -/
theorem accepts_of_mem_fills (priced : order.type ≠ .MARKET) {gave : Order × Nat}
    (member : gave ∈ book.fills order) : order.accepts gave.1.price := by
  have inBook := Greedy.mem_of_taken Order.remaining member
  exact (of_decide_eq_true (List.mem_filter.mp inBook).2 : order.TradesAt _).resolve_left priced

/-- When the orders at the accepted prices are enough, the fills are those of a sweep through the
whole side. -/
theorem fills_eq (split : book.counterparts order ++ book.beyond order =
      book.ladder order.side.opposite)
    (covers : book.beyond order = [] ∨
      order.remaining ≤ Greedy.total Order.remaining (book.counterparts order)) :
    book.fills order = Greedy.taken Order.remaining order.remaining
      (book.ladder order.side.opposite) := by
  have none : Greedy.taken Order.remaining (order.remaining -
      Greedy.total Order.remaining (book.counterparts order)) (book.beyond order) = [] := by
    refine (Greedy.taken_eq_nil _).mpr (covers.symm.imp_left fun enough => ?_)
    exact Nat.sub_eq_zero_of_le enough
  rw [← split, Greedy.taken_append, none, List.append_nil, fills]

theorem served_eq (split : book.counterparts order ++ book.beyond order =
      book.ladder order.side.opposite)
    (covers : book.beyond order = [] ∨
      order.remaining ≤ Greedy.total Order.remaining (book.counterparts order)) :
    book.served order = Greedy.left Order.remaining Order.cut order.remaining
      (book.ladder order.side.opposite) := by
  rw [← split, Greedy.left_append, served]
  rcases covers with none | enough
  · rw [none, Greedy.left_nil]
  · rw [Nat.sub_eq_zero_of_le enough, Greedy.left_zero]

end IdealBook

end OrderForge
