/-
This file models one side of the book: the levels in the order of the side's
comparison, which is `>` on prices for bids and `<` for asks, so that the best
level comes first.

A `PriceLevel*` is the price its level is stored under. The source changes a level
through the pointer; here the changed level is put back under its price. A level
that has been erased from the map is out of reach of every later call, so nothing
is kept of it.
-/

import OrderForge.FlatMap
import OrderForge.PriceLevel

namespace OrderForge

/-- `OrderBookDataMap<CompFunc>`. -/
structure OrderBookDataMap (CompFunc : Price → Price → Prop) where
  symbol : String
  side : Side
  bookCont : FlatMap CompFunc PriceLevel

namespace OrderBookDataMap

variable {CompFunc : Price → Price → Prop} [DecidableRel CompFunc]
  [IsStrictTotalOrder Price CompFunc]

def create (symbol : String) (side : Side) : OrderBookDataMap CompFunc where
  symbol := symbol
  side := side
  bookCont := FlatMap.empty

def empty (levels : OrderBookDataMap CompFunc) : Bool := levels.bookCont.isEmpty

def bestPrice (levels : OrderBookDataMap CompFunc) : Option Price :=
  levels.bookCont.begin?.map Prod.fst

/-- `add_book_level`: the map with the level, and the level. -/
def addBookLevel (levels : OrderBookDataMap CompFunc) (price : Price) :
    OrderBookDataMap CompFunc × PriceLevel :=
  let level := PriceLevel.create levels.symbol price levels.side
  let bookCont := levels.bookCont.emplace price level
  ({ levels with bookCont }, (bookCont.find? price).getD level)

/-- `get_book_level`: the level of a price, created when there is none. -/
def getBookLevel (levels : OrderBookDataMap CompFunc) (price : Price) :
    OrderBookDataMap CompFunc × PriceLevel :=
  match levels.bookCont.find? price with
  | some level => (levels, level)
  | none => levels.addBookLevel price

/-- The map after the level of a price has changed. -/
def setBookLevel (levels : OrderBookDataMap CompFunc) (price : Price) (level : PriceLevel) :
    OrderBookDataMap CompFunc :=
  { levels with bookCont := levels.bookCont.modify price fun _ => level }

def removeBookLevel (levels : OrderBookDataMap CompFunc) (price : Price) :
    OrderBookDataMap CompFunc :=
  { levels with bookCont := levels.bookCont.erase price }

end OrderBookDataMap

/-- `BookSide<CompFunc>`. -/
structure BookSide (CompFunc : Price → Price → Prop) where
  side : Side
  levels : OrderBookDataMap CompFunc

namespace BookSide

variable {CompFunc : Price → Price → Prop} [DecidableRel CompFunc]
  [IsStrictTotalOrder Price CompFunc]

def create (symbol : String) (side : Side) : BookSide CompFunc where
  side := side
  levels := OrderBookDataMap.create symbol side

def empty (bookSide : BookSide CompFunc) : Bool := bookSide.levels.empty

def bestPrice (bookSide : BookSide CompFunc) : Option Price := bookSide.levels.bestPrice

/-- `BookSide::add_order`. -/
def addOrder (bookSide : BookSide CompFunc) (order : Order) :
    BookSide CompFunc × PriceLevelUpdate :=
  let (levels, level) := bookSide.levels.getBookLevel order.price
  let (level, update) := level.addOrder order
  ({ bookSide with levels := levels.setBookLevel order.price level }, update)

/-- `BookSide::remove_order`. -/
def removeOrder (bookSide : BookSide CompFunc) (helper : FindOrderHelper) :
    BookSide CompFunc × PriceLevelUpdate :=
  let (levels, level) := bookSide.levels.getBookLevel helper.price
  let (level, update) := level.removeOrder helper.orderId
  let levels := levels.setBookLevel helper.price level
  let levels :=
    if update.totalQuantity.value = 0 then levels.removeBookLevel update.price else levels
  ({ bookSide with levels }, update)

/-- The body of the first loop of `match_order`. -/
def matchLevel (state : MatchingEngine × List PriceLevelUpdate) (entry : Price × PriceLevel) :
    PriceLevel × MatchingEngine × List PriceLevelUpdate :=
  if state.1.hasRemainingQty then
    let (level, engine, update) := entry.2.matchOrder state.1
    (level, engine, state.2 ++ [update])
  else (entry.2, state)

/-- The body of the second loop of `match_order`. -/
def removeIfEmpty (levels : OrderBookDataMap CompFunc) (update : PriceLevelUpdate) :
    OrderBookDataMap CompFunc :=
  if update.totalQuantity.value = 0 then levels.removeBookLevel update.price else levels

/-- `BookSide::match_order`. -/
def matchOrder (bookSide : BookSide CompFunc) (engine : MatchingEngine) :
    BookSide CompFunc × MatchingEngine × List PriceLevelUpdate :=
  let (bookCont, engine, updates) := bookSide.levels.bookCont.mapAccum matchLevel (engine, [])
  let levels := updates.foldl removeIfEmpty { bookSide.levels with bookCont }
  ({ bookSide with levels }, engine, updates)

/-- `remove_marked_order_nodes` called on the levels of the given prices. -/
def removeMarkedOrderNodes (bookSide : BookSide CompFunc) (prices : List Price) :
    BookSide CompFunc :=
  { bookSide with levels := { bookSide.levels with
      bookCont := prices.foldl (fun bookCont price =>
        bookCont.modify price PriceLevel.removeMarkedOrderNodes) bookSide.levels.bookCont } }

end BookSide

end OrderForge
