/-
This file proves that the books of a process do not influence one another. All they
share is the generators of ids. The number of a trade goes nowhere but into the
trade, and the id that an order is given stays with the order. So the calls of one
book, in whatever calls of other books they are embedded, are those of a session
that has this book alone and whose orders come with the ids they were given, up to
the numbers of the trades.
-/

import OrderForge.Numbering
import OrderForge.Process

namespace OrderForge

/-! ### What a call says but for the numbers of trades -/

def Event.terms : Event → Event
  | .privateOrderUpdate order => .privateOrderUpdate order
  | .privateTradesUpdate trade => .privateTradesUpdate trade.terms
  | .publicOrderBookUpdate update => .publicOrderBookUpdate update
  | .publicLastTradeUpdate update => .publicLastTradeUpdate update

def Response.terms (response : Response) : Response where
  order := response.order
  trades := response.trades.map Trade.terms
  events := response.events.map Event.terms

/-- An outcome without the numbers that were given. -/
def Outcome.terms (outcome : Outcome) : Outcome where
  book := outcome.book
  tradeIds := ⟨0⟩
  order := outcome.order
  trades := outcome.trades.map Trade.terms
  events := outcome.events.map Event.terms

theorem Outcome.terms_eq {first second : Outcome} (book : first.book = second.book)
    (order : first.order = second.order)
    (trades : first.trades.map Trade.terms = second.trades.map Trade.terms)
    (events : first.events.map Event.terms = second.events.map Event.terms) :
    first.terms = second.terms := by
  unfold Outcome.terms
  rw [book, order, trades, events]

theorem emit_terms (installed : Bool) (event : Event) :
    (emit installed event).map Event.terms = emit installed event.terms := by
  cases installed <;> rfl

/-! ### One match -/

namespace MatchingEngine

/-- An engine without the numbers it has given. -/
def terms (engine : MatchingEngine) : MatchingEngine :=
  { engine with
    trades := engine.trades.map Trade.terms
    tradeIds := ⟨0⟩ }

variable {first second : MatchingEngine}

theorem originalOrder_of_terms (alike : first.terms = second.terms) :
    first.originalOrder = second.originalOrder := by
  have same := congrArg originalOrder alike
  exact same

theorem hasRemainingQty_of_terms (alike : first.terms = second.terms) :
    first.hasRemainingQty = second.hasRemainingQty := by
  unfold hasRemainingQty remainingQty
  rw [originalOrder_of_terms alike]

theorem addLevelToRemoveOrders_terms (alike : first.terms = second.terms) (price : Price) :
    (first.addLevelToRemoveOrders price).terms = (second.addLevelToRemoveOrders price).terms := by
  have same := congrArg (addLevelToRemoveOrders · price) alike
  exact same

theorem matchOrder_terms (alike : first.terms = second.terms) (order : Order) :
    (first.matchOrder order).1 = (second.matchOrder order).1 ∧
      (first.matchOrder order).2.1 = (second.matchOrder order).2.1 ∧
      (first.matchOrder order).2.2.terms = (second.matchOrder order).2.2.terms := by
  have amount : first.amountOf order = second.amountOf order := by
    unfold amountOf remainingQty
    rw [originalOrder_of_terms alike]
  rw [matchOrder_eq, matchOrder_eq, amount]
  refine ⟨rfl, rfl, ?_⟩
  obtain ⟨original, trades, modified, levels, generator⟩ := first
  obtain ⟨other, others, changed, prices, next⟩ := second
  simp only [terms, mk.injEq, and_true] at alike
  obtain ⟨rfl, same, rfl, rfl⟩ := alike
  simp only [terms, record, List.map_append, same]
  rfl

end MatchingEngine

/-! ### The loops over queues and levels -/

namespace PriceLevel

def Scan.terms (scan : Scan) : Scan := { scan with engine := scan.engine.terms }

theorem matchNode_terms (first second : Scan) (node : OrderId × Order)
    (alike : first.terms = second.terms) :
    (matchNode first node).1 = (matchNode second node).1 ∧
      (matchNode first node).2.terms = (matchNode second node).2.terms := by
  have engines : first.engine.terms = second.engine.terms := congrArg Scan.engine alike
  obtain ⟨total, marks, own⟩ := first
  obtain ⟨otherTotal, otherMarks, other⟩ := second
  simp only [Scan.terms, Scan.mk.injEq] at alike
  obtain ⟨rfl, rfl, -⟩ := alike
  obtain ⟨removed, item, engine⟩ := MatchingEngine.matchOrder_terms engines node.2
  dsimp only at engines removed item engine
  unfold matchNode
  simp only [MatchingEngine.hasRemainingQty_of_terms engines]
  split
  · simp only [Scan.terms, removed, item, engine, and_self]
  · simp only [Scan.terms, engines, and_self]

theorem matchOrder_terms (level : PriceLevel) {first second : MatchingEngine}
    (alike : first.terms = second.terms) :
    (level.matchOrder first).1 = (level.matchOrder second).1 ∧
      (level.matchOrder first).2.1.terms = (level.matchOrder second).2.1.terms ∧
      (level.matchOrder first).2.2 = (level.matchOrder second).2.2 := by
  have start : Scan.terms ⟨level.totalQty, level.ordersToBeRemoved, first⟩ =
      Scan.terms ⟨level.totalQty, level.ordersToBeRemoved, second⟩ :=
    congrArg (Scan.mk _ _) alike
  have passed := InsertionMap.mapAccum_congr Scan.terms matchNode_terms start level.orderCont
  unfold matchOrder
  generalize level.orderCont.mapAccum matchNode ⟨_, _, first⟩ = plain at passed ⊢
  generalize level.orderCont.mapAccum matchNode ⟨_, _, second⟩ = other at passed ⊢
  obtain ⟨nodes, total, marks, engine⟩ := plain
  obtain ⟨otherNodes, otherTotal, otherMarks, otherEngine⟩ := other
  obtain ⟨same, scans⟩ := passed
  simp only [Scan.terms, Scan.mk.injEq] at same scans
  obtain ⟨rfl, rfl, engines⟩ := scans
  subst same
  dsimp only
  refine ⟨rfl, ?_, rfl⟩
  split
  · exact MatchingEngine.addLevelToRemoveOrders_terms engines _
  · exact engines

end PriceLevel

namespace BookSide

variable {CompFunc : Price → Price → Prop}

/-- The engine of a state without the numbers it has given. -/
def stateTerms (state : MatchingEngine × List PriceLevelUpdate) :
    MatchingEngine × List PriceLevelUpdate := (state.1.terms, state.2)

theorem matchLevel_terms (first second : MatchingEngine × List PriceLevelUpdate)
    (entry : Price × PriceLevel) (alike : stateTerms first = stateTerms second) :
    (matchLevel first entry).1 = (matchLevel second entry).1 ∧
      stateTerms (matchLevel first entry).2 = stateTerms (matchLevel second entry).2 := by
  obtain ⟨engines, updates⟩ := Prod.ext_iff.mp alike
  obtain ⟨level, engine, update⟩ := entry.2.matchOrder_terms engines
  unfold matchLevel
  rw [MatchingEngine.hasRemainingQty_of_terms engines]
  split
  · exact ⟨level, Prod.ext engine (congrArg₂ (· ++ [·]) updates update)⟩
  · exact ⟨rfl, alike⟩

theorem matchOrder_terms (bookSide : BookSide CompFunc) {first second : MatchingEngine}
    (alike : first.terms = second.terms) :
    (bookSide.matchOrder first).1 = (bookSide.matchOrder second).1 ∧
      (bookSide.matchOrder first).2.1.terms = (bookSide.matchOrder second).2.1.terms ∧
      (bookSide.matchOrder first).2.2 = (bookSide.matchOrder second).2.2 := by
  have start : stateTerms (first, []) = stateTerms (second, []) := congrArg (·, []) alike
  have passed :=
    FlatMap.mapAccum_congr stateTerms matchLevel_terms start bookSide.levels.bookCont
  unfold matchOrder
  generalize bookSide.levels.bookCont.mapAccum matchLevel (first, []) = plain at passed ⊢
  generalize bookSide.levels.bookCont.mapAccum matchLevel (second, []) = other at passed ⊢
  obtain ⟨entries, engine, updates⟩ := plain
  obtain ⟨otherEntries, otherEngine, otherUpdates⟩ := other
  obtain ⟨rfl, states⟩ := passed
  obtain ⟨engines, rfl⟩ := Prod.ext_iff.mp states
  exact ⟨rfl, engines, rfl⟩

end BookSide

/-! ### The calls of a book -/

namespace OrderBook

variable (book : OrderBook)

theorem matchEvents_terms {first second : MatchingEngine} (alike : first.terms = second.terms)
    (updates : List PriceLevelUpdate) :
    (book.matchEvents first updates).map Event.terms =
      (book.matchEvents second updates).map Event.terms := by
  have trades : first.trades.map Trade.terms = second.trades.map Trade.terms :=
    congrArg MatchingEngine.trades alike
  have modified := congrArg MatchingEngine.modifiedOrders alike
  change first.modifiedOrders = second.modifiedOrders at modified
  -- what is published of a trade depends on the trade without its number
  have feed : ∀ engine : MatchingEngine,
      (engine.trades.flatMap fun trade =>
        emit book.handlers.privateTradesUpdate (.privateTradesUpdate trade) ++
          emit book.handlers.publicLastTradeUpdate (.publicLastTradeUpdate
            ⟨book.symbol, trade.price, trade.qty, trade.crossingSide⟩)).map Event.terms =
        (engine.trades.map Trade.terms).flatMap fun trade =>
          emit book.handlers.privateTradesUpdate (.privateTradesUpdate trade) ++
            emit book.handlers.publicLastTradeUpdate (.publicLastTradeUpdate
              ⟨book.symbol, trade.price, trade.qty, trade.crossingSide⟩) := by
    intro engine
    rw [List.map_flatMap, List.flatMap_map]
    refine List.flatMap_congr fun trade _ => ?_
    rw [List.map_append, emit_terms, emit_terms]
    rfl
  unfold matchEvents
  rw [List.map_append, List.map_append, feed, trades, modified, ← feed, ← List.map_append,
    ← List.map_append]

theorem matchOrder_terms (first second : IdGenerator) (order : Order) :
    (book.matchOrder first order).terms = (book.matchOrder second order).terms := by
  have start : (MatchingEngine.create order first).terms =
      (MatchingEngine.create order second).terms := rfl
  unfold matchOrder
  split
  · obtain ⟨asks, engines, updates⟩ := book.asks.matchOrder_terms start
    have levels := congrArg MatchingEngine.removeLevels engines
    refine Outcome.terms_eq ?_ (MatchingEngine.originalOrder_of_terms engines)
      (congrArg MatchingEngine.trades engines) ?_
    · exact congrArg₂ (fun asks levels => { book with
        asks := BookSide.removeMarkedOrderNodes asks levels }) asks levels
    · dsimp only
      rw [updates]
      exact book.matchEvents_terms engines _
  · obtain ⟨bids, engines, updates⟩ := book.bids.matchOrder_terms start
    have levels := congrArg MatchingEngine.removeLevels engines
    refine Outcome.terms_eq ?_ (MatchingEngine.originalOrder_of_terms engines)
      (congrArg MatchingEngine.trades engines) ?_
    · exact congrArg₂ (fun bids levels => { book with
        bids := BookSide.removeMarkedOrderNodes bids levels }) bids levels
    · dsimp only
      rw [updates]
      exact book.matchEvents_terms engines _

theorem limitOrder_terms (first second : IdGenerator) (order : Order) :
    (book.limitOrder first order).terms = (book.limitOrder second order).terms := by
  have matched : (if book.isCrossingOrder order then book.matchOrder first order
      else book.unchanged first order).terms =
      (if book.isCrossingOrder order then book.matchOrder second order
        else book.unchanged second order).terms := by
    split
    · exact book.matchOrder_terms first second order
    · rfl
  unfold limitOrder
  generalize (if book.isCrossingOrder order then book.matchOrder first order
    else book.unchanged first order) = plain at matched ⊢
  generalize (if book.isCrossingOrder order then book.matchOrder second order
    else book.unchanged second order) = other at matched ⊢
  have books := congrArg Outcome.book matched
  have orders := congrArg Outcome.order matched
  have trades := congrArg Outcome.trades matched
  have events := congrArg Outcome.events matched
  change plain.book = other.book at books
  change plain.order = other.order at orders
  dsimp only
  rw [orders, books]
  split
  · exact matched
  · refine Outcome.terms_eq rfl rfl trades ?_
    rw [List.map_append, List.map_append]
    exact congrArg (· ++ _) events

theorem executeOrder_terms (first second : IdGenerator) (order : Order) :
    (book.executeOrder first order).terms = (book.executeOrder second order).terms := by
  unfold executeOrder
  cases order.type with
  | MARKET =>
    dsimp only
    unfold marketOrder
    split
    · rfl
    · exact book.matchOrder_terms first second order
  | FILL_AND_KILL =>
    dsimp only
    unfold fillAndKillOrder
    split
    · exact book.matchOrder_terms first second order
    · rfl
  | LIMIT => exact book.limitOrder_terms first second order

/-- An order that has the id another one is given is treated alike. -/
theorem addOrder_terms {order named : Order} (orderIds otherIds first second : IdGenerator)
    (own : order.symbol = book.symbol) (sameSymbol : named.symbol = book.symbol)
    (same : book.prepared otherIds named = book.prepared orderIds order) :
    (book.addOrder otherIds second named).1.terms =
      (book.addOrder orderIds first order).1.terms := by
  have executed := book.executeOrder_terms second first (book.prepared orderIds order)
  have books := congrArg Outcome.book executed
  have orders := congrArg Outcome.order executed
  have trades := congrArg Outcome.trades executed
  have events := congrArg Outcome.events executed
  change (book.executeOrder second _).order = (book.executeOrder first _).order at orders
  rw [addOrder_own otherIds second sameSymbol, addOrder_own orderIds first own, same]
  refine Outcome.terms_eq books orders trades ?_
  dsimp only
  rw [List.map_append, List.map_append, orders]
  exact congrArg (· ++ _) events

/-- An order that comes with the id it would be given is treated alike. -/
theorem addOrder_named {book : OrderBook} (wf : book.Wf)
    (orderIds otherIds first second : IdGenerator) {order : Order}
    (identified : order.symbol = book.symbol → (book.prepared orderIds order).orderId ≠ 0) :
    (book.addOrder otherIds second
        { order with orderId := (book.addOrder orderIds first order).1.order.orderId }).1.terms =
      (book.addOrder orderIds first order).1.terms := by
  by_cases own : order.symbol = book.symbol
  · have executed := addOrder_executed wf orderIds first own
    have result : (book.addOrder orderIds first order).1.order.orderId =
        (book.prepared orderIds order).orderId := by
      rw [executed.result]
      exact processed_orderId _ _
    rw [result]
    refine book.addOrder_terms orderIds otherIds first second own own ?_
    rw [prepared_eq, if_neg (identified own), prepared_eq]
  · have foreign := addOrder_foreign orderIds first own
    have kept : { order with orderId := (book.addOrder orderIds first order).1.order.orderId } =
        order := by
      rw [foreign]
      rfl
    rw [kept, foreign, addOrder_foreign otherIds second own]
    rfl

end OrderBook

/-- A request whose order has the id that the order had after the call. -/
def Request.named (request : Request) (response : Response) : Request :=
  match request with
  | .addOrder order =>
    .addOrder { order with orderId := (response.order.map Order.orderId).getD order.orderId }
  | .removeOrder id => .removeOrder id

namespace Session

/-- Whether an order of the book's symbol has an id when it reaches the `switch`. -/
def Identifies (session : Session) : Request → Prop
  | .addOrder order =>
    order.symbol = session.book.symbol → (session.prepared order).orderId ≠ 0
  | .removeOrder _ => True

/-- Sessions with one book do the same with an order that comes with the id it is given, whatever
their generators are. -/
theorem step_named {first second : Session} (wf : first.book.Wf) (same : second.book = first.book)
    {request : Request} (identified : first.Identifies request) :
    (second.step (request.named (first.step request).2)).1.book = (first.step request).1.book ∧
      (second.step (request.named (first.step request).2)).2.terms =
        (first.step request).2.terms := by
  unfold Session.step Response.terms
  cases request with
  | removeOrder id =>
    unfold Request.named
    dsimp only
    rw [same]
    exact ⟨rfl, rfl⟩
  | addOrder order =>
    have added := OrderBook.addOrder_named wf first.orderIds second.orderIds first.tradeIds
      second.tradeIds identified
    unfold Request.named
    dsimp only [Option.map_some, Option.getD_some]
    rw [same]
    have result := congrArg Outcome.order added
    have trades := congrArg Outcome.trades added
    have events := congrArg Outcome.events added
    unfold Outcome.terms at result trades events
    dsimp only at result trades events
    rw [result, trades, events]
    have books := congrArg Outcome.book added
    exact ⟨books, rfl⟩

end Session

/-! ### Ids until the ring is gone around -/

theorem OrderBook.addOrder_orderIds (book : OrderBook) (orderIds tradeIds : IdGenerator)
    (order : Order) : (book.addOrder orderIds tradeIds order).2 = orderIds ∨
      (book.addOrder orderIds tradeIds order).2 = orderIds.generateId.2 := by
  unfold OrderBook.addOrder
  split
  · unfold OrderBook.prepareOrder
    dsimp only
    split
    · exact Or.inr rfl
    · exact Or.inl rfl
  · exact Or.inl rfl

namespace IdGenerator

variable {generator : IdGenerator} {count : Nat}

theorem Fits.counter_generateId (fits : generator.Fits (count + 1)) :
    generator.generateId.1.toNat = generator.counter.toNat + 1 := by
  unfold Fits at fits
  unfold generateId
  rw [UInt64.toNat_add, UInt64.toNat_one]
  omega

theorem Fits.generateId_ne_zero (fits : generator.Fits (count + 1)) :
    generator.generateId.1 ≠ 0 := by
  intro zero
  have next := fits.counter_generateId
  rw [zero] at next
  cases next

theorem Fits.generateId (fits : generator.Fits (count + 1)) :
    generator.generateId.2.Fits count := by
  have next : generator.generateId.2.counter.toNat = generator.counter.toNat + 1 :=
    fits.counter_generateId
  unfold Fits at fits ⊢
  omega

theorem Fits.pred (fits : generator.Fits (count + 1)) : generator.Fits count := by
  unfold Fits at fits ⊢
  omega

end IdGenerator

namespace Process

variable {Name : Type} [DecidableEq Name]

/-- While the generator of order ids has not gone around the ring, every order has an id. -/
theorem run_identifies (process : Process Name) {requests : List (Name × Request)}
    (fits : process.orderIds.Fits requests.length) :
    ∀ call ∈ Machine.run step process requests,
      (call.before.session call.input.1).Identifies call.input.2 := by
  induction requests generalizing process with
  | nil => exact fun _ none => (List.not_mem_nil none).elim
  | cons request rest inductionHypothesis =>
    obtain ⟨name, call⟩ := request
    refine List.forall_mem_cons.mpr ⟨?_, inductionHypothesis _ ?_⟩
    · cases call with
      | removeOrder id => trivial
      | addOrder order =>
        intro _
        rw [Session.prepared_eq]
        dsimp only
        split
        · exact fits.generateId_ne_zero
        · assumption
    · cases call with
      | removeOrder id => exact fits.pred
      | addOrder order =>
        have moved := (process.books name).addOrder_orderIds process.orderIds process.tradeIds order
        change IdGenerator.Fits
          ((process.books name).addOrder process.orderIds process.tradeIds order).2 rest.length
        rcases moved with same | next
        · rw [same]
          exact fits.pred
        · rw [next]
          exact fits.generateId

end Process

/-! ### The calls of one book -/

/-- What a call of a book shows: the book before, the request, the response but for the numbers of
trades, and the book afterwards. -/
@[ext]
structure Sight where
  before : OrderBook
  request : Request
  response : Response
  after : OrderBook

def Call.sight (call : Call) : Sight where
  before := call.before.book
  request := call.input
  response := call.output.terms
  after := call.after.book

namespace ProcessCall

variable {Name : Type} (call : ProcessCall Name)

/-- The request of a call with the id its order was given. -/
def request : Request := call.input.2.named call.output

def sight : Sight where
  before := call.before.books call.input.1
  request := call.request
  response := call.output.terms
  after := call.after.books call.input.1

end ProcessCall

namespace Process

variable {Name : Type} [DecidableEq Name] (symbol : Name → String) (handlers : Name → Handlers)
  {orderIds tradeIds : IdGenerator}

/-- In every run the calls of one book are those of a session with this book alone, whatever is
asked of the other books in between. -/
theorem calls_of_book {requests : List (Name × Request)} (fits : orderIds.Fits requests.length)
    (name : Name) (ownOrderIds ownTradeIds : IdGenerator) :
    let calls : List (ProcessCall Name) :=
      (Machine.run step (create symbol handlers orderIds tradeIds) requests).filter fun call =>
        call.input.1 = name
    calls.map ProcessCall.sight =
      ((Session.create (symbol name) (handlers name) ownOrderIds ownTradeIds).run
        (calls.map ProcessCall.request)).map Call.sight := by
  refine Machine.run_part step
    (motive := fun process session => session.book = process.books name ∧ session.book.Wf)
    ProcessCall.request ProcessCall.sight Call.sight ?_ ?_
    ⟨rfl, OrderBook.create_wf (symbol name) (handlers name)⟩
    (run_identifies (create symbol handlers orderIds tradeIds) fits)
  · rintro process session request ⟨same, wf⟩ - other
    have kept := process.step_book_of_ne request fun equal => other equal.symm
    exact ⟨same.trans kept.symm, wf⟩
  · rintro process session ⟨called, request⟩ ⟨same, wf⟩ identified (rfl : called = name)
    change session.book = (process.session called).book at same
    obtain ⟨book, response⟩ := Session.step_named (same ▸ wf) same identified
    have after := process.step_book (called, request)
    have stepped := (Session.step_effect wf (request.named
      ((process.session called).step request).2)).wf wf
    exact ⟨⟨book.trans after.symm, stepped⟩,
      Sight.ext same.symm rfl response.symm (after.trans book.symm)⟩

theorem calls_of_book_day :
    let calls : List (ProcessCall Bool) :=
      (Machine.run step (create (fun _ => "AAPL") (fun _ => ⟨true, true, true, true⟩) ⟨0⟩ ⟨0⟩)
        sampleTurns).filter fun call => call.input.1 = true
    calls.map ProcessCall.sight =
      ((Session.create "AAPL" ⟨true, true, true, true⟩ ⟨5⟩ ⟨7⟩).run
        (calls.map ProcessCall.request)).map Call.sight :=
  calls_of_book (fun _ => "AAPL") (fun _ => ⟨true, true, true, true⟩)
    (by
      unfold IdGenerator.Fits
      decide) true ⟨5⟩ ⟨7⟩

end Process

end OrderForge
