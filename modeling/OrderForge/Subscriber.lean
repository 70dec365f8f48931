/-
This file follows the feeds to a subscriber. A subscriber gets lines on a connection,
reads the events from them, and keeps a view of one symbol. While it is connected the
view of the public order book feed counts the book, and that of the private order feed
has the queues of the book: what is known of the feeds of one book holds of what comes
over the connection, whatever else the process does.
-/

import OrderForge.DepthFeed
import OrderForge.Exchange
import OrderForge.QueueFeed

namespace OrderForge

/-- The order book updates of a symbol. -/
def levelsOf (symbol : String) (events : List Event) : List PriceLevelUpdate :=
  (events.filterMap Event.level?).filter fun update => update.symbol = symbol

/-- The order updates of a symbol. -/
def ordersOf (symbol : String) (events : List Event) : List Order :=
  (events.filterMap Event.order?).filter fun update => update.symbol = symbol

/-- Of updates of one symbol, those of a symbol are all or none. -/
theorem filter_symbol {Update : Type} (symbolOf : Update → String) {updates : List Update}
    {own : String} (all : ∀ update ∈ updates, symbolOf update = own) (symbol : String) :
    (updates.filter fun update => symbolOf update = symbol) =
      if symbol = own then updates else [] := by
  split_ifs with same
  · exact List.filter_eq_self.mpr fun update member =>
      decide_eq_true ((all update member).trans same.symm)
  · refine List.filter_eq_nil_iff.mpr fun update member => ?_
    rw [all update member, decide_eq_true_iff]
    exact fun other => same other.symm

theorem levelsOf_append (symbol : String) (first second : List Event) :
    levelsOf symbol (first ++ second) = levelsOf symbol first ++ levelsOf symbol second := by
  unfold levelsOf
  rw [List.filterMap_append, List.filter_append]

theorem ordersOf_append (symbol : String) (first second : List Event) :
    ordersOf symbol (first ++ second) = ordersOf symbol first ++ ordersOf symbol second := by
  unfold ordersOf
  rw [List.filterMap_append, List.filter_append]

/-! ### The books of the process -/

namespace Session

/-- Every order book update of a call is of the symbol of its book. -/
theorem Effect.symbol_of_level {session : Session} {request : Request}
    {result : Session × Response} (effect : session.Effect request result)
    (installed : session.book.handlers.publicOrderBookUpdate = true) :
    ∀ update ∈ result.2.events.filterMap Event.level?, update.symbol = session.book.symbol := by
  obtain ⟨side, passive, own, passiveReported, ownReported, feed⟩ := effect.levels installed
  intro update member
  rw [feed] at member
  rcases List.mem_append.mp member with first | second
  · exact (passiveReported.placed update first).1
  · exact (ownReported.placed update second).1

end Session

namespace Process

/-- Books under their own symbols with all handlers installed. -/
structure WellNamed (process : Process String) : Prop where
  wf : ∀ symbol, (process.books symbol).Wf
  symbol : ∀ symbol, (process.books symbol).symbol = symbol
  handlers : ∀ symbol, (process.books symbol).handlers = OrderForgeApp.handlers

variable {process : Process String} {request : String × Request} {symbol : String}

theorem create_wellNamed (orderIds tradeIds : IdGenerator) :
    (create id (fun _ => OrderForgeApp.handlers) orderIds tradeIds).WellNamed where
  wf symbol := OrderBook.create_wf symbol _
  symbol _ := rfl
  handlers _ := rfl

/-- The books keep their symbols and their handlers. -/
theorem WellNamed.step (named : process.WellNamed) (request : String × Request) :
    (process.step request).1.WellNamed := by
  have effect := process.step_effect request (named.wf request.1)
  have all : ∀ symbol, ((process.step request).1.books symbol).Wf ∧
      ((process.step request).1.books symbol).symbol = symbol ∧
      ((process.step request).1.books symbol).handlers = OrderForgeApp.handlers := by
    intro symbol
    by_cases called : symbol = request.1
    · rw [called, process.step_book]
      exact ⟨effect.wf (named.wf request.1), effect.symbol.trans (named.symbol request.1),
        effect.handlers.trans (named.handlers request.1)⟩
    · rw [process.step_book_of_ne request called]
      exact ⟨named.wf symbol, named.symbol symbol, named.handlers symbol⟩
  exact ⟨fun symbol => (all symbol).1, fun symbol => (all symbol).2.1,
    fun symbol => (all symbol).2.2⟩

/-- The order book updates of a call are those of the book that is called. -/
theorem WellNamed.levelsOf_step (named : process.WellNamed) (request : String × Request)
    (symbol : String) :
    levelsOf symbol (process.step request).2.events =
      if symbol = request.1 then (process.step request).2.events.filterMap Event.level?
      else [] := by
  have effect := process.step_effect request (named.wf request.1)
  have installed : (process.books request.1).handlers.publicOrderBookUpdate = true :=
    congrArg Handlers.publicOrderBookUpdate (named.handlers request.1)
  exact filter_symbol PriceLevelUpdate.symbol (fun update member =>
    (effect.symbol_of_level installed update member).trans (named.symbol request.1)) symbol

theorem WellNamed.ordersOf_step (named : process.WellNamed) (request : String × Request)
    (symbol : String) :
    ordersOf symbol (process.step request).2.events =
      if symbol = request.1 then (process.step request).2.events.filterMap Event.order?
      else [] := by
  have effect := process.step_effect request (named.wf request.1)
  exact filter_symbol Order.symbol (fun update member =>
    (effect.symbol_of_report (named.wf request.1) update member).trans
      (named.symbol request.1)) symbol

/-- A call takes a view of the depth along. -/
theorem WellNamed.counts_step (named : process.WellNamed) (request : String × Request)
    {view : DepthView} (counts : ∀ side, view.Counts side ((process.books symbol).orders side)) :
    ∀ side, ((levelsOf symbol (process.step request).2.events).foldl DepthView.apply view).Counts
      side (((process.step request).1.books symbol).orders side) := by
  have effect := process.step_effect request (named.wf request.1)
  have installed : (process.books request.1).handlers.publicOrderBookUpdate = true :=
    congrArg Handlers.publicOrderBookUpdate (named.handlers request.1)
  rw [named.levelsOf_step request symbol]
  split_ifs with called
  · subst called
    rw [process.step_book]
    exact effect.counts installed counts
  · rw [process.step_book_of_ne request called]
    exact counts

end Process

/-- Whether a call is no call of a book, or hands it an open order under an id under which none
rests there, for which no counter wraps. -/
def ProcessCall.Plain (symbol : String) (call : ProcessCall String) : Prop :=
  call.input.1 = symbol → ∃ order, call.input.2 = .addOrder order ∧
    Request.Open (.addOrder order) ∧
    (call.before.books symbol).MatchUnwrapped ((call.before.session symbol).prepared order) ∧
    (call.before.books symbol).Absent ((call.before.session symbol).prepared order).orderId

namespace Process

variable {process : Process String} {symbol : String}

/-- A plain call takes a view of the orders along. -/
theorem WellNamed.shows_step (named : process.WellNamed) (request : String × Request)
    (allowed : ProcessCall.Plain symbol (Machine.transition Process.step process request))
    (plain : (process.books symbol).Plain) {view : OrderView}
    (shows : view.Shows (process.books symbol)) :
    ((process.step request).1.books symbol).Plain ∧
      ((ordersOf symbol (process.step request).2.events).foldl OrderView.apply view).Shows
        ((process.step request).1.books symbol) := by
  rw [named.ordersOf_step request symbol]
  split_ifs with called
  · obtain ⟨name, asked⟩ := request
    obtain rfl : symbol = name := called
    obtain ⟨order, rfl, opened, unwrapped, new⟩ := allowed rfl
    have effect := process.step_effect (symbol, .addOrder order) (named.wf symbol)
    have installed : (process.books symbol).handlers.privateOrderUpdate = true :=
      congrArg Handlers.privateOrderUpdate (named.handlers symbol)
    obtain ⟨kept, follows⟩ := effect.shows plain installed opened unwrapped new
    rw [process.step_book]
    exact ⟨kept, follows view shows⟩
  · rw [process.step_book_of_ne request called]
    exact ⟨plain, shows⟩

/-- The events of some calls. -/
def eventsOf (calls : List (ProcessCall String)) : List Event :=
  calls.flatMap fun call => call.output.events

theorem eventsOf_concat (calls : List (ProcessCall String)) (call : ProcessCall String) :
    eventsOf (calls ++ [call]) = eventsOf calls ++ call.output.events := by
  unfold eventsOf
  rw [List.flatMap_append, List.flatMap_singleton]

/-- The books keep their symbols, and some calls take a view of the depth along. -/
theorem WellNamed.counts_run (named : process.WellNamed) (requests : List (String × Request)) :
    (Machine.final Process.step process requests).WellNamed ∧
      ∀ symbol, ∀ view : DepthView,
        (∀ side, view.Counts side ((process.books symbol).orders side)) →
        ∀ side, ((levelsOf symbol (eventsOf (Machine.run Process.step process requests))).foldl
          DepthView.apply view).Counts side
            (((Machine.final Process.step process requests).books symbol).orders side) := by
  have every : ∀ call ∈ Machine.run Process.step process requests, True := fun _ _ => trivial
  refine Machine.run_induction Process.step
    (motive := fun past last => last.WellNamed ∧
      ∀ symbol, ∀ view : DepthView,
        (∀ side, view.Counts side ((process.books symbol).orders side)) →
        ∀ side, ((levelsOf symbol (eventsOf past)).foldl DepthView.apply view).Counts side
          ((last.books symbol).orders side))
    ⟨named, fun _ _ counts => counts⟩ ?_ requests every
  rintro past last request ⟨wellNamed, follows⟩ -
  refine ⟨wellNamed.step request, fun symbol view counts => ?_⟩
  rw [eventsOf_concat, levelsOf_append, List.foldl_append]
  exact wellNamed.counts_step request (follows symbol view counts)

/-- Some plain calls take a view of the orders along. -/
theorem WellNamed.shows_run (named : process.WellNamed) {requests : List (String × Request)}
    (allowed : ∀ call ∈ Machine.run Process.step process requests, ProcessCall.Plain symbol call)
    (plain : (process.books symbol).Plain) {view : OrderView}
    (shows : view.Shows (process.books symbol)) :
    ((Machine.final Process.step process requests).books symbol).Plain ∧
      ((ordersOf symbol (eventsOf (Machine.run Process.step process requests))).foldl
        OrderView.apply view).Shows
          ((Machine.final Process.step process requests).books symbol) := by
  refine (Machine.run_induction Process.step
    (motive := fun past last => last.WellNamed ∧ (last.books symbol).Plain ∧
      ((ordersOf symbol (eventsOf past)).foldl OrderView.apply view).Shows (last.books symbol))
    ⟨named, plain, shows⟩ ?_ requests allowed).2
  rintro past last request ⟨wellNamed, kept, follows⟩ own
  refine ⟨wellNamed.step request, ?_⟩
  rw [eventsOf_concat, ordersOf_append, List.foldl_append]
  exact wellNamed.shows_step request own kept follows

end Process

/-! ### The lines of a connection -/

/-- The events that a reader gets from some lines. -/
def heard (parse : String → Option Json) (numbers : NumberReader) (lines : List String) :
    List Event :=
  lines.filterMap (readLine parse numbers)

/-- The events that some steps publish on a feed. -/
def publishedOn (conType : ConnectionType) (calls : List ExchangeCall) : Set Event :=
  {event | event ∈ calls.flatMap ExchangeCall.events ∧ event.connectionType = conType}

section Lines

variable {dump : Json → String} {parse : String → Option Json} {numbers : NumberReader}

/-- A reader that reads the numbers of some events reads the events from their lines. -/
theorem heard_map {events : List Event}
    (rendered : Rendered dump parse {event | event ∈ events})
    (reads : ∀ event ∈ events, numbers.Reads event)
    (named : ∀ event ∈ events, event.connectionType ≠ .PUBLIC_FEED_LAST_TRADE) :
    heard parse numbers (events.map (Event.toJsonString dump)) = events := by
  have own : ∀ event ∈ events,
      (readLine parse numbers ∘ Event.toJsonString dump) event = some event := by
    intro event member
    refine (rendered.readLine_eq member).trans (readEvent_jsonObj (reads event member) ?_)
    rintro ⟨update, rfl⟩
    exact named _ member rfl
  rw [heard, List.filterMap_map, List.filterMap_congr own, List.filterMap_some]

end Lines

theorem Rendered.mono {dump : Json → String} {parse : String → Option Json}
    {events others : Set Event} (rendered : Rendered dump parse events) (part : others ⊆ events) :
    Rendered dump parse others where
  price := rendered.price.mono fun _ own => own.imp fun _ both => ⟨part both.1, both.2⟩
  quantity := rendered.quantity.mono fun _ own => own.imp fun _ both => ⟨part both.1, both.2⟩
  line event member := rendered.line event (part member)

theorem levelsOf_filter (symbol : String) (events : List Event) :
    levelsOf symbol (events.filter fun event =>
      event.connectionType = .PUBLIC_FEED_ORDER_BOOK) = levelsOf symbol events := by
  unfold levelsOf
  rw [List.filterMap_filter]
  refine congrArg (List.filter _) (List.filterMap_congr fun event _ => ?_)
  cases event <;> rfl

theorem ordersOf_filter (symbol : String) (events : List Event) :
    ordersOf symbol (events.filter fun event =>
      event.connectionType = .PRIVATE_FEED_ORDERS) = ordersOf symbol events := by
  unfold ordersOf
  rw [List.filterMap_filter]
  refine congrArg (List.filter _) (List.filterMap_congr fun event _ => ?_)
  cases event <;> rfl

/-! ### The views of a subscriber -/

/-- Whether a step hands a book only open orders under ids under which none rests there, for which
no counter wraps. -/
def ExchangeCall.Plain (libraries : Libraries) (symbol : String) (call : ExchangeCall) : Prop :=
  ∀ buffer ∈ call.buffers, ∀ order book,
    call.before.app.handedOrder libraries call.input.surroundings buffer = some order →
    order.symbol = symbol → call.before.app.orderBooks.find? symbol = some book →
    Request.Open (.addOrder order) ∧
      book.MatchUnwrapped (book.prepared call.before.app.orderIds order) ∧
      book.Absent (book.prepared call.before.app.orderIds order).orderId

namespace Exchange

variable {libraries : Libraries} {dump : Json → String} {symbol : String}

theorem step_plain {exchange : Exchange} {request : ExchangeRequest} {process : Process String}
    (sound : exchange.reactor.Sound)
    (orderly : ExchangeCall.Orderly (Machine.transition (step libraries dump) exchange request))
    (serves : exchange.app.Serves process)
    (plain : ExchangeCall.Plain libraries symbol
      (Machine.transition (step libraries dump) exchange request)) :
    ∀ made ∈ Machine.run Process.step process (ExchangeCall.submissions libraries
        (Machine.transition (step libraries dump) exchange request)),
      ProcessCall.Plain symbol made := by
  obtain ⟨after, buffers, stepped, -, effect⟩ := step_effect sound orderly
  have given : ExchangeCall.buffers (Machine.transition (step libraries dump) exchange request) =
      buffers := congrArg (fun result => Option.getD (Prod.snd result) []) stepped
  have small : buffers.length ≤ 1 := TCPReactor.length_buffers_of_step stepped
  unfold ExchangeCall.Plain at plain
  unfold ExchangeCall.submissions
  rw [given] at plain ⊢
  unfold Machine.transition at plain ⊢
  dsimp only at plain ⊢
  cases buffers with
  | nil => exact fun made none => (List.not_mem_nil none).elim
  | cons buffer rest =>
    have single : rest = [] :=
      List.length_eq_zero_iff.mp (Nat.le_zero.mp (Nat.le_of_succ_le_succ small))
    subst single
    cases handed : exchange.app.handedOrder libraries request.surroundings buffer with
    | none =>
      simp only [List.filterMap_cons, handed, Option.map_none, List.filterMap_nil]
      exact fun made none => (List.not_mem_nil none).elim
    | some order =>
      obtain ⟨book, known, -⟩ := OrderForgeApp.addsOnce_of_handedOrder handed
      simp only [List.filterMap_cons, handed, Option.map_some, List.filterMap_nil, Machine.run]
      refine List.forall_mem_singleton.mpr fun same => ⟨order, rfl, ?_⟩
      change order.symbol = symbol at same
      have own := plain buffer List.mem_cons_self order book handed same (same ▸ known)
      have served := serves.books symbol book (same ▸ known)
      rw [← served, serves.orderIds] at own
      exact own

/-- The calls of the books of a plain run are plain. -/
theorem run_plain {started : Exchange} (sound : started.reactor.Sound) {process : Process String}
    (serves : started.app.Serves process) {requests : List ExchangeRequest}
    (allowed : ∀ call ∈ Machine.run (step libraries dump) started requests,
      ExchangeCall.Orderly call ∧ ExchangeCall.Plain libraries symbol call) :
    ∀ made ∈ Machine.run Process.step process
        (submissions libraries (Machine.run (step libraries dump) started requests)),
      ProcessCall.Plain symbol made := by
  refine (Machine.run_induction (step libraries dump)
    (motive := fun past state => state.reactor.Sound ∧
      state.app.Serves (Machine.final Process.step process (submissions libraries past)) ∧
      ∀ made ∈ Machine.run Process.step process (submissions libraries past),
        ProcessCall.Plain symbol made)
    ⟨sound, serves, fun _ none => (List.not_mem_nil none).elim⟩ ?_ requests allowed).2.2
  rintro past state request ⟨sound, serves, all⟩ ⟨orderly, plain⟩
  have next := step_plain sound orderly serves plain
  refine ⟨(step_delivers sound orderly).2, ?_, ?_⟩
  · rw [submissions, List.flatMap_append, List.flatMap_singleton, Machine.final_append]
    exact (step_serves sound orderly serves).1
  · rw [submissions, List.flatMap_append, List.flatMap_singleton, Machine.run_append]
    exact List.forall_mem_append.mpr ⟨all, next⟩

/-- From a sound state on, a connection hears the events of its feed. -/
theorem heard_since (symbols : List String) (orderIds tradeIds : IdGenerator)
    {front during : List ExchangeRequest}
    (orderly : ∀ call ∈ run libraries dump symbols orderIds tradeIds (front ++ during),
      call.Orderly)
    {handler : Address} {conType : ConnectionType} (named : conType ≠ .PUBLIC_FEED_LAST_TRADE)
    (connected : ∀ call ∈ since libraries dump symbols orderIds tradeIds front during,
      call.after.reactor.Connected handler conType)
    {parse : String → Option Json}
    (rendered : Rendered dump parse (publishedOn conType
      (since libraries dump symbols orderIds tradeIds front during))) :
    ∃ numbers : NumberReader, heard parse numbers (linesTo handler
        (since libraries dump symbols orderIds tradeIds front during)) =
      ((since libraries dump symbols orderIds tradeIds front during).flatMap
        ExchangeCall.events).filter fun event => event.connectionType = conType := by
  have delivers := run_delivers libraries dump symbols orderIds tradeIds orderly
  rw [run_since] at delivers
  obtain ⟨numbers, reads⟩ := rendered.exists_numberReader
  have same : publishedOn conType (since libraries dump symbols orderIds tradeIds front during) =
      {event | event ∈ ((since libraries dump symbols orderIds tradeIds front during).flatMap
        ExchangeCall.events).filter fun event => event.connectionType = conType} := by
    ext event
    simp [publishedOn]
  rw [same] at rendered reads
  refine ⟨numbers, ?_⟩
  rw [linesTo_of_delivers (List.forall_mem_append.mp delivers).2 connected]
  refine heard_map rendered reads fun event member => ?_
  rw [of_decide_eq_true (List.mem_filter.mp member).2]
  exact named

/-- The books after some steps. -/
def booksAfter (libraries : Libraries) (dump : Json → String) (symbols : List String)
    (orderIds tradeIds : IdGenerator) (front : List ExchangeRequest) : Process String :=
  Machine.final Process.step (books orderIds tradeIds)
    (submissions libraries (run libraries dump symbols orderIds tradeIds front))

/-- The application serves the books before and after some steps, and publishes what they do. -/
theorem serves_since (symbols : List String) (orderIds tradeIds : IdGenerator)
    {front during : List ExchangeRequest}
    (orderly : ∀ call ∈ run libraries dump symbols orderIds tradeIds (front ++ during),
      call.Orderly) :
    let calls := since libraries dump symbols orderIds tradeIds front during
    let process := booksAfter libraries dump symbols orderIds tradeIds front
    let started := final libraries dump symbols orderIds tradeIds front
    (started.reactor.Sound ∧ started.app.Serves process) ∧
      (final libraries dump symbols orderIds tradeIds (front ++ during)).app.Serves
        (Machine.final Process.step process (submissions libraries calls)) ∧
      calls.flatMap ExchangeCall.events = Process.eventsOf
        (Machine.run Process.step process (submissions libraries calls)) := by
  rw [run_since] at orderly
  obtain ⟨first, second⟩ := List.forall_mem_append.mp orderly
  obtain ⟨sound, serves, -, -⟩ := serves_of_orderly libraries dump TCPReactor.create_sound
    (OrderForgeApp.create_serves symbols orderIds tradeIds) first
  obtain ⟨-, last, -, events⟩ := serves_of_orderly libraries dump sound serves second
  refine ⟨⟨sound, serves⟩, ?_, events⟩
  rw [final, Machine.final_append]
  exact last

theorem booksAfter_wellNamed (libraries : Libraries) (dump : Json → String)
    (symbols : List String) (orderIds tradeIds : IdGenerator) (front : List ExchangeRequest) :
    (booksAfter libraries dump symbols orderIds tradeIds front).WellNamed :=
  ((Process.create_wellNamed orderIds tradeIds).counts_run _).1

/-- The books after some plain steps hold nothing but limit orders with ids of their own. -/
theorem booksAfter_plain (symbols : List String) (orderIds tradeIds : IdGenerator)
    {front : List ExchangeRequest}
    (allowed : ∀ call ∈ run libraries dump symbols orderIds tradeIds front,
      ExchangeCall.Orderly call ∧ ExchangeCall.Plain libraries symbol call) :
    ((booksAfter libraries dump symbols orderIds tradeIds front).books symbol).Plain := by
  have calls := run_plain TCPReactor.create_sound
    (OrderForgeApp.create_serves symbols orderIds tradeIds) allowed
  exact ((Process.create_wellNamed orderIds tradeIds).shows_run calls
    (OrderBook.create_plain symbol OrderForgeApp.handlers)
    (OrderView.create_shows symbol OrderForgeApp.handlers)).1

variable (libraries dump) (symbols : List String) (orderIds tradeIds : IdGenerator)

/-- While a subscriber of the public order book feed is connected, its view counts the book of
every symbol. -/
theorem depth_rebuilt {front during : List ExchangeRequest}
    (orderly : ∀ call ∈ run libraries dump symbols orderIds tradeIds (front ++ during),
      call.Orderly)
    {handler : Address}
    (connected : ∀ call ∈ since libraries dump symbols orderIds tradeIds front during,
      call.after.reactor.Connected handler .PUBLIC_FEED_ORDER_BOOK)
    {parse : String → Option Json}
    (rendered : Rendered dump parse (publishedOn .PUBLIC_FEED_ORDER_BOOK
      (since libraries dump symbols orderIds tradeIds front during))) :
    ∃ numbers : NumberReader, ∀ symbol before after,
      (final libraries dump symbols orderIds tradeIds front).app.orderBooks.find? symbol =
        some before →
      (final libraries dump symbols orderIds tradeIds (front ++ during)).app.orderBooks.find?
        symbol = some after →
      ∀ view : DepthView, (∀ side, view.Counts side (before.orders side)) →
        ∀ side, ((levelsOf symbol (heard parse numbers (linesTo handler
          (since libraries dump symbols orderIds tradeIds front during)))).foldl
            DepthView.apply view).Counts side (after.orders side) := by
  obtain ⟨numbers, lines⟩ := heard_since symbols orderIds tradeIds orderly (by decide) connected
    rendered
  obtain ⟨⟨-, serves⟩, last, events⟩ := serves_since symbols orderIds tradeIds orderly
  have named := booksAfter_wellNamed libraries dump symbols orderIds tradeIds front
  refine ⟨numbers, fun symbol before after found foundAfter view counts => ?_⟩
  rw [lines, levelsOf_filter, events, ← last.books symbol after foundAfter]
  rw [← serves.books symbol before found] at counts
  exact (named.counts_run _).2 symbol view counts

/-- What the sample publishes on the order book feed. -/
theorem sample_levels : publishedOn .PUBLIC_FEED_ORDER_BOOK
    (since sampleReader sampleDump ["AAPL"] ⟨0⟩ ⟨0⟩ sampleFront sampleDuring) ⊆ sampleEvents := by
  have all : ∀ event ∈ Process.eventsOf (Machine.run Process.step
      (booksAfter sampleReader sampleDump ["AAPL"] ⟨0⟩ ⟨0⟩ sampleFront)
      (submissions sampleReader
        (since sampleReader sampleDump ["AAPL"] ⟨0⟩ ⟨0⟩ sampleFront sampleDuring))),
      event.connectionType = .PUBLIC_FEED_ORDER_BOOK →
        event.level? = some samplePriceLevelUpdate := by
    decide +kernel
  rintro event ⟨member, feed⟩
  obtain ⟨-, -, events⟩ := serves_since ["AAPL"] ⟨0⟩ ⟨0⟩
    (sample_orderly sampleReader sampleDump ["AAPL"] ⟨0⟩ ⟨0⟩)
  rw [events] at member
  have same := all event member feed
  cases event with
  | publicOrderBookUpdate update => exact Or.inl (congrArg _ (Option.some.inj same))
  | privateOrderUpdate => cases same
  | privateTradesUpdate => cases same
  | publicLastTradeUpdate => cases same

/-- The subscriber of the sample hears of the order that comes to rest, and counts it. -/
theorem depth_rebuilt_sample : ∃ numbers : NumberReader, ∀ symbol before after,
    (final sampleReader sampleDump ["AAPL"] ⟨0⟩ ⟨0⟩ sampleFront).app.orderBooks.find? symbol =
      some before →
    (final sampleReader sampleDump ["AAPL"] ⟨0⟩ ⟨0⟩
      (sampleFront ++ sampleDuring)).app.orderBooks.find? symbol = some after →
    ∀ view : DepthView, (∀ side, view.Counts side (before.orders side)) →
      ∀ side, ((levelsOf symbol (heard sampleParse numbers (linesTo 48
        (since sampleReader sampleDump ["AAPL"] ⟨0⟩ ⟨0⟩ sampleFront sampleDuring)))).foldl
          DepthView.apply view).Counts side (after.orders side) :=
  depth_rebuilt sampleReader sampleDump ["AAPL"] ⟨0⟩ ⟨0⟩ (sample_orderly _ _ _ _ _)
    (sample_connected _ _ _ _ _) (sampleEvents_rendered.mono sample_levels)

/-- While a subscriber of the private order feed is connected, its view has the queues of the book
of a symbol. -/
theorem queues_rebuilt {front during : List ExchangeRequest} {symbol : String}
    (allowed : ∀ call ∈ run libraries dump symbols orderIds tradeIds (front ++ during),
      call.Orderly ∧ call.Plain libraries symbol)
    {handler : Address}
    (connected : ∀ call ∈ since libraries dump symbols orderIds tradeIds front during,
      call.after.reactor.Connected handler .PRIVATE_FEED_ORDERS)
    {parse : String → Option Json}
    (rendered : Rendered dump parse (publishedOn .PRIVATE_FEED_ORDERS
      (since libraries dump symbols orderIds tradeIds front during))) :
    ∃ numbers : NumberReader, ∀ before after,
      (final libraries dump symbols orderIds tradeIds front).app.orderBooks.find? symbol =
        some before →
      (final libraries dump symbols orderIds tradeIds (front ++ during)).app.orderBooks.find?
        symbol = some after →
      ∀ view : OrderView, view.Shows before →
        ((ordersOf symbol (heard parse numbers (linesTo handler
          (since libraries dump symbols orderIds tradeIds front during)))).foldl
            OrderView.apply view).Shows after := by
  have orderly : ∀ call ∈ run libraries dump symbols orderIds tradeIds (front ++ during),
      call.Orderly := fun call member => (allowed call member).1
  rw [run_since] at allowed
  obtain ⟨first, second⟩ := List.forall_mem_append.mp allowed
  obtain ⟨numbers, lines⟩ := heard_since symbols orderIds tradeIds orderly (by decide) connected
    rendered
  obtain ⟨⟨sound, serves⟩, last, events⟩ := serves_since symbols orderIds tradeIds orderly
  have named := booksAfter_wellNamed libraries dump symbols orderIds tradeIds front
  have plain := booksAfter_plain symbols orderIds tradeIds first
  refine ⟨numbers, fun before after found foundAfter view shows => ?_⟩
  rw [lines, ordersOf_filter, events, ← last.books symbol after foundAfter]
  rw [← serves.books symbol before found] at shows
  exact (named.shows_run (run_plain sound serves second) plain shows).2

/-- The order of the sample as it is reported. -/
def sampleReported : Order where
  symbol := "AAPL"
  price := ⟨10000⟩
  qty := ⟨100000000⟩
  remainingQty := ⟨100000000⟩
  side := .BUY
  status := .OPEN
  type := .LIMIT
  clientOrderId := 7
  orderId := 1
  timestamp := 0
  accId := 555

def sampleOrderLine : String :=
  "\x7b\"data\":\x7b\"account_id\":555,\"client_order_id\":7,\"order_id\":1,\"price\":100.0," ++
    "\"quantity\":1.0,\"remaining_quantity\":1.0,\"side\":\"BUY\",\"status\":\"OPEN\"," ++
    "\"symbol\":\"AAPL\",\"timestamp\":0,\"type\":\"LIMIT\"\x7d,\"event\":\"o\"," ++
    "\"symbol\":\"AAPL\"\x7d"

/-- The text of the report, and of the other events that of `sampleDump`. -/
def sampleOrderDump (json : Json) : String :=
  match json.scalarAt ["event"] with
  | some (.string "o") => sampleOrderLine
  | _ => sampleDump json

def sampleOrderParse (text : String) : Option Json :=
  if text = sampleOrderLine ++ "\n" then some sampleReported.jsonObj else sampleParse text

theorem sampleReported_rendered :
    Rendered sampleOrderDump sampleOrderParse {.privateOrderUpdate sampleReported} where
  price := by
    rintro _ ⟨_, rfl, rfl⟩ _ ⟨_, rfl, rfl⟩ -
    rfl
  quantity := by
    have single : ∀ quantity ∈ (Event.privateOrderUpdate sampleReported).quantities,
        quantity = ⟨100000000⟩ := by decide
    rintro _ ⟨_, rfl, own⟩ _ ⟨_, rfl, other⟩ -
    exact (single _ own).trans (single _ other).symm
  line := by
    rintro _ rfl
    exact ⟨sampleReported.jsonObj, if_pos rfl, rfl⟩

/-- What the sample publishes on the order feed. -/
theorem sample_reports : publishedOn .PRIVATE_FEED_ORDERS
    (since sampleReader sampleOrderDump ["AAPL"] ⟨0⟩ ⟨0⟩ sampleFront sampleDuring) ⊆
      {.privateOrderUpdate sampleReported} := by
  have all : ∀ event ∈ Process.eventsOf (Machine.run Process.step
      (booksAfter sampleReader sampleOrderDump ["AAPL"] ⟨0⟩ ⟨0⟩ sampleFront)
      (submissions sampleReader
        (since sampleReader sampleOrderDump ["AAPL"] ⟨0⟩ ⟨0⟩ sampleFront sampleDuring))),
      event.connectionType = .PRIVATE_FEED_ORDERS →
        event.order? = some sampleReported := by
    decide +kernel
  rintro event ⟨member, feed⟩
  obtain ⟨-, -, events⟩ := serves_since ["AAPL"] ⟨0⟩ ⟨0⟩
    (sample_orderly sampleReader sampleOrderDump ["AAPL"] ⟨0⟩ ⟨0⟩)
  rw [events] at member
  have same := all event member feed
  cases event with
  | privateOrderUpdate update => exact congrArg _ (Option.some.inj same)
  | publicOrderBookUpdate => cases same
  | privateTradesUpdate => cases same
  | publicLastTradeUpdate => cases same

theorem sample_plain : ∀ call ∈ run sampleReader sampleOrderDump ["AAPL"] ⟨0⟩ ⟨0⟩
    (sampleFront ++ sampleDuring), call.Plain sampleReader "AAPL" := by
  have empty : ∀ call ∈ run sampleReader sampleOrderDump ["AAPL"] ⟨0⟩ ⟨0⟩
      (sampleFront ++ sampleDuring), ∀ buffer ∈ call.buffers,
      ∀ order ∈ call.before.app.handedOrder sampleReader call.input.surroundings buffer,
        Request.Open (.addOrder order) ∧
          ∀ book ∈ call.before.app.orderBooks.find? order.symbol,
            ∀ side ∈ [Side.BUY, Side.SELL], (book.orders side).isEmpty = true := by
    decide +kernel
  intro call member buffer given order book handed same found
  obtain ⟨opened, none⟩ := empty call member buffer given order handed
  have orders : ∀ side, book.orders side = [] := by
    intro side
    exact List.isEmpty_iff.mp (none book (same ▸ found) side (by cases side <;> decide))
  refine ⟨opened, fun _ resting inBook => ?_, fun side resting inBook => ?_⟩
  · rw [orders] at inBook
    cases inBook
  · rw [orders side] at inBook
    cases inBook

theorem sample_subscribed :
    ∀ call ∈ since sampleReader sampleOrderDump ["AAPL"] ⟨0⟩ ⟨0⟩ sampleFront sampleDuring,
      call.after.reactor.Connected 64 .PRIVATE_FEED_ORDERS :=
  connected_of_reactor sampleReader sampleOrderDump ["AAPL"] ⟨0⟩ ⟨0⟩ (by decide +kernel)

/-- The client of the sample hears of its order, which is the queue of its level. -/
theorem queues_rebuilt_sample : ∃ numbers : NumberReader, ∀ before after,
    (final sampleReader sampleOrderDump ["AAPL"] ⟨0⟩ ⟨0⟩ sampleFront).app.orderBooks.find?
      "AAPL" = some before →
    (final sampleReader sampleOrderDump ["AAPL"] ⟨0⟩ ⟨0⟩
      (sampleFront ++ sampleDuring)).app.orderBooks.find? "AAPL" = some after →
    ∀ view : OrderView, view.Shows before →
      ((ordersOf "AAPL" (heard sampleOrderParse numbers (linesTo 64
        (since sampleReader sampleOrderDump ["AAPL"] ⟨0⟩ ⟨0⟩ sampleFront sampleDuring)))).foldl
          OrderView.apply view).Shows after :=
  queues_rebuilt sampleReader sampleOrderDump ["AAPL"] ⟨0⟩ ⟨0⟩
    (fun call member => ⟨sample_orderly _ _ _ _ _ call member, sample_plain call member⟩)
    sample_subscribed (sampleReported_rendered.mono sample_reports)

end Exchange

end OrderForge
