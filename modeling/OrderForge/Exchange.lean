/-
This file models the process as a whole: the reactor with its connections, and the
application with its books, whose handler the connections call with what they read.
A step is a step of the reactor. What a connection reads is handled by the
application while the event is, and what the books publish is sent at once to the
connections of its feed; a connection from which something was read is left as it is,
so the feeds go to the connections that are there after the step.

What is thrown leaves the event loop and ends the process. Such a step puts out
nothing, like one for which the reactor has no result.
-/

import OrderForge.Envelope
import OrderForge.Process
import OrderForge.Segmentation

namespace OrderForge

/-- The part of the constructor that makes the books, from the symbols of their configurations: a
symbol that has a book already gets no other one. -/
def OrderForgeApp.create (symbols : List String) (orderIds tradeIds : IdGenerator) :
    OrderForgeApp where
  orderBooks := symbols.foldl (fun books symbol =>
    books.emplace symbol (OrderBook.create symbol ⟨true, true, true, true⟩)) FlatMap.empty
  orderIds := orderIds
  tradeIds := tradeIds

structure Exchange where
  reactor : TCPReactor
  app : OrderForgeApp

/-- What happens to the reactor, and what a message that is read then meets. -/
structure ExchangeRequest where
  reactorRequest : ReactorRequest
  surroundings : Surroundings

/-- The calls of the feed handlers in a step, and the calls of `send_buffer` that they make. -/
structure Published where
  events : List Event
  sent : List (Address × String)

/-- A step of a run of the process. -/
abbrev ExchangeCall := Transition Exchange ExchangeRequest (Option Published)

namespace Exchange

def create (symbols : List String) (orderIds tradeIds : IdGenerator) : Exchange where
  reactor := TCPReactor.create
  app := OrderForgeApp.create symbols orderIds tradeIds

variable (libraries : Libraries) (dump : Json → String)

/-- The feed handlers are called with some events, one after the other. -/
def publish (reactor : TCPReactor) (events : List Event) : Option Published :=
  (events.mapM (OrderForgeApp.feed dump reactor)).map fun sent => ⟨events, sent.flatten⟩

/-- The application handles some buffers. -/
def handleBuffers (surroundings : Surroundings) (reactor : TCPReactor) (app : OrderForgeApp) :
    List (List UInt8) → Option (OrderForgeApp × Published)
  | [] => some (app, ⟨[], []⟩)
  | buffer :: rest =>
    match app.handleEvent libraries surroundings buffer with
    | .error _ => none
    | .ok (after, events) =>
      (publish dump reactor events).bind fun published =>
        (handleBuffers surroundings reactor after rest).map fun (last, others) =>
          (last, ⟨published.events ++ others.events, published.sent ++ others.sent⟩)

/-- A step. -/
def step (exchange : Exchange) (request : ExchangeRequest) : Exchange × Option Published :=
  let (reactor, buffers) := exchange.reactor.step request.reactorRequest
  match buffers.bind (handleBuffers libraries dump request.surroundings reactor exchange.app) with
  | some (app, published) => (⟨reactor, app⟩, some published)
  | none => (⟨reactor, exchange.app⟩, none)

end Exchange

namespace ExchangeCall

variable (call : ExchangeCall)

/-- The step of the reactor. -/
def reactorCall : ReactorCall :=
  Machine.transition TCPReactor.step call.before.reactor call.input.reactorRequest

/-- What the application gets in a step. -/
def buffers : List (List UInt8) := call.reactorCall.output.getD []

/-- The events that are published in a step. -/
def events : List Event := (call.output.map Published.events).getD []

/-- The calls of `send_buffer` in a step. -/
def sent : List (Address × String) := (call.output.map Published.sent).getD []

/-- Whether the application throws in a step. -/
def Throws (libraries : Libraries) : Prop :=
  ∃ buffer ∈ call.buffers, ∃ exception,
    call.before.app.handleEvent libraries call.input.surroundings buffer = .error exception

/-- Whether the system allows a step, and no read fails in it. -/
def Orderly : Prop := call.reactorCall.Legal ∧ ¬ FailsRead call.reactorCall

instance : DecidablePred Orderly := fun call =>
  inferInstanceAs (Decidable (call.reactorCall.Legal ∧ ¬ FailsRead call.reactorCall))

end ExchangeCall

/-! ### What one connection is sent -/

/-- The lines among some calls of `send_buffer` that a handler gets. -/
def linesOf (handler : Address) (sent : List (Address × String)) : List String :=
  (sent.filter fun call => call.1 = handler).map Prod.snd

/-- The lines that a handler gets in some steps. -/
def linesTo (handler : Address) (calls : List ExchangeCall) : List String :=
  calls.flatMap fun call => linesOf handler call.sent

/-- Whether a connection has a type. -/
def TCPReactor.Connected (reactor : TCPReactor) (handler : Address) (conType : ConnectionType) :
    Prop :=
  (reactor.heap.find? handler).map EventHandler.getConnectionType = some conType

instance (reactor : TCPReactor) (handler : Address) (conType : ConnectionType) :
    Decidable (reactor.Connected handler conType) := inferInstanceAs (Decidable (_ = _))

theorem TCPReactor.connected_iff {reactor : TCPReactor} {handler : Address}
    {conType : ConnectionType} : reactor.Connected handler conType ↔
      ∃ object, reactor.heap.find? handler = some object ∧ object.getConnectionType = conType :=
  Option.map_eq_some_iff

/-- A list without repetitions that has nothing but one item. -/
theorem eq_singleton_of_nodup {Item : Type} {items : List Item} (distinct : items.Nodup)
    {item : Item} (member : item ∈ items) (only : ∀ other ∈ items, other = item) :
    items = [item] := by
  have copies := List.eq_replicate_of_mem only
  have positive := List.length_pos_of_mem member
  rw [copies] at distinct
  have one : items.length = 1 := le_antisymm (List.nodup_replicate.mp distinct) positive
  rw [copies, one]
  rfl

theorem linesOf_append (handler : Address) (first second : List (Address × String)) :
    linesOf handler (first ++ second) = linesOf handler first ++ linesOf handler second := by
  unfold linesOf
  rw [List.filter_append, List.map_append]

namespace Exchange

variable {libraries : Libraries} {dump : Json → String} {reactor : TCPReactor}

/-- A connection gets the line of an event once when it is of the event's feed, and nothing
otherwise. -/
theorem linesOf_feed (once : reactor.BroadcastsOnce) (dump : Json → String) (event : Event) :
    ∃ sent, OrderForgeApp.feed dump reactor event = some sent ∧
      ∀ handler, linesOf handler sent =
        if reactor.Connected handler event.connectionType then [event.toJsonString dump]
        else [] := by
  obtain ⟨sent, result, distinct, members⟩ := feed_of_broadcastsOnce once dump event
  refine ⟨sent, result, fun handler => ?_⟩
  have only : ∀ other ∈ sent.filter fun call => call.1 = handler,
      other = (handler, event.toJsonString dump) := by
    rintro ⟨other, text⟩ member
    obtain ⟨inSent, same⟩ := List.mem_filter.mp member
    obtain rfl : other = handler := of_decide_eq_true same
    rw [((members other text).mp inSent).1]
  split_ifs with connected
  · have member : (handler, event.toJsonString dump) ∈ sent :=
      (members _ _).mpr ⟨rfl, TCPReactor.connected_iff.mp connected⟩
    have own : (handler, event.toJsonString dump) ∈ sent.filter fun call => call.1 = handler :=
      List.mem_filter.mpr ⟨member, decide_eq_true rfl⟩
    rw [linesOf, eq_singleton_of_nodup (distinct.filter _) own only]
    rfl
  · have none : (sent.filter fun call => call.1 = handler) = [] := by
      refine List.eq_nil_iff_forall_not_mem.mpr fun other member => connected ?_
      have inSent := (List.mem_filter.mp member).1
      rw [only other member] at inSent
      exact TCPReactor.connected_iff.mpr ((members _ _).mp inSent).2
    rw [linesOf, none]
    rfl

/-- Everything that is published is sent, and a connection gets the lines of the events of its feed
in their order. -/
theorem publish_spec (once : reactor.BroadcastsOnce) (dump : Json → String) (events : List Event) :
    ∃ sent, publish dump reactor events = some ⟨events, sent⟩ ∧
      ∀ handler, linesOf handler sent =
        (events.filter fun event => reactor.Connected handler event.connectionType).map
          (Event.toJsonString dump) := by
  have all : ∃ lists, events.mapM (OrderForgeApp.feed dump reactor) = some lists ∧
      ∀ handler, linesOf handler lists.flatten =
        (events.filter fun event => reactor.Connected handler event.connectionType).map
          (Event.toJsonString dump) := by
    induction events with
    | nil => exact ⟨[], rfl, fun _ => rfl⟩
    | cons event rest inductionHypothesis =>
      obtain ⟨lists, others, lines⟩ := inductionHypothesis
      obtain ⟨sent, result, own⟩ := linesOf_feed once dump event
      refine ⟨sent :: lists, ?_, fun handler => ?_⟩
      · rw [List.mapM_cons, result, others]
        rfl
      · rw [List.flatten_cons, linesOf_append, own, lines, List.filter_cons]
        simp only [decide_eq_true_eq]
        split
        · rfl
        · rfl
  obtain ⟨lists, result, lines⟩ := all
  refine ⟨lists.flatten, ?_, lines⟩
  rw [publish, result]
  rfl

end Exchange

/-! ### One step -/

namespace TCPReactor

variable {reactor after : TCPReactor} {buffers : List (List UInt8)}

/-- One event makes the application get one buffer at most. -/
theorem length_buffers_of_handleEvent {handler : Address} {events : UInt64} {answers : Answers}
    (result : reactor.handleEvent handler events answers = some (after, buffers)) :
    buffers.length ≤ 1 := by
  obtain ⟨object, -, handled⟩ := Option.bind_eq_some_iff.mp result
  cases object with
  | connection fd next =>
    obtain ⟨other, -, same⟩ := Option.map_eq_some_iff.mp handled
    cases same
    exact Nat.zero_le 1
  | client fd conType =>
    dsimp only at handled
    unfold clientHandleEvent at handled
    split at handled
    · split at handled
      · cases handled
        exact Nat.zero_le 1
      · obtain ⟨other, -, same⟩ := Option.map_eq_some_iff.mp handled
        cases same
        exact Nat.zero_le 1
      · cases handled
        exact Nat.le_refl 1
    · cases handled
      exact Nat.zero_le 1

theorem length_buffers_of_step {request : ReactorRequest}
    (result : reactor.step request = (after, some buffers)) : buffers.length ≤ 1 := by
  unfold TCPReactor.step at result
  cases request with
  | listen fd next allocated =>
    dsimp only at result
    split at result
    · cases result
      exact Nat.zero_le 1
    · cases result
  | wait ready =>
    cases result
    exact Nat.zero_le 1
  | handle answers =>
    dsimp only at result
    split at result
    · cases result
    · split at result
      next handled =>
        cases result
        exact length_buffers_of_handleEvent handled
      next => cases result

end TCPReactor

namespace Exchange

/-- What a step does after the reactor has: nothing more, or the application throws, or it handles
a buffer and everything that is published is sent. -/
inductive Effect (libraries : Libraries) (dump : Json → String) (exchange : Exchange)
    (request : ExchangeRequest) (after : TCPReactor) :
    List (List UInt8) → Exchange × Option Published → Prop
  | silent : Effect libraries dump exchange request after []
      (⟨after, exchange.app⟩, some ⟨[], []⟩)
  | thrown (buffer : List UInt8) (exception : Exception)
      (throws : exchange.app.handleEvent libraries request.surroundings buffer = .error exception) :
      Effect libraries dump exchange request after [buffer] (⟨after, exchange.app⟩, none)
  | handled (buffer : List UInt8) (app : OrderForgeApp) (events : List Event)
      (sent : List (Address × String))
      (handled : exchange.app.handleEvent libraries request.surroundings buffer = .ok (app, events))
      (lines : ∀ handler, linesOf handler sent =
        (events.filter fun event => after.Connected handler event.connectionType).map
          (Event.toJsonString dump)) :
      Effect libraries dump exchange request after [buffer]
        (⟨after, app⟩, some ⟨events, sent⟩)

variable {libraries : Libraries} {dump : Json → String} {exchange : Exchange}
  {request : ExchangeRequest}

theorem step_effect (sound : exchange.reactor.Sound)
    (orderly : ExchangeCall.Orderly
      (Machine.transition (step libraries dump) exchange request)) :
    ∃ after buffers, exchange.reactor.step request.reactorRequest = (after, some buffers) ∧
      after.Sound ∧
      Effect libraries dump exchange request after buffers
        (exchange.step libraries dump request) := by
  have moved : (exchange.reactor.step request.reactorRequest).1.Sound ∧
      (exchange.reactor.step request.reactorRequest).2.isSome :=
    sound.step orderly.1 orderly.2
  unfold Exchange.step
  generalize stepped : exchange.reactor.step request.reactorRequest = result at moved ⊢
  obtain ⟨after, output⟩ := result
  obtain ⟨kept, has⟩ := moved
  obtain ⟨buffers, rfl⟩ := Option.isSome_iff_exists.mp has
  have small := TCPReactor.length_buffers_of_step stepped
  refine ⟨after, buffers, rfl, kept, ?_⟩
  dsimp only [Option.bind_some]
  cases buffers with
  | nil => exact Effect.silent
  | cons buffer rest =>
    have none : rest = [] :=
      List.length_eq_zero_iff.mp (Nat.le_zero.mp (Nat.le_of_succ_le_succ small))
    subst none
    rw [handleBuffers]
    cases handled : exchange.app.handleEvent libraries request.surroundings buffer with
    | error exception => exact Effect.thrown buffer exception handled
    | ok result =>
      obtain ⟨app, events⟩ := result
      obtain ⟨sent, published, lines⟩ := publish_spec kept.registry.broadcastsOnce dump events
      dsimp only
      rw [published, Option.bind_some, handleBuffers, Option.map_some]
      dsimp only
      rw [List.append_nil, List.append_nil]
      exact Effect.handled buffer app events sent handled lines

end Exchange

/-! ### Delivery -/

/-- What a step delivers: it has a result unless the application throws, and every connection gets
the lines of the events of its feed in their order. -/
structure ExchangeCall.Delivers (libraries : Libraries) (dump : Json → String)
    (call : ExchangeCall) : Prop where
  result : call.output.isSome ↔ ¬ call.Throws libraries
  lines : ∀ handler, linesOf handler call.sent =
    (call.events.filter fun event => call.after.reactor.Connected handler event.connectionType).map
      (Event.toJsonString dump)

namespace Exchange

variable {libraries : Libraries} {dump : Json → String} {exchange : Exchange}
  {request : ExchangeRequest}

theorem step_delivers (sound : exchange.reactor.Sound)
    (orderly : ExchangeCall.Orderly
      (Machine.transition (step libraries dump) exchange request)) :
    ExchangeCall.Delivers libraries dump
        (Machine.transition (step libraries dump) exchange request) ∧
      (exchange.step libraries dump request).1.reactor.Sound := by
  obtain ⟨after, buffers, stepped, kept, effect⟩ := step_effect sound orderly
  have given : ExchangeCall.buffers (Machine.transition (step libraries dump) exchange request) =
      buffers := congrArg (fun result => Option.getD (Prod.snd result) []) stepped
  unfold Machine.transition at given ⊢
  generalize exchange.step libraries dump request = result at effect given ⊢
  refine ⟨⟨?_, ?_⟩, ?_⟩
  · unfold ExchangeCall.Throws
    rw [given]
    cases effect with
    | silent => exact iff_of_true rfl (by simp)
    | thrown buffer exception throws =>
      exact iff_of_false Bool.false_ne_true
        (not_not_intro ⟨buffer, List.mem_singleton_self _, exception, throws⟩)
    | handled buffer app events sent handled =>
      refine iff_of_true rfl ?_
      rintro ⟨other, member, exception, throws⟩
      rw [List.mem_singleton.mp member] at throws
      cases handled.symm.trans throws
  · cases effect with
    | silent => exact fun _ => rfl
    | thrown => exact fun _ => rfl
    | handled buffer app events sent handled lines => exact lines
  · cases effect <;> exact kept

variable (libraries dump) (symbols : List String) (orderIds tradeIds : IdGenerator)

/-- The steps of a run of the process. -/
def run (requests : List ExchangeRequest) : List ExchangeCall :=
  Machine.run (step libraries dump) (create symbols orderIds tradeIds) requests

/-- The process a run ends in. -/
def final (requests : List ExchangeRequest) : Exchange :=
  Machine.final (step libraries dump) (create symbols orderIds tradeIds) requests

theorem step_reactor (exchange : Exchange) (request : ExchangeRequest) :
    (exchange.step libraries dump request).1.reactor =
      (exchange.reactor.step request.reactorRequest).1 := by
  unfold Exchange.step
  dsimp only
  split
  · rfl
  · rfl

/-- The reactor does in a run of the process what it does in a run of its own. -/
theorem run_reactor (exchange : Exchange) (requests : List ExchangeRequest) :
    (Machine.run (step libraries dump) exchange requests).map ExchangeCall.reactorCall =
      Machine.run TCPReactor.step exchange.reactor
        (requests.map ExchangeRequest.reactorRequest) := by
  induction requests generalizing exchange with
  | nil => rfl
  | cons request rest inductionHypothesis =>
    rw [Machine.run, List.map_cons, List.map_cons, Machine.run, inductionHypothesis, step_reactor]
    rfl

theorem final_reactor (requests : List ExchangeRequest) :
    (final libraries dump symbols orderIds tradeIds requests).reactor =
      TCPReactor.final (requests.map ExchangeRequest.reactorRequest) := by
  induction requests using List.reverseRecOn with
  | nil => rfl
  | append_singleton requests request inductionHypothesis =>
    rw [final, Machine.final_concat, step_reactor, List.map_append, List.map_singleton,
      TCPReactor.final, Machine.final_concat]
    exact congrArg (fun reactor => (TCPReactor.step reactor _).1) inductionHypothesis

/-- Whether a run is orderly is up to what happens to the reactor, whatever is sent. -/
theorem orderly_of_reactor {requests : List ExchangeRequest}
    (orderly : ∀ call ∈ TCPReactor.run (requests.map ExchangeRequest.reactorRequest),
      call.Legal ∧ ¬ FailsRead call) :
    ∀ call ∈ run libraries dump symbols orderIds tradeIds requests, call.Orderly := by
  intro call member
  refine orderly call.reactorCall ?_
  have own : call.reactorCall ∈ (run libraries dump symbols orderIds tradeIds requests).map
      ExchangeCall.reactorCall := List.mem_map_of_mem member
  rw [run, run_reactor] at own
  exact own

theorem run_delivers {requests : List ExchangeRequest}
    (orderly : ∀ call ∈ run libraries dump symbols orderIds tradeIds requests, call.Orderly) :
    ∀ call ∈ run libraries dump symbols orderIds tradeIds requests,
      call.Delivers libraries dump := by
  have both := Machine.run_induction (step libraries dump)
    (motive := fun past state => (∀ call ∈ past, ExchangeCall.Delivers libraries dump call) ∧
      state.reactor.Sound)
    ⟨fun _ none => (List.not_mem_nil none).elim, TCPReactor.create_sound⟩ ?_ requests orderly
  · exact both.1
  · rintro past state request ⟨delivered, sound⟩ own
    obtain ⟨next, kept⟩ := step_delivers sound own
    exact ⟨List.forall_mem_append.mpr ⟨delivered, List.forall_mem_singleton.mpr next⟩, kept⟩

/-- What happens after some steps. -/
def since (front during : List ExchangeRequest) : List ExchangeCall :=
  Machine.run (step libraries dump) (final libraries dump symbols orderIds tradeIds front) during

/-- Who is connected is up to what happens to the reactor, too. -/
theorem connected_of_reactor {front during : List ExchangeRequest} {handler : Address}
    {conType : ConnectionType}
    (connected : ∀ call ∈ Machine.run TCPReactor.step
      (TCPReactor.final (front.map ExchangeRequest.reactorRequest))
      (during.map ExchangeRequest.reactorRequest), call.after.Connected handler conType) :
    ∀ call ∈ since libraries dump symbols orderIds tradeIds front during,
      call.after.reactor.Connected handler conType := by
  intro call member
  have own : call.reactorCall ∈ (since libraries dump symbols orderIds tradeIds front during).map
      ExchangeCall.reactorCall := List.mem_map_of_mem member
  rw [since, run_reactor, final_reactor] at own
  have after : call.after.reactor = call.reactorCall.after := by
    obtain ⟨_, _, -, made⟩ := Machine.mem_run _ member
    rw [made]
    exact step_reactor libraries dump _ _
  rw [after]
  exact connected _ own

theorem run_since (front during : List ExchangeRequest) :
    run libraries dump symbols orderIds tradeIds (front ++ during) =
      run libraries dump symbols orderIds tradeIds front ++
        since libraries dump symbols orderIds tradeIds front during :=
  Machine.run_append _ _ _ _

variable {libraries dump}

/-- While a connection is there, it gets the lines of the events of its feed. -/
theorem linesTo_of_delivers {calls : List ExchangeCall} {handler : Address}
    {conType : ConnectionType} (delivers : ∀ call ∈ calls, call.Delivers libraries dump)
    (connected : ∀ call ∈ calls, call.after.reactor.Connected handler conType) :
    linesTo handler calls = ((calls.flatMap ExchangeCall.events).filter fun event =>
      event.connectionType = conType).map (Event.toJsonString dump) := by
  have own : ∀ call ∈ calls, linesOf handler call.sent =
      (call.events.filter fun event => event.connectionType = conType).map
        (Event.toJsonString dump) := by
    intro call member
    rw [(delivers call member).lines]
    refine congrArg _ (List.filter_congr fun event _ => decide_eq_decide.mpr ?_)
    rw [TCPReactor.Connected, connected call member]
    exact ⟨fun same => (Option.some.inj same).symm, fun same => congrArg some same.symm⟩
  rw [linesTo, List.flatMap_congr own, List.filter_flatMap, List.map_flatMap]

variable (libraries dump)

/-- Along every orderly run only what is thrown ends the process, and while a connection is there
it gets the lines of all events of its feed, each once and in the order in which they are
published, and no others. -/
theorem feed_delivered {front during : List ExchangeRequest}
    (orderly : ∀ call ∈ run libraries dump symbols orderIds tradeIds (front ++ during),
      call.Orderly) :
    let calls := since libraries dump symbols orderIds tradeIds front during
    (∀ call ∈ calls, call.output.isSome ↔ ¬ call.Throws libraries) ∧
      ∀ handler conType, (∀ call ∈ calls, call.after.reactor.Connected handler conType) →
        linesTo handler calls = ((calls.flatMap ExchangeCall.events).filter fun event =>
          event.connectionType = conType).map (Event.toJsonString dump) := by
  have delivers := run_delivers libraries dump symbols orderIds tradeIds orderly
  rw [run_since] at delivers
  have own := (List.forall_mem_append.mp delivers).2
  exact ⟨fun call member => (own call member).result,
    fun handler conType connected => linesTo_of_delivers own connected⟩

abbrev sampleReader : Libraries := sampleLibraries [(sampleText, sampleJson)]

/-- A subscriber of the depth feed and a client that sends orders are accepted. -/
def sampleFront : List ExchangeRequest :=
  [⟨.listen 3 .PUBLIC_FEED_ORDER_BOOK 16, .intact⟩, ⟨.listen 4 .PRIVATE_FEED_ORDERS 32, .intact⟩,
    ⟨.wait [(3, EPOLLIN), (4, EPOLLIN)], .intact⟩, ⟨.handle ⟨some 5, 48, none⟩, .intact⟩,
    ⟨.handle ⟨some 6, 64, none⟩, .intact⟩]

/-- The client sends an order. -/
def sampleDuring : List ExchangeRequest :=
  [⟨.wait [(6, EPOLLIN)], .intact⟩, ⟨.handle ⟨none, 0, some sampleText⟩, .intact⟩]

theorem sample_orderly :
    ∀ call ∈ run libraries dump symbols orderIds tradeIds (sampleFront ++ sampleDuring),
      call.Orderly :=
  orderly_of_reactor libraries dump symbols orderIds tradeIds (by decide +kernel)

theorem sample_connected :
    ∀ call ∈ since libraries dump symbols orderIds tradeIds sampleFront sampleDuring,
      call.after.reactor.Connected 48 .PUBLIC_FEED_ORDER_BOOK :=
  connected_of_reactor libraries dump symbols orderIds tradeIds (by decide +kernel)

/-- The line of the order that the client sends goes to the subscriber once. -/
theorem feed_delivered_sample :
    linesTo 48 (since sampleReader (fun _ => "") ["AAPL"] ⟨0⟩ ⟨0⟩
        sampleFront sampleDuring) =
      (((since sampleReader (fun _ => "") ["AAPL"] ⟨0⟩ ⟨0⟩
        sampleFront sampleDuring).flatMap ExchangeCall.events).filter fun event =>
          event.connectionType = .PUBLIC_FEED_ORDER_BOOK).map
        (Event.toJsonString fun _ => "") :=
  (feed_delivered sampleReader (fun _ => "") ["AAPL"] ⟨0⟩ ⟨0⟩
    (sample_orderly _ _ _ _ _)).2 48 .PUBLIC_FEED_ORDER_BOOK (sample_connected _ _ _ _ _)

end Exchange

/-! ### The books -/

namespace ExchangeCall

variable (libraries : Libraries) (call : ExchangeCall)

/-- The calls of the books in a step: the orders that are handed on. -/
def submissions : List (String × Request) :=
  call.buffers.filterMap fun buffer =>
    (call.before.app.handedOrder libraries call.input.surroundings buffer).map fun order =>
      (order.symbol, .addOrder order)

/-- The calls of the books that a step is asked for: the order of a valid message, when its symbol
has a book. -/
def requested : List (String × Request) :=
  call.buffers.filterMap fun buffer =>
    (OrderForgeApp.sentOrder libraries call.input.surroundings.timestamp buffer).bind fun order =>
      if call.before.app.hasBook order.symbol then some (order.symbol, .addOrder order) else none

/-- Whether the freed text of the symbol of each valid message finds what the symbol names. -/
def Routed : Prop :=
  ∀ buffer ∈ call.buffers, ∀ order,
    OrderForgeApp.sentOrder libraries call.input.surroundings.timestamp buffer = some order →
      call.before.app.Finds call.input.surroundings.freed order.symbol

theorem length_buffers : call.buffers.length ≤ 1 := by
  unfold buffers reactorCall Machine.transition
  generalize stepped :
    call.before.reactor.step call.input.reactorRequest = result
  obtain ⟨after, output⟩ := result
  cases output with
  | none => exact Nat.zero_le 1
  | some buffers => exact TCPReactor.length_buffers_of_step stepped

/-- A step calls the books that it is asked to call exactly when the freed text of the symbol finds
what the symbol names. -/
theorem submissions_eq_requested_iff :
    call.submissions libraries = call.requested libraries ↔ call.Routed libraries := by
  have short := call.length_buffers
  unfold submissions requested Routed
  generalize call.buffers = buffers at short ⊢
  cases buffers with
  | nil => exact iff_of_true rfl nofun
  | cons buffer rest =>
    have none : rest = [] :=
      List.length_eq_zero_iff.mp (Nat.le_zero.mp (Nat.le_of_succ_le_succ short))
    subst none
    have single : ∀ first second : List UInt8 → Option (String × Request),
        [buffer].filterMap first = [buffer].filterMap second ↔ first buffer = second buffer := by
      intro first second
      rw [List.filterMap_eq_flatMap_toList, List.filterMap_eq_flatMap_toList,
        List.flatMap_singleton, List.flatMap_singleton]
      cases first buffer <;> cases second buffer <;> simp
    rw [List.forall_mem_singleton, single]
    cases sent : OrderForgeApp.sentOrder libraries call.input.surroundings.timestamp buffer with
    | none =>
      rw [OrderForgeApp.handedOrder_of_sentOrder_eq_none sent]
      exact iff_of_true rfl nofun
    | some order =>
      have injective : Function.Injective fun order : Order =>
          (order.symbol, Request.addOrder order) := fun _ _ same =>
        Request.addOrder.inj (Prod.mk.inj same).2
      have wanted : (if call.before.app.hasBook order.symbol then
            some (order.symbol, Request.addOrder order) else none) =
          (if call.before.app.hasBook order.symbol then some order else none).map
            fun order => (order.symbol, Request.addOrder order) := by
        split <;> rfl
      rw [Option.bind_some, wanted, (Option.map_injective injective).eq_iff,
        OrderForgeApp.handedOrder_of_sentOrder sent]
      exact ⟨fun finds other same => Option.some.inj same ▸ finds, fun all => all order rfl⟩

end ExchangeCall

namespace OrderForgeApp

/-- The handlers that the application installs in each book. -/
abbrev handlers : Handlers := ⟨true, true, true, true⟩

/-- Whether an application has the generators of a process, and its books as far as it has any. -/
structure Serves (app : OrderForgeApp) (process : Process String) : Prop where
  books : ∀ symbol book, app.orderBooks.find? symbol = some book → process.books symbol = book
  orderIds : app.orderIds = process.orderIds
  tradeIds : app.tradeIds = process.tradeIds

variable (symbols : List String) (orderIds tradeIds : IdGenerator)

/-- The constructor makes an empty book for each symbol. -/
theorem find?_create (symbol : String) :
    (create symbols orderIds tradeIds).orderBooks.find? symbol =
      if symbol ∈ symbols then some (OrderBook.create symbol handlers) else none := by
  have all : ∀ (books : OrderBooks), (∀ book, books.find? symbol = some book →
      book = OrderBook.create symbol handlers) →
      (symbols.foldl (fun books symbol => books.emplace symbol (OrderBook.create symbol handlers))
        books).find? symbol =
        if symbol ∈ symbols then some (OrderBook.create symbol handlers)
        else books.find? symbol := by
    induction symbols with
    | nil => exact fun _ _ => rfl
    | cons first rest inductionHypothesis =>
      intro books new
      rw [List.foldl_cons, inductionHypothesis]
      · rw [FlatMap.find?_emplace]
        by_cases same : symbol = first
        · subst same
          cases found : books.find? symbol with
          | none => simp
          | some book => simp [new book found]
        · simp [same]
      · intro book found
        rw [FlatMap.find?_emplace] at found
        split at found
        next same =>
          subst same
          cases held : books.find? symbol with
          | none =>
            rw [held] at found
            exact (Option.some.inj found).symm
          | some old =>
            rw [held] at found
            exact (Option.some.inj found) ▸ new old held
        next => exact new book found
  exact all FlatMap.empty fun book found => by cases found

theorem create_serves :
    (create symbols orderIds tradeIds).Serves
      (Process.create id (fun _ => handlers) orderIds tradeIds) where
  books symbol book found := by
    rw [find?_create] at found
    split at found
    · exact Option.some.inj found
    · cases found
  orderIds := rfl
  tradeIds := rfl

variable {libraries : Libraries} {surroundings : Surroundings} {app after : OrderForgeApp}
  {message : List UInt8} {process : Process String}

/-- When no order is handed to a book, nothing is published either. -/
theorem silent_of_handedOrder_eq_none {events : List Event}
    (nothing : app.handedOrder libraries surroundings message = none)
    (handled : app.handleEvent libraries surroundings message = .ok (after, events)) :
    after = app ∧ events = [] := by
  obtain ⟨result, parsed, rest⟩ := Libraries.bind_eq_ok handled
  obtain ⟨order, held, -⟩ := Libraries.bind_eq_ok rest
  cases result with
  | error error => cases held
  | value value =>
    cases held
    rw [handedOrder, parsed] at nothing
    rw [handleEvent_of_unknown parsed (Option.map_eq_none_iff.mp nothing)] at handled
    cases handled
    exact ⟨rfl, rfl⟩

/-- A message that hands an order to a book is a call of the book. -/
theorem Serves.handleEvent (serves : app.Serves process) {order : Order}
    (handed : app.handedOrder libraries surroundings message = some order) :
    ∃ after, app.handleEvent libraries surroundings message =
        .ok (after, (process.step (order.symbol, .addOrder order)).2.events) ∧
      after.Serves (process.step (order.symbol, .addOrder order)).1 := by
  obtain ⟨book, known, -, after, events, handled, own, published, orderIds, tradeIds, others⟩ :=
    addsOnce_of_handedOrder handed
  have same := serves.books _ _ known
  rw [serves.orderIds, serves.tradeIds, ← same] at own published orderIds tradeIds
  subst published
  refine ⟨after, handled, fun symbol other found => ?_, orderIds, tradeIds⟩
  by_cases called : symbol = order.symbol
  · rw [called] at found ⊢
    rw [Process.step_book]
    exact Option.some.inj (own.symm.trans found)
  · rw [process.step_book_of_ne _ called]
    exact serves.books symbol other ((others symbol called).symm.trans found)

end OrderForgeApp

namespace Exchange

variable {libraries : Libraries} {dump : Json → String} {exchange : Exchange}
  {request : ExchangeRequest} {process : Process String}

/-- A step of the process as a whole is a run of its books. -/
theorem step_serves (sound : exchange.reactor.Sound)
    (orderly : ExchangeCall.Orderly (Machine.transition (step libraries dump) exchange request))
    (serves : exchange.app.Serves process) :
    let call : ExchangeCall := Machine.transition (step libraries dump) exchange request
    call.after.app.Serves (Machine.final Process.step process (call.submissions libraries)) ∧
      call.events = (Machine.run Process.step process (call.submissions libraries)).flatMap
        fun made => made.output.events := by
  obtain ⟨after, buffers, stepped, -, effect⟩ := step_effect sound orderly
  have given : ExchangeCall.buffers (Machine.transition (step libraries dump) exchange request) =
      buffers := congrArg (fun result => Option.getD (Prod.snd result) []) stepped
  dsimp only
  unfold ExchangeCall.submissions
  rw [given]
  unfold Machine.transition
  generalize exchange.step libraries dump request = result at effect ⊢
  cases effect with
  | silent => exact ⟨serves, rfl⟩
  | thrown buffer exception throws =>
    have nothing : exchange.app.handedOrder libraries request.surroundings buffer = none := by
      cases handed : exchange.app.handedOrder libraries request.surroundings buffer with
      | none => rfl
      | some order =>
        obtain ⟨other, handled, -⟩ := serves.handleEvent handed
        cases handled.symm.trans throws
    simp only [List.filterMap_cons, nothing, Option.map_none, List.filterMap_nil]
    exact ⟨serves, rfl⟩
  | handled buffer app events sent handled lines =>
    cases handed : exchange.app.handedOrder libraries request.surroundings buffer with
    | none =>
      obtain ⟨rfl, rfl⟩ := OrderForgeApp.silent_of_handedOrder_eq_none handed handled
      simp only [List.filterMap_cons, handed, Option.map_none, List.filterMap_nil]
      exact ⟨serves, rfl⟩
    | some order =>
      obtain ⟨other, result, kept⟩ := serves.handleEvent handed
      cases handled.symm.trans result
      simp only [List.filterMap_cons, handed, Option.map_some, List.filterMap_nil]
      exact ⟨kept, (List.append_nil _).symm⟩

theorem step_hasBook (sound : exchange.reactor.Sound)
    (orderly : ExchangeCall.Orderly
      (Machine.transition (step libraries dump) exchange request)) :
    (exchange.step libraries dump request).1.app.hasBook = exchange.app.hasBook := by
  obtain ⟨after, buffers, -, -, effect⟩ := step_effect sound orderly
  generalize exchange.step libraries dump request = result at effect ⊢
  cases effect with
  | silent => rfl
  | thrown => rfl
  | handled buffer app events sent handled =>
    exact OrderForgeApp.hasBook_of_handleEvent handled

variable (libraries dump) (symbols : List String) (orderIds tradeIds : IdGenerator)

/-- The calls of the books that the messages of some steps ask for. -/
def submissions (calls : List ExchangeCall) : List (String × Request) :=
  calls.flatMap (ExchangeCall.submissions libraries)

/-- The books before the first message. -/
abbrev books : Process String :=
  Process.create id (fun _ => OrderForgeApp.handlers) orderIds tradeIds

/-- From a sound state on, the calls of the books are those of the orders that are read. -/
theorem serves_of_orderly {started : Exchange} (sound : started.reactor.Sound)
    {process : Process String} (serves : started.app.Serves process)
    {requests : List ExchangeRequest}
    (orderly : ∀ call ∈ Machine.run (step libraries dump) started requests,
      ExchangeCall.Orderly call) :
    let calls := Machine.run (step libraries dump) started requests
    let last := Machine.final (step libraries dump) started requests
    last.reactor.Sound ∧
      last.app.Serves (Machine.final Process.step process (submissions libraries calls)) ∧
      last.app.hasBook = started.app.hasBook ∧
      calls.flatMap ExchangeCall.events =
        (Machine.run Process.step process (submissions libraries calls)).flatMap
          fun made => made.output.events := by
  refine Machine.run_induction (step libraries dump)
    (motive := fun past state => state.reactor.Sound ∧
      state.app.Serves (Machine.final Process.step process (submissions libraries past)) ∧
      state.app.hasBook = started.app.hasBook ∧
      past.flatMap ExchangeCall.events =
        (Machine.run Process.step process (submissions libraries past)).flatMap
          fun made => made.output.events)
    ⟨sound, serves, rfl, rfl⟩ ?_ requests orderly
  rintro past state request ⟨sound, serves, hasBook, events⟩ own
  obtain ⟨kept, published⟩ := step_serves sound own serves
  refine ⟨(step_delivers sound own).2, ?_, (step_hasBook sound own).trans hasBook, ?_⟩
  · rw [submissions, List.flatMap_append, List.flatMap_singleton, Machine.final_append]
    exact kept
  · rw [submissions, List.flatMap_append, List.flatMap_append, List.flatMap_singleton,
      List.flatMap_singleton, Machine.run_append, List.flatMap_append]
    exact congrArg₂ _ events published

/-- Along every orderly run of the process as a whole, whatever connections come, go and send what
at what time, the books are those of the orders that were handed on, in the order in which they were
read, and what is published is what these books publish. The orders handed on are those that were
sent exactly when the freed texts of their symbols find what the symbols name. -/
theorem run_serves {requests : List ExchangeRequest}
    (orderly : ∀ call ∈ run libraries dump symbols orderIds tradeIds requests, call.Orderly) :
    let calls := run libraries dump symbols orderIds tradeIds requests
    let last := (final libraries dump symbols orderIds tradeIds requests).app
    last.Serves (Machine.final Process.step (books orderIds tradeIds)
        (submissions libraries calls)) ∧
      (∀ symbol, last.hasBook symbol ↔ symbol ∈ symbols) ∧
      calls.flatMap ExchangeCall.events =
        (Machine.run Process.step (books orderIds tradeIds)
          (submissions libraries calls)).flatMap (fun made => made.output.events) ∧
      ∀ call ∈ calls,
        call.submissions libraries = call.requested libraries ↔ call.Routed libraries := by
  obtain ⟨-, serves, hasBook, events⟩ := serves_of_orderly libraries dump
    TCPReactor.create_sound (OrderForgeApp.create_serves symbols orderIds tradeIds) orderly
  refine ⟨serves, fun symbol => ?_, events,
    fun call _ => call.submissions_eq_requested_iff libraries⟩
  rw [final, hasBook, OrderForgeApp.hasBook, create, OrderForgeApp.find?_create]
  split <;> simp [*]

/-- The order that the client sends is a call of the book of its symbol. -/
theorem run_serves_sample :
    (final sampleReader (fun _ => "") ["AAPL"] ⟨0⟩ ⟨0⟩
        (sampleFront ++ sampleDuring)).app.Serves
      (Machine.final Process.step (books ⟨0⟩ ⟨0⟩)
        (submissions sampleReader
          (run sampleReader (fun _ => "") ["AAPL"] ⟨0⟩ ⟨0⟩
            (sampleFront ++ sampleDuring)))) :=
  (run_serves sampleReader (fun _ => "") ["AAPL"] ⟨0⟩ ⟨0⟩
    (sample_orderly _ _ _ _ _)).1

end Exchange

end OrderForge
