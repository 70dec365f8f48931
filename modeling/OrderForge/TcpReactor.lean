/-
This file models the event loop: the handlers of listening sockets and of accepted
connections, the registry of the handlers by connection type, what epoll keeps of
them, and the events of one wait that are handled in turn.

An object that is not there has nothing to be read or called, and an operation that
follows a pointer to one has no result, nor has one that exits the process. A system
call that fails otherwise than by its answer here, by which the process exits, ends
the run. What the handlers of the application do with a buffer leaves the reactor as
it is.
-/

import Mathlib.Data.Finset.Sort
import OrderForge.FlatMap
import OrderForge.Machine

namespace OrderForge

abbrev FileDescriptor := Nat

/-- Where an object is in memory. -/
abbrev Address := Nat

inductive ConnectionType
  | UNDEFINED
  | CONNECTION_HANDLER
  | PRIVATE_FEED_ORDERS
  | PRIVATE_FEED_TRADES
  | PRIVATE_FEED_ACCOUNT
  | PUBLIC_FEED_ORDER_BOOK
  | PUBLIC_FEED_LAST_TRADE
deriving DecidableEq

/-- The value of an enumerator, as an index of `event_handlers_`. -/
def ConnectionType.index : ConnectionType → Fin 255
  | UNDEFINED => 0
  | CONNECTION_HANDLER => 1
  | PRIVATE_FEED_ORDERS => 10
  | PRIVATE_FEED_TRADES => 11
  | PRIVATE_FEED_ACCOUNT => 12
  | PUBLIC_FEED_ORDER_BOOK => 20
  | PUBLIC_FEED_LAST_TRADE => 21

/-- `EventHandler`: a `TCPConnectionHandler` or a `TCPClientHandler`. -/
inductive EventHandler
  | connection (fd : FileDescriptor) (nextConnectionType : ConnectionType)
  | client (fd : FileDescriptor) (connectionType : ConnectionType)
deriving DecidableEq

namespace EventHandler

def getFd : EventHandler → FileDescriptor
  | connection fd _ => fd
  | client fd _ => fd

def getConnectionType : EventHandler → ConnectionType
  | connection _ _ => .CONNECTION_HANDLER
  | client _ connectionType => connectionType

end EventHandler

/-- The objects of the process that are handlers. -/
abbrev Heap := FlatMap (fun first second : Address => first < second) EventHandler

/-- The descriptors that epoll watches, each with its `data.ptr`. -/
abbrev InterestList := FlatMap (fun first second : FileDescriptor => first < second) Address

/-- `TCPReactor` with the handlers it points to; `events` are the events of the last wait that are
not handled yet, each with its `data.ptr`. -/
structure TCPReactor where
  heap : Heap
  epoll : InterestList
  events : List (Address × UInt64)
  eventHandlers : Fin 255 → Finset Address

/-- What the system answers while an event is handled: the descriptor from `accept` and the bytes
from `read`, where nothing stands for -1, and the address from `new`. -/
structure Answers where
  accepted : Option FileDescriptor
  allocated : Address
  received : Option (List UInt8)
deriving DecidableEq

def EPOLLIN : UInt64 := 1

/-- `max_events_`. -/
def maxEvents : Nat := 100

/-- The size of the buffer of `TCPClientHandler::handle_event`. -/
def bufferSize : Nat := 1024

namespace TCPReactor

/-- The constructor. -/
def create : TCPReactor where
  heap := FlatMap.empty
  epoll := FlatMap.empty
  events := []
  eventHandlers _ := ∅

/-- A new handler. -/
def new (reactor : TCPReactor) (address : Address) (object : EventHandler) : TCPReactor :=
  { reactor with heap := reactor.heap.emplace address object }

/-- `delete`. -/
def delete (reactor : TCPReactor) (address : Address) : TCPReactor :=
  { reactor with heap := reactor.heap.erase address }

/-- `close`: epoll forgets a descriptor that is closed. -/
def close (reactor : TCPReactor) (fd : FileDescriptor) : TCPReactor :=
  { reactor with epoll := reactor.epoll.erase fd }

/-- `TCPReactor::register_handler`: a descriptor that epoll watches already is modified. -/
def registerHandler (reactor : TCPReactor) (handler : Address) : Option TCPReactor :=
  (reactor.heap.find? handler).map fun object =>
    { reactor with
      epoll := match reactor.epoll.find? object.getFd with
        | none => reactor.epoll.emplace object.getFd handler
        | some _ => reactor.epoll.modify object.getFd fun _ => handler
      eventHandlers := Function.update reactor.eventHandlers object.getConnectionType.index
        (insert handler (reactor.eventHandlers object.getConnectionType.index)) }

/-- `TCPReactor::unregister_handler`: the process exits when epoll does not watch the descriptor. -/
def unregisterHandler (reactor : TCPReactor) (handler : Address) : Option TCPReactor :=
  (reactor.heap.find? handler).bind fun object =>
    (reactor.epoll.find? object.getFd).map fun _ =>
      { reactor.close object.getFd with
        eventHandlers := Function.update reactor.eventHandlers object.getConnectionType.index
          ((reactor.eventHandlers object.getConnectionType.index).erase handler) }

/-- `TCPConnectionHandler::handle_event`. -/
def connectionHandleEvent (reactor : TCPReactor) (nextConnectionType : ConnectionType)
    (events : UInt64) (answers : Answers) : Option TCPReactor :=
  if events &&& EPOLLIN ≠ 0 then
    match answers.accepted with
    | none => some reactor
    | some clientFd =>
      (reactor.new answers.allocated (.client clientFd nextConnectionType)).registerHandler
        answers.allocated
  else some reactor

/-- `TCPClientHandler::handle_event`, with the buffers that its handlers get. -/
def clientHandleEvent (reactor : TCPReactor) (this : Address) (fd : FileDescriptor)
    (events : UInt64) (received : Option (List UInt8)) :
    Option (TCPReactor × List (List UInt8)) :=
  if events &&& EPOLLIN ≠ 0 then
    match received with
    | none => some ((reactor.close fd).delete this, [])
    | some [] => (reactor.unregisterHandler this).map fun reactor => (reactor.delete this, [])
    | some buffer => some (reactor, [buffer])
  else some (reactor, [])

/-- `handler->handle_event(events)`. -/
def handleEvent (reactor : TCPReactor) (handler : Address) (events : UInt64) (answers : Answers) :
    Option (TCPReactor × List (List UInt8)) :=
  (reactor.heap.find? handler).bind fun object =>
    match object with
    | .connection _ nextConnectionType =>
      (reactor.connectionHandleEvent nextConnectionType events answers).map fun reactor =>
        (reactor, [])
    | .client fd _ => reactor.clientHandleEvent handler fd events answers.received

/-- The handlers of the registry in the order of two nested loops over it. -/
def registered (reactor : TCPReactor) : List Address :=
  (List.finRange 255).flatMap fun index => (reactor.eventHandlers index).sort

/-- The calls of `send_buffer` on those of some handlers that have a connection type. -/
def sendBuffers (reactor : TCPReactor) (message : String) (conType : ConnectionType) :
    List Address → Option (List (Address × String))
  | [] => some []
  | handler :: rest =>
    (reactor.heap.find? handler).bind fun object =>
      (reactor.sendBuffers message conType rest).map fun sent =>
        if object.getConnectionType = conType then (handler, message) :: sent else sent

/-- `TCPReactor::broadcast_all`: the calls of `send_buffer` it makes. -/
def broadcastAll (reactor : TCPReactor) (message : String) (conType : ConnectionType) :
    Option (List (Address × String)) :=
  reactor.sendBuffers message conType reactor.registered

end TCPReactor

/-! ### Runs -/

/-- What happens to a reactor: a listener is made and registered, epoll is waited for and says which
descriptors are ready, and the next event is handled. -/
inductive ReactorRequest
  | listen (fd : FileDescriptor) (nextConnectionType : ConnectionType) (allocated : Address)
  | wait (ready : List (FileDescriptor × UInt64))
  | handle (answers : Answers)
deriving DecidableEq

/-- A step of a run, with the buffers that the handlers of the application get. -/
abbrev ReactorCall := Transition TCPReactor ReactorRequest (Option (List (List UInt8)))

namespace TCPReactor

/-- A step. When an operation has no result, nothing is put out. -/
def step (reactor : TCPReactor) : ReactorRequest → TCPReactor × Option (List (List UInt8))
  | .listen fd nextConnectionType allocated =>
    match (reactor.new allocated (.connection fd nextConnectionType)).registerHandler allocated with
    | some reactor => (reactor, some [])
    | none => (reactor, none)
  | .wait ready =>
    ({ reactor with events := ready.filterMap fun event =>
        (reactor.epoll.find? event.1).map fun handler => (handler, event.2) }, some [])
  | .handle answers =>
    match reactor.events with
    | [] => (reactor, none)
    | (handler, events) :: rest =>
      match { reactor with events := rest }.handleEvent handler events answers with
      | some (reactor, buffers) => (reactor, some buffers)
      | none => (reactor, none)

def run (requests : List ReactorRequest) : List ReactorCall := Machine.run step create requests

def final (requests : List ReactorRequest) : TCPReactor := Machine.final step create requests

/-- Whether an address is that of no handler, and a descriptor is open for none. -/
def Unused (reactor : TCPReactor) (fd : FileDescriptor) (address : Address) : Prop :=
  reactor.heap.find? address = none ∧ ∀ entry ∈ reactor.heap.entries, entry.2.getFd ≠ fd

instance (reactor : TCPReactor) (fd : FileDescriptor) (address : Address) :
    Decidable (reactor.Unused fd address) := inferInstanceAs (Decidable (_ ∧ _))

end TCPReactor

/-- What the system promises: a new descriptor and a new object are not in use, epoll says of each
descriptor once that it is ready and only of those that it watches, and a read returns no more
than the buffer holds. Epoll is waited for when all events are handled. -/
def ReactorCall.Legal (call : ReactorCall) : Prop :=
  match call.input with
  | .listen fd _ allocated => call.before.Unused fd allocated
  | .wait ready => call.before.events = [] ∧ ready.length ≤ maxEvents ∧
      (ready.map Prod.fst).Nodup ∧
      ∀ event ∈ ready, (call.before.epoll.find? event.1).isSome
  | .handle answers => call.before.events ≠ [] ∧
      (∀ fd ∈ answers.accepted, call.before.Unused fd answers.allocated) ∧
      ∀ buffer ∈ answers.received, buffer.length ≤ bufferSize

instance : DecidablePred ReactorCall.Legal
  | ⟨before, .listen fd _ allocated, _, _⟩ =>
    inferInstanceAs (Decidable (before.Unused fd allocated))
  | ⟨_, .wait _, _, _⟩ => inferInstanceAs (Decidable (_ ∧ _ ∧ _ ∧ _))
  | ⟨_, .handle _, _, _⟩ => inferInstanceAs (Decidable (_ ∧ _ ∧ _))

end OrderForge
