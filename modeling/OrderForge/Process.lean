/-
This file models the books of one process. Any number of order books are called in
any order; they share nothing but the generators of ids, so a call of one book is a
call of the session that consists of this book and the generators as they are then.
-/

import OrderForge.SessionInvariant

namespace OrderForge

/-- The books by their names and the generators behind `get_id<Order>()` and `get_id<Trade>()`. -/
structure Process (Name : Type) where
  books : Name → OrderBook
  orderIds : IdGenerator
  tradeIds : IdGenerator

/-- A call of one of the books of a process. -/
abbrev ProcessCall (Name : Type) := Transition (Process Name) (Name × Request) Response

namespace Process

variable {Name : Type}

/-- A book as the session that its next call finds. -/
def session (process : Process Name) (name : Name) : Session :=
  ⟨process.books name, process.orderIds, process.tradeIds⟩

/-- A call does to its book what a call of a session does. -/
theorem step_effect (process : Process Name) (request : Name × Request)
    (wf : (process.books request.1).Wf) :
    (process.session request.1).Effect request.2
      ((process.session request.1).step request.2) :=
  Session.step_effect wf request.2

variable [DecidableEq Name]

/-- Empty books. -/
def create (symbol : Name → String) (handlers : Name → Handlers)
    (orderIds tradeIds : IdGenerator) : Process Name where
  books name := OrderBook.create (symbol name) (handlers name)
  orderIds := orderIds
  tradeIds := tradeIds

/-- One call of one of the books. -/
def step (process : Process Name) (request : Name × Request) : Process Name × Response :=
  let (session, response) := (process.session request.1).step request.2
  ({ books := Function.update process.books request.1 session.book
     orderIds := session.orderIds
     tradeIds := session.tradeIds }, response)

variable (process : Process Name) (request : Name × Request)

/-- The called book is that of its session afterwards. -/
theorem step_book : (process.step request).1.books request.1 =
    ((process.session request.1).step request.2).1.book := Function.update_self ..

/-- The session of the called book afterwards. -/
theorem step_session : (process.step request).1.session request.1 =
    ((process.session request.1).step request.2).1 := by
  unfold session
  rw [step_book]
  rfl

theorem step_book_of_ne {other : Name} (different : other ≠ request.1) :
    (process.step request).1.books other = process.books other :=
  Function.update_of_ne different ..

end Process

/-- A call of one of the books as a call of the session that its book is then. -/
def ProcessCall.call {Name : Type} (call : ProcessCall Name) : Call where
  before := call.before.session call.input.1
  input := call.input.2
  output := call.output
  after := call.after.session call.input.1

theorem ProcessCall.call_transition {Name : Type} [DecidableEq Name] (process : Process Name)
    (request : Name × Request) :
    ProcessCall.call (Machine.transition Process.step process request) =
      Machine.transition Session.step (process.session request.1) request.2 := by
  unfold call Machine.transition
  dsimp only
  rw [process.step_session]
  rfl

/-- Each call of the sample day on either of two books. -/
def sampleTurns : List (Bool × Request) :=
  sampleDay.flatMap fun request => [(true, request), (false, request)]

end OrderForge
