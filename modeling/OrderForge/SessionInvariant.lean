/-
This file lifts the effects of the two operations to the calls of a session. Every
call of every run is one of four things: an order of the book's symbol is executed,
an order of another symbol is ignored, a known id is cancelled, an unknown one is
not. The invariant of the book holds along every run, and an order that rests after
a call rested before it, was cut by the call, or was brought by it.
-/

import OrderForge.BookStep

namespace OrderForge

namespace Session

/-- The order that reaches the `switch` of `add_order`. -/
def prepared (session : Session) (order : Order) : Order :=
  session.book.prepared session.orderIds order

theorem prepared_eq (session : Session) (order : Order) :
    session.prepared order =
      { order with
        symbol := session.book.symbol
        orderId :=
          if order.orderId = 0 then session.orderIds.generateId.1 else order.orderId } :=
  session.book.prepared_eq session.orderIds order

theorem prepared_frame (session : Session) (order : Order) :
    (session.prepared order).symbol = session.book.symbol ∧
      (session.prepared order).type = order.type ∧
      (session.prepared order).price = order.price ∧
      (session.prepared order).status = order.status := by
  rw [prepared_eq]
  exact ⟨rfl, rfl, rfl, rfl⟩

/-- What a call does. -/
inductive Effect (session : Session) : Request → Session × Response → Prop
  | executed (order : Order) (own : order.symbol = session.book.symbol) (after : Session)
      (result : Order) (trades : List Trade) (events : List Event)
      (executed : session.book.Executed (session.prepared order)
        [session.book.processed (session.prepared order)]
        ⟨after.book, after.tradeIds, result, trades, events⟩) :
      Effect session (.addOrder order) (after, ⟨some result, trades, events⟩)
  | foreign (order : Order) (foreign : order.symbol ≠ session.book.symbol) :
      Effect session (.addOrder order) (session, ⟨some order, [], []⟩)
  | removed (id : OrderId) (helper : FindOrderHelper) (after : Session) (events : List Event)
      (found : session.book.ordersIdMap.find? id = some helper)
      (removed : session.book.Removed helper (after.book, events)) :
      Effect session (.removeOrder id) (after, ⟨none, [], events⟩)
  | unknown (id : OrderId) (unknown : session.book.ordersIdMap.find? id = none) :
      Effect session (.removeOrder id) (session, ⟨none, [], []⟩)

theorem step_effect {session : Session} (wf : session.book.Wf) (request : Request) :
    session.Effect request (session.step request) := by
  cases request with
  | addOrder order =>
    by_cases own : order.symbol = session.book.symbol
    · exact Effect.executed order own (session.step (.addOrder order)).1 _ _ _
        (OrderBook.addOrder_executed wf session.orderIds session.tradeIds own)
    · have result : session.step (.addOrder order) = (session, ⟨some order, [], []⟩) := by
        rw [step, OrderBook.addOrder_foreign _ _ own]
        rfl
      rw [result]
      exact Effect.foreign order own
  | removeOrder id =>
    cases found : session.book.ordersIdMap.find? id with
    | none =>
      have result : session.step (.removeOrder id) = (session, ⟨none, [], []⟩) := by
        rw [step, OrderBook.removeOrder_unknown found]
      rw [result]
      exact Effect.unknown id found
    | some helper =>
      exact Effect.removed id helper (session.step (.removeOrder id)).1 _ found
        (OrderBook.removeOrder_removed wf found)

theorem Effect.wf {session : Session} (wf : session.book.Wf) {request : Request}
    {result : Session × Response} (effect : session.Effect request result) :
    result.1.book.Wf := by
  cases effect with
  | executed _ _ _ _ _ _ executed => exact executed.wf
  | foreign => exact wf
  | removed _ _ _ _ _ removed => exact removed.wf
  | unknown => exact wf

theorem Effect.symbol {session : Session} {request : Request} {result : Session × Response}
    (effect : session.Effect request result) : result.1.book.symbol = session.book.symbol := by
  cases effect with
  | executed _ _ _ _ _ _ executed => exact executed.symbol
  | foreign => rfl
  | removed _ _ _ _ _ removed => exact removed.symbol
  | unknown => rfl

theorem Effect.handlers {session : Session} {request : Request} {result : Session × Response}
    (effect : session.Effect request result) :
    result.1.book.handlers = session.book.handlers := by
  cases effect with
  | executed _ _ _ _ _ _ executed => exact executed.handlers
  | foreign => rfl
  | removed _ _ _ _ _ removed => exact removed.handlers
  | unknown => rfl

/-- An order that rests after a call rested before it, was cut by it, or was brought by it. -/
theorem Effect.origin {session : Session} {request : Request} {result : Session × Response}
    (effect : session.Effect request result) {side : Side} {resting : Order}
    (member : resting ∈ result.1.book.orders side) :
    resting ∈ session.book.orders side ∨
    (∃ origin ∈ session.book.orders side, ∃ amount, 0 < amount ∧ amount < origin.remaining ∧
      resting = origin.cut amount) ∨
    ∃ order, request = .addOrder order ∧ order.symbol = session.book.symbol ∧
      session.book.Rests (session.prepared order) ∧ side = (session.prepared order).side ∧
      resting = session.book.processed (session.prepared order) := by
  cases effect with
  | foreign => exact Or.inl member
  | unknown => exact Or.inl member
  | removed _ _ _ _ _ removed => exact Or.inl (removed.mem_before member)
  | executed order own _ _ _ _ executed =>
    rcases Side.eq_or_eq_opposite side (session.prepared order).side with same | same
    · rw [same, executed.own] at member
      split_ifs at member with rests
      · rcases Ladder.mem_rest member with new | old
        · exact Or.inr (Or.inr ⟨order, rfl, own, rests, same, new⟩)
        · exact Or.inl (same ▸ old)
      · exact Or.inl (same ▸ member)
    · rw [same, executed.passive] at member
      rw [same]
      rcases Ladder.mem_serve member with old | cut
      · exact Or.inl old
      · exact Or.inr (Or.inl cut)

/-! ### Runs -/

section Runs

variable (symbol : String) (handlers : Handlers) (orderIds tradeIds : IdGenerator)

/-- The book invariant holds at the end of every run. -/
theorem final_wf (requests : List Request) :
    ((create symbol handlers orderIds tradeIds).final requests).book.Wf :=
  Machine.final_invariant (motive := fun session : Session => session.book.Wf) step
    (OrderBook.create_wf symbol handlers) (fun _ request wf => (step_effect wf request).wf wf)
    requests

theorem final_symbol (requests : List Request) :
    ((create symbol handlers orderIds tradeIds).final requests).book.symbol = symbol := by
  refine (Machine.final_invariant
    (motive := fun session : Session => session.book.Wf ∧ session.book.symbol = symbol) step
    ⟨OrderBook.create_wf symbol handlers, rfl⟩ ?_ requests).2
  rintro session request ⟨wf, same⟩
  exact ⟨(step_effect wf request).wf wf, (step_effect wf request).symbol.trans same⟩

theorem final_handlers (requests : List Request) :
    ((create symbol handlers orderIds tradeIds).final requests).book.handlers = handlers := by
  refine (Machine.final_invariant
    (motive := fun session : Session => session.book.Wf ∧ session.book.handlers = handlers) step
    ⟨OrderBook.create_wf symbol handlers, rfl⟩ ?_ requests).2
  rintro session request ⟨wf, same⟩
  exact ⟨(step_effect wf request).wf wf, (step_effect wf request).handlers.trans same⟩

variable {symbol handlers orderIds tradeIds}

/-- Every call of a run starts from a well-formed book, is one of the requests and has an
effect. -/
theorem call_effect {requests : List Request} {call : Call}
    (member : call ∈ (create symbol handlers orderIds tradeIds).run requests) :
    call.before.book.Wf ∧ call.input ∈ requests ∧
      call.before.Effect call.input (call.after, call.output) := by
  obtain ⟨front, back, requestsEq, callEq⟩ := Machine.mem_run step member
  have wf := final_wf symbol handlers orderIds tradeIds front
  rw [requestsEq]
  refine ⟨?_, List.mem_append_right _ List.mem_cons_self, ?_⟩
  · rw [callEq]
    exact wf
  · rw [callEq]
    exact step_effect wf _

/-- Every call of a run works on a book of the run's symbol with the run's handlers. -/
theorem call_before {requests : List Request} {call : Call}
    (member : call ∈ (create symbol handlers orderIds tradeIds).run requests) :
    call.before.book.symbol = symbol ∧ call.before.book.handlers = handlers := by
  obtain ⟨front, back, -, callEq⟩ := Machine.mem_run step member
  rw [callEq]
  exact ⟨final_symbol symbol handlers orderIds tradeIds front,
    final_handlers symbol handlers orderIds tradeIds front⟩

/-- A property of the calls made so far and the session they lead to holds of every run when
it holds at the start and every effect of an allowed call keeps it. -/
theorem run_induction {motive : List Call → Session → Prop} {allowed : Call → Prop}
    (base : motive [] (create symbol handlers orderIds tradeIds))
    (next : ∀ past session request result, session.book.Wf → motive past session →
      session.Effect request result → allowed ⟨session, request, result.2, result.1⟩ →
      motive (past ++ [⟨session, request, result.2, result.1⟩]) result.1)
    (requests : List Request)
    (all : ∀ call ∈ (create symbol handlers orderIds tradeIds).run requests, allowed call) :
    motive ((create symbol handlers orderIds tradeIds).run requests)
      ((create symbol handlers orderIds tradeIds).final requests) := by
  refine (Machine.run_induction
    (motive := fun calls session => session.book.Wf ∧ motive calls session) step
    ⟨OrderBook.create_wf symbol handlers, base⟩ ?_ requests all).2
  rintro past session request ⟨wf, kept⟩ permitted
  have effect := step_effect wf request
  exact ⟨effect.wf wf, next past session request _ wf kept effect permitted⟩

/-- A property that every effect keeps. -/
theorem run_invariant {motive : List Call → Session → Prop}
    (base : motive [] (create symbol handlers orderIds tradeIds))
    (next : ∀ past session request result, session.book.Wf → motive past session →
      session.Effect request result →
      motive (past ++ [⟨session, request, result.2, result.1⟩]) result.1)
    (requests : List Request) :
    motive ((create symbol handlers orderIds tradeIds).run requests)
      ((create symbol handlers orderIds tradeIds).final requests) :=
  run_induction base (fun past session request result wf kept effect (_ : True) =>
    next past session request result wf kept effect) requests fun _ _ => trivial

end Runs

end Session

end OrderForge
