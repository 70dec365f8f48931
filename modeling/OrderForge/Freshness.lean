/-
This file settles whether assigned order ids are fresh. An order submitted under id
zero gets the number after the generator's counter. The generator never repeats
itself before it has gone around the 64-bit ring; but clients name their orders from
the same numbers and nobody looks, so the assigned id is the id of a resting order
exactly when a client has submitted that order under it.
-/

import OrderForge.Identity
import OrderForge.Numbering

namespace OrderForge

/-! ### What add_order assigns -/

/-- The id a call assigns: `add_order` was given an order of the book's symbol under id zero. -/
def assigned? (call : Call) : Option OrderId :=
  match call.input with
  | .addOrder order =>
    if order.symbol = call.before.book.symbol ∧ order.orderId = 0 then
      call.output.order.map Order.orderId
    else none
  | .removeOrder _ => none

/-- The ids some calls have assigned. -/
def assignedIds (calls : List Call) : List OrderId := calls.filterMap assigned?

/-- The id the generator of order ids hands out next. -/
def Session.nextId (session : Session) : OrderId := session.orderIds.generateId.1

/-- Whether the id a call assigns, if it assigns one, differs from the id of every resting order
and from every id assigned before. -/
def AssignsFresh (past : List Call) (call : Call) : Prop :=
  ∀ id, assigned? call = some id → call.before.book.Absent id ∧ id ∉ assignedIds past

/-- Whether a request asks the book of a symbol for an id. -/
def Request.Unnamed (symbol : String) : Request → Prop
  | .addOrder order => order.symbol = symbol ∧ order.orderId = 0
  | .removeOrder _ => False

instance (symbol : String) : DecidablePred (Request.Unnamed symbol) := fun request => by
  cases request <;> unfold Request.Unnamed <;> infer_instance

/-- How many ids some calls have asked for. -/
def idsAsked (calls : List Call) : Nat :=
  calls.countP fun call => call.input.Unnamed call.before.book.symbol

/-- Whether a call that asks for an id finds no order resting that a client has submitted under the
number that the seed has for this request, and fewer than `2 ^ 64` ids asked for. -/
def Unclaimed (seed : IdGenerator) (past : List Call) (call : Call) : Prop :=
  call.input.Unnamed call.before.book.symbol →
    (∀ side, ∀ resting ∈ call.before.book.orders side, ¬ Fresh past resting.orderId →
      resting.orderId ≠ seed.nth (idsAsked past)) ∧ idsAsked past < 2 ^ 64

theorem assignedIds_concat (past : List Call) (call : Call) :
    assignedIds (past ++ [call]) = assignedIds past ++ (assigned? call).toList := by
  rw [assignedIds, List.filterMap_append]
  cases found : assigned? call <;> simp [assignedIds, found]

namespace Session

variable {session : Session}

/-! ### One call -/

/-- A call assigns an id exactly when it is asked for one. -/
theorem assigned?_isSome_iff (session : Session) (request : Request) :
    (assigned? (Machine.transition step session request)).isSome ↔
      request.Unnamed session.book.symbol := by
  cases request with
  | removeOrder => exact iff_of_false Bool.false_ne_true id
  | addOrder order =>
    change (if order.symbol = session.book.symbol ∧ order.orderId = 0 then _ else none).isSome ↔ _
    split_ifs with both
    · exact iff_of_true rfl both
    · exact iff_of_false Bool.false_ne_true both

/-- A call that assigns an id assigns the generator's next one and moves the generator on. -/
theorem step_assigns (wf : session.book.Wf) {request : Request} {id : OrderId}
    (assigns : assigned? (Machine.transition step session request) = some id) :
    id = session.nextId ∧
      (session.step request).1.orderIds = session.orderIds.generateId.2 := by
  cases request with
  | removeOrder => cases assigns
  | addOrder order =>
    change (if order.symbol = session.book.symbol ∧ order.orderId = 0 then _ else none) = _
      at assigns
    split_ifs at assigns with both
    obtain ⟨own, zero⟩ := both
    have executed := OrderBook.addOrder_executed wf session.orderIds session.tradeIds own
    have result := executed.result
    refine ⟨?_, ?_⟩
    · have named : (session.book.processed (session.prepared order)).orderId = session.nextId := by
        rw [OrderBook.processed_orderId, prepared_eq, if_pos zero, nextId]
      refine (Option.some.inj assigns).symm.trans (Eq.trans ?_ named)
      exact congrArg Order.orderId result
    · have accepted : order.isSameSymbol session.book.symbol = true := decide_eq_true own.symm
      have unnamed : (order.setSymbol session.book.symbol).orderId = 0 := zero
      rw [step, OrderBook.addOrder, if_pos accepted, OrderBook.prepareOrder]
      simp only [unnamed, if_true]

/-- A call that assigns no id leaves the generator alone. -/
theorem step_keeps_orderIds {request : Request}
    (silent : assigned? (Machine.transition step session request) = none) :
    (session.step request).1.orderIds = session.orderIds := by
  cases request with
  | removeOrder => rfl
  | addOrder order =>
    change (if order.symbol = session.book.symbol ∧ order.orderId = 0 then _ else none) = _
      at silent
    by_cases own : order.symbol = session.book.symbol
    · have accepted : order.isSameSymbol session.book.symbol = true := decide_eq_true own.symm
      by_cases zero : order.orderId = 0
      · rw [if_pos ⟨own, zero⟩] at silent
        cases silent
      · have named : (order.setSymbol session.book.symbol).orderId ≠ 0 := zero
        rw [step, OrderBook.addOrder, if_pos accepted, OrderBook.prepareOrder]
        simp only [named, if_false]
    · rw [step, OrderBook.addOrder_foreign _ _ own]

/-! ### Runs -/

/-- What holds of the ids along every run: the assigned ids are the first ones of the generator, as
many as were asked for, and every resting order has an id that was submitted or assigned. -/
structure Numbered (seed : IdGenerator) (past : List Call) (session : Session) : Prop where
  wf : session.book.Wf
  next : session.nextId = seed.nth (assignedIds past).length
  assigned : assignedIds past = seed.ids (assignedIds past).length
  asked : (assignedIds past).length = idsAsked past
  named : ∀ side, ∀ resting ∈ session.book.orders side,
    ¬ Fresh past resting.orderId ∨ resting.orderId ∈ assignedIds past

theorem not_fresh_concat {past : List Call} {id : OrderId} (known : ¬ Fresh past id) (call : Call) :
    ¬ Fresh (past ++ [call]) id := fun fresh => known fun order member => fresh order (by
  rw [List.map_append, submitted_append]
  exact List.mem_append_left _ member)

/-- The id of an order that comes to rest was submitted or is assigned by the call. -/
theorem brought_named (wf : session.book.Wf) (past : List Call) {order : Order}
    (own : order.symbol = session.book.symbol) :
    ¬ Fresh (past ++ [Machine.transition step session (.addOrder order)])
        (session.prepared order).orderId ∨
      (session.prepared order).orderId ∈
        assignedIds (past ++ [Machine.transition step session (.addOrder order)]) := by
  by_cases zero : order.orderId = 0
  · refine Or.inr ?_
    cases found : assigned? (Machine.transition step session (.addOrder order)) with
    | none =>
      change (if order.symbol = session.book.symbol ∧ order.orderId = 0 then _ else none) = _
        at found
      rw [if_pos ⟨own, zero⟩] at found
      cases found
    | some id =>
      rw [assignedIds_concat, found, (step_assigns wf found).1, prepared_eq, if_pos zero]
      exact List.mem_append_right _ List.mem_cons_self
  · refine Or.inl fun fresh => fresh order ?_ ?_
    · rw [List.map_append, submitted_append]
      exact List.mem_append_right _ List.mem_cons_self
    · rw [prepared_eq, if_neg zero]

theorem Numbered.step {seed : IdGenerator} {past : List Call}
    (numbered : Numbered seed past session) (request : Request) :
    Numbered seed (past ++ [Machine.transition step session request])
      (session.step request).1 := by
  have effect := step_effect numbered.wf request
  refine ⟨effect.wf numbered.wf, ?_, ?_, ?_, fun side resting member => ?_⟩
  · cases found : assigned? (Machine.transition Session.step session request) with
    | none =>
      rw [assignedIds_concat, found, Option.toList_none, List.append_nil, nextId,
        step_keeps_orderIds found]
      exact numbered.next
    | some id =>
      rw [assignedIds_concat, found, Option.toList_some, List.length_append,
        List.length_singleton, IdGenerator.nth_succ, ← numbered.next, nextId,
        (step_assigns numbered.wf found).2]
      rfl
  · cases found : assigned? (Machine.transition Session.step session request) with
    | none =>
      rw [assignedIds_concat, found, Option.toList_none, List.append_nil]
      exact numbered.assigned
    | some id =>
      rw [assignedIds_concat, found, Option.toList_some, List.length_append, List.length_singleton,
        IdGenerator.ids_succ, ← numbered.assigned, (step_assigns numbered.wf found).1,
        numbered.next]
  · have same := assigned?_isSome_iff session request
    rw [assignedIds_concat, List.length_append, numbered.asked, idsAsked, idsAsked,
      List.countP_append, List.countP_singleton]
    show _ + _ = _ + if decide (request.Unnamed session.book.symbol) = true then 1 else 0
    cases found : assigned? (Machine.transition Session.step session request) with
    | none =>
      rw [found] at same
      rw [if_neg (mt of_decide_eq_true (mt same.mpr Bool.false_ne_true))]
      rfl
    | some id =>
      rw [found] at same
      rw [if_pos (decide_eq_true (same.mp rfl))]
      rfl
  · have kept : ∀ {id : OrderId}, ¬ Fresh past id ∨ id ∈ assignedIds past →
        ¬ Fresh (past ++ [Machine.transition Session.step session request]) id ∨
          id ∈ assignedIds (past ++ [Machine.transition Session.step session request]) := by
      rintro id (known | assigned)
      · exact Or.inl (not_fresh_concat known _)
      · rw [assignedIds_concat]
        exact Or.inr (List.mem_append_left _ assigned)
    rcases effect.origin member with old | ⟨origin, inBook, amount, -, -, rfl⟩ |
      ⟨brought, rfl, own, -, -, rfl⟩
    · exact kept (numbered.named side resting old)
    · exact kept (numbered.named side origin inBook)
    · rw [OrderBook.processed_orderId]
      exact brought_named numbered.wf past own

/-- In a numbered session a call assigns a fresh id exactly when the next id is unclaimed. -/
theorem Numbered.assignsFresh_iff {seed : IdGenerator} {past : List Call}
    (numbered : Numbered seed past session) (request : Request) :
    AssignsFresh past (Machine.transition Session.step session request) ↔
      Unclaimed seed past (Machine.transition Session.step session request) := by
  have unused : session.nextId ∉ assignedIds past ↔ (assignedIds past).length < 2 ^ 64 := by
    rw [numbered.assigned, numbered.next, IdGenerator.length_ids, IdGenerator.nth_mem_ids, not_le]
  have asks := assigned?_isSome_iff session request
  have next := numbered.next
  rw [numbered.asked] at unused next
  rw [AssignsFresh, Unclaimed]
  cases found : assigned? (Machine.transition Session.step session request) with
  | none =>
    rw [found] at asks
    exact iff_of_true nofun fun unnamed => absurd (asks.mpr unnamed) Bool.false_ne_true
  | some id =>
    rw [found] at asks
    obtain rfl := (step_assigns numbered.wf found).1
    constructor
    · rintro fresh -
      obtain ⟨absent, new⟩ := fresh _ rfl
      exact ⟨fun side resting member _ same => absent side resting member (same.trans next.symm),
        unused.mp new⟩
    · rintro unclaimed id same
      cases same
      obtain ⟨unsubmitted, less⟩ := unclaimed (asks.mp rfl)
      have new := unused.mpr less
      refine ⟨fun side resting member same => ?_, new⟩
      rcases numbered.named side resting member with known | assigned
      · exact unsubmitted side resting member known (same.trans next)
      · exact new (same ▸ assigned)

variable (symbol : String) (handlers : Handlers) (orderIds tradeIds : IdGenerator)

theorem final_numbered (requests : List Request) :
    Numbered orderIds ((create symbol handlers orderIds tradeIds).run requests)
      ((create symbol handlers orderIds tradeIds).final requests) := by
  refine Machine.run_induction (motive := Numbered orderIds) step ?_
    (fun past session request numbered (_ : True) => numbered.step request) requests
    fun _ _ => trivial
  refine ⟨OrderBook.create_wf symbol handlers, ?_, rfl, rfl, fun side resting member => ?_⟩
  · rfl
  · cases side <;> cases member

/-- In every run every assigned order id is fresh exactly when no call that assigns one finds its
id claimed. -/
theorem assigned_ids_fresh_iff (requests : List Request) :
    (∀ past call later,
      (create symbol handlers orderIds tradeIds).run requests = past ++ call :: later →
        AssignsFresh past call) ↔
    ∀ past call later,
      (create symbol handlers orderIds tradeIds).run requests = past ++ call :: later →
        Unclaimed orderIds past call := by
  have same : ∀ past call later,
      (create symbol handlers orderIds tradeIds).run requests = past ++ call :: later →
        (AssignsFresh past call ↔ Unclaimed orderIds past call) := by
    intro past call later split
    obtain ⟨front, request, -, -, pastEq, callEq⟩ := Machine.run_split step split
    rw [pastEq, callEq]
    exact (final_numbered symbol handlers orderIds tradeIds front).assignsFresh_iff request
  exact ⟨fun fresh past call later split => (same past call later split).mp (fresh _ _ _ split),
    fun unclaimed past call later split =>
      (same past call later split).mpr (unclaimed _ _ _ split)⟩

/-- A client names its order from the numbers of the day, and the generator hands out the same
number next. -/
theorem assigned_id_collides :
    ¬ ∀ past call later,
      (create "AAPL" ⟨true, true, true, true⟩ ⟨20250101000000000⟩ ⟨20250101000000000⟩).run
          [.addOrder (sampleOrder .SELL .LIMIT 10000 100000000 20250101000000001),
            .addOrder (sampleOrder .SELL .LIMIT 10100 100000000 0)] = past ++ call :: later →
        AssignsFresh past call := by
  intro fresh
  obtain ⟨absent, -⟩ := fresh [_] _ [] rfl 20250101000000001 (by decide)
  exact absent .SELL (sampleOrder .SELL .LIMIT 10000 100000000 20250101000000001) (by decide) rfl

end Session

end OrderForge
