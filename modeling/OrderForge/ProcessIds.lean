/-
This file proves which ids the books of a process give. Trades and orders have a
generator each, which all books share. A match takes the number of each trade from
the generator when it makes the trade, and the engine hands the generator back; so
the trades of all books together have the numbers that follow the seed, in the order
in which they are published, whichever books are called. The same is true of the
orders that are submitted without an id.
-/

import OrderForge.Freshness
import OrderForge.Process

namespace OrderForge

namespace IdGenerator

variable (generator : IdGenerator)

/-- The generator after some calls. -/
def skip (count : Nat) : IdGenerator := ⟨generator.counter + UInt64.ofNat count⟩

theorem skip_zero : generator.skip 0 = generator := by
  have counter : generator.counter + UInt64.ofNat 0 = generator.counter := UInt64.add_zero _
  unfold skip
  rw [counter]

theorem skip_add (first second : Nat) :
    generator.skip (first + second) = (generator.skip first).skip second := by
  unfold skip
  rw [UInt64.ofNat_add, UInt64.add_assoc]

theorem nth_skip (first second : Nat) :
    (generator.skip first).nth second = generator.nth (first + second) := by
  unfold nth skip
  rw [Nat.add_assoc, UInt64.ofNat_add first, UInt64.add_assoc]

theorem ids_add (first second : Nat) :
    generator.ids (first + second) = generator.ids first ++ (generator.skip first).ids second := by
  rw [ids_eq, ids_eq, ids_eq, List.range_add, List.map_append, List.map_map]
  refine congrArg _ (List.map_congr_left fun index _ => ?_)
  exact (generator.nth_skip first index).symm

/-- Whether some ids are the next ones of a generator, and another one is what it is then. -/
def Gives (ids : List UInt64) (after : IdGenerator) : Prop :=
  ids = generator.ids ids.length ∧ after = generator.skip ids.length

variable {generator}

theorem gives_nil (generator : IdGenerator) : generator.Gives [] generator :=
  ⟨rfl, generator.skip_zero.symm⟩

theorem gives_singleton (generator : IdGenerator) :
    generator.Gives [generator.generateId.1] generator.generateId.2 := ⟨rfl, rfl⟩

theorem Gives.append {first second : List UInt64} {middle after : IdGenerator}
    (gives : generator.Gives first middle) (others : middle.Gives second after) :
    generator.Gives (first ++ second) after := by
  obtain ⟨own, rfl⟩ := gives
  obtain ⟨rest, rfl⟩ := others
  unfold Gives
  rw [List.length_append, ids_add, ← own, ← rest, skip_add]
  exact ⟨rfl, rfl⟩

/-- The ids are distinct exactly while the ring has not been gone around. -/
theorem Gives.nodup_iff {ids : List UInt64} {after : IdGenerator}
    (gives : generator.Gives ids after) : ids.Nodup ↔ ids.length ≤ 2 ^ 64 := by
  rw [← nodup_ids, ← gives.1]

end IdGenerator

/-! ### The trades of one call -/

/-- The numbers of some trades. -/
def tradeIdsOf (trades : List Trade) : List UInt64 := trades.map Trade.tradeId

namespace MatchingEngine

theorem absorb_gives (start : IdGenerator) (engine : MatchingEngine)
    (gives : start.Gives (tradeIdsOf engine.trades) engine.tradeIds) (taken : List (Order × Nat)) :
    start.Gives (tradeIdsOf (engine.absorb taken).trades) (engine.absorb taken).tradeIds := by
  induction taken generalizing engine with
  | nil => exact gives
  | cons gave rest inductionHypothesis =>
    rw [absorb_cons]
    refine inductionHypothesis _ ?_
    have next := gives.append engine.tradeIds.gives_singleton
    unfold tradeIdsOf at next ⊢
    rw [record, List.map_append]
    exact next

end MatchingEngine

namespace BookSide

theorem matchOrder_gives {CompFunc : Price → Price → Prop} [IsStrictTotalOrder Price CompFunc]
    {bookSide : BookSide CompFunc} {symbol : String} {side : Side}
    (wf : bookSide.Wf symbol side) (order : Order) (tradeIds : IdGenerator) :
    let engine := (bookSide.matchOrder (MatchingEngine.create order tradeIds)).2.1
    tradeIds.Gives (tradeIdsOf engine.trades) engine.tradeIds := by
  obtain ⟨prices, absorbed⟩ := matchOrder_engine wf (MatchingEngine.create order tradeIds)
  dsimp only
  rw [absorbed]
  exact MatchingEngine.absorb_gives tradeIds (MatchingEngine.create order tradeIds)
    tradeIds.gives_nil _

end BookSide

namespace OrderBook

variable {book : OrderBook} {order : Order}

/-- Whether an outcome has the next numbers of a generator for its trades. -/
abbrev Gives (tradeIds : IdGenerator) (outcome : Outcome) : Prop :=
  tradeIds.Gives (tradeIdsOf outcome.trades) outcome.tradeIds

theorem matchOrder_gives (wf : book.Wf) (tradeIds : IdGenerator) (order : Order) :
    Gives tradeIds (book.matchOrder tradeIds order) := by
  unfold matchOrder
  split
  · exact BookSide.matchOrder_gives wf.asks order tradeIds
  · exact BookSide.matchOrder_gives wf.bids order tradeIds

theorem unchanged_gives (book : OrderBook) (tradeIds : IdGenerator) (order : Order) :
    Gives tradeIds (book.unchanged tradeIds order) := tradeIds.gives_nil

theorem executeOrder_gives (wf : book.Wf) (tradeIds : IdGenerator) (order : Order) :
    Gives tradeIds (book.executeOrder tradeIds order) := by
  unfold executeOrder
  cases order.type with
  | MARKET =>
    dsimp only
    unfold marketOrder
    split
    · exact book.unchanged_gives tradeIds _
    · exact matchOrder_gives wf tradeIds order
  | FILL_AND_KILL =>
    dsimp only
    unfold fillAndKillOrder
    split
    · exact matchOrder_gives wf tradeIds order
    · exact book.unchanged_gives tradeIds _
  | LIMIT =>
    have matched : Gives tradeIds (if book.isCrossingOrder order then book.matchOrder tradeIds order
        else book.unchanged tradeIds order) := by
      split
      · exact matchOrder_gives wf tradeIds order
      · exact book.unchanged_gives tradeIds order
    dsimp only
    unfold limitOrder
    generalize (if book.isCrossingOrder order then book.matchOrder tradeIds order
      else book.unchanged tradeIds order) = outcome at matched ⊢
    dsimp only
    split
    · exact matched
    · exact matched

theorem addOrder_gives (wf : book.Wf) (orderIds tradeIds : IdGenerator) (order : Order) :
    Gives tradeIds (book.addOrder orderIds tradeIds order).1 := by
  by_cases own : order.symbol = book.symbol
  · rw [addOrder_own orderIds tradeIds own]
    exact executeOrder_gives wf tradeIds (book.prepared orderIds order)
  · rw [addOrder_foreign orderIds tradeIds own]
    exact book.unchanged_gives tradeIds order

end OrderBook

/-! ### The ids that a call gives -/

namespace ProcessCall

variable {Name : Type} (call : ProcessCall Name)

/-- The numbers of the trades of a call. -/
def tradeIds : List UInt64 := tradeIdsOf call.output.trades

/-- The id that a call gives to its order, if it gives one. -/
def orderIds : List OrderId := (assigned? call.call).toList

end ProcessCall

namespace Process

variable {Name : Type} [DecidableEq Name] {process : Process Name}

theorem step_tradeIds (wf : ∀ name, (process.books name).Wf) (request : Name × Request) :
    process.tradeIds.Gives (ProcessCall.tradeIds (Machine.transition step process request))
      (process.step request).1.tradeIds := by
  obtain ⟨name, call⟩ := request
  cases call with
  | addOrder order =>
    exact OrderBook.addOrder_gives (wf name) process.orderIds process.tradeIds order
  | removeOrder id => exact process.tradeIds.gives_nil

theorem step_orderIds (wf : ∀ name, (process.books name).Wf) (request : Name × Request) :
    process.orderIds.Gives (ProcessCall.orderIds (Machine.transition step process request))
      (process.step request).1.orderIds := by
  unfold ProcessCall.orderIds
  rw [ProcessCall.call_transition]
  cases given : assigned? (Machine.transition Session.step (process.session request.1) request.2)
    with
  | none =>
    have kept := Session.step_keeps_orderIds given
    have same : (process.step request).1.orderIds = process.orderIds := kept
    rw [same]
    exact process.orderIds.gives_nil
  | some id =>
    obtain ⟨own, next⟩ := Session.step_assigns (wf request.1) given
    have moved : (process.step request).1.orderIds = process.orderIds.generateId.2 := next
    rw [moved, own]
    exact process.orderIds.gives_singleton

theorem step_wf (wf : ∀ name, (process.books name).Wf) (request : Name × Request) :
    ∀ name, ((process.step request).1.books name).Wf := by
  intro name
  by_cases same : name = request.1
  · rw [same, step_book]
    exact (process.step_effect request (wf request.1)).wf (wf request.1)
  · rw [process.step_book_of_ne request same]
    exact wf name

/-! ### Runs -/

/-- Ids that the steps of a run give one by one are given one after the other. -/
theorem run_gives (ids : ProcessCall Name → List UInt64) (generator : Process Name → IdGenerator)
    (gives : ∀ (process : Process Name) request, (∀ name, (process.books name).Wf) →
      (generator process).Gives (ids (Machine.transition step process request))
        (generator (process.step request).1))
    (wf : ∀ name, (process.books name).Wf) (requests : List (Name × Request)) :
    (generator process).Gives ((Machine.run step process requests).flatMap ids)
      (generator (Machine.final step process requests)) := by
  induction requests generalizing process with
  | nil => exact (generator process).gives_nil
  | cons request rest inductionHypothesis =>
    exact (gives process request wf).append (inductionHypothesis (process.step_wf wf request))

variable (symbol : Name → String) (handlers : Name → Handlers) (orderIds tradeIds : IdGenerator)

/-- In every run of any books the trades have the numbers that follow the seed, in the order in
which they are published, and so have the orders that are given an id; they are distinct exactly
while the ring has not been gone around. -/
theorem ids_in_turn (requests : List (Name × Request)) :
    let calls : List (ProcessCall Name) :=
      Machine.run step (create symbol handlers orderIds tradeIds) requests
    let trades := calls.flatMap ProcessCall.tradeIds
    let orders := calls.flatMap ProcessCall.orderIds
    (trades = tradeIds.ids trades.length ∧ (trades.Nodup ↔ trades.length ≤ 2 ^ 64)) ∧
      orders = orderIds.ids orders.length ∧ (orders.Nodup ↔ orders.length ≤ 2 ^ 64) := by
  have wf : ∀ name, ((create symbol handlers orderIds tradeIds).books name).Wf := fun name =>
    OrderBook.create_wf (symbol name) (handlers name)
  have trades := run_gives ProcessCall.tradeIds Process.tradeIds
    (fun _ request good => step_tradeIds good request) wf requests
  have orders := run_gives ProcessCall.orderIds Process.orderIds
    (fun _ request good => step_orderIds good request) wf requests
  exact ⟨⟨trades.1, trades.nodup_iff⟩, orders.1, orders.nodup_iff⟩

end Process

end OrderForge
