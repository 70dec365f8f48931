/-
This file settles when the book is an ideal one. A book that holds nothing but open limit
orders with ids of their own differs from an ideal book in two things: the sweep for a
priced order does not stop at its limit, and a level whose counter wraps to zero is
dropped with its orders. So every state and every answer of a run are those of the ideal
book exactly when no sweep leaves the limit of its order and no counter wraps.
-/

import OrderForge.Exits
import OrderForge.IdealBook
import OrderForge.PriceProtection

namespace OrderForge

/-! ### What is compared -/

/-- The book without levels, counters and index. -/
def OrderBook.ideal (book : OrderBook) : IdealBook := ⟨book.symbol, book.orders⟩

/-- What a call says, but for the numbers of its trades. -/
def Response.answer (response : Response) : IdealAnswer where
  order := response.order
  trades := response.trades.map Trade.terms
  reports := response.events.filterMap Event.order?

/-- Whether a call does what it would do to the ideal book. -/
def Matches (call : Call) : Prop :=
  call.before.book.ideal.step call.input = (call.after.book.ideal, call.output.answer)

/-- Whether the sweep of a call stops at the limit of its order. -/
def WithinLimit (call : Call) : Prop :=
  match call.input with
  | .addOrder order => order.symbol = call.before.book.symbol → order.type ≠ .MARKET →
      call.before.book.CoversWithinLimit order
  | .removeOrder _ => True

instance : DecidablePred WithinLimit
  | ⟨before, .addOrder order, _, _⟩ =>
    inferInstanceAs (Decidable (order.symbol = before.book.symbol → order.type ≠ .MARKET →
      before.book.CoversWithinLimit order))
  | ⟨_, .removeOrder _, _, _⟩ => inferInstanceAs (Decidable True)

/-! ### The ladder -/

namespace Ladder

variable {before : Price → Price → Prop} [DecidableRel before] [IsStrictTotalOrder Price before]
  {quota : Nat} {orders : List Order}

/-- Serving a quota leaves what a greedy visit leaves exactly when no counter wraps. -/
theorem serve_eq_left_iff (sorted : Ranked.Sorted before Order.price orders)
    (positive : ∀ order ∈ orders, 0 < order.remaining) :
    serve before quota orders = Greedy.left Order.remaining Order.cut quota orders ↔
      ∀ order ∈ orders, ¬ Wraps before quota orders order.price := by
  refine ⟨fun same resting member wraps => ?_, serve_eq_left sorted positive⟩
  obtain ⟨front, last, back, split, price, begun, ends⟩ := exists_end_at sorted wraps.1 wraps.2.1
  have stays : ∃ kept ∈ Greedy.left Order.remaining Order.cut quota orders,
      kept.price = resting.price := by
    rw [split, Greedy.left_append]
    rcases Nat.eq_zero_or_pos (quota - Greedy.total Order.remaining front) with done | wanted
    · rw [done, Greedy.left_zero]
      exact ⟨last, List.mem_append_right _ List.mem_cons_self, price⟩
    · rw [Greedy.left_cons_of_lt Order.remaining Order.cut wanted back (by omega)]
      exact ⟨_, List.mem_append_right _ List.mem_cons_self, price⟩
  obtain ⟨kept, member, samePrice⟩ := stays
  rw [← same] at member
  have unpruned : ¬ Pruned before quota orders kept.price :=
    of_decide_eq_true (List.mem_filter.mp member).2
  rw [samePrice] at unpruned
  exact unpruned ⟨wraps.1, wraps.2.2⟩

/-- Pruning a price does nothing exactly when nothing is there or its counter has not wrapped. -/
theorem prune_eq_self_iff {price : Price} {orders : List Order} :
    prune price orders = orders ↔
      queue orders price = [] ∨ quantity orders price % 2 ^ 64 ≠ 0 :=
  ⟨fun same => or_iff_not_imp_right.mpr fun zero =>
    queue_eq_nil_of_prune (not_not.mp zero) same, prune_eq_self⟩

end Ladder

/-! ### Adding an order -/

namespace OrderBook

variable {book : OrderBook} {order : Order}

/-- The side that an order meets: first what it may trade with, then what is beyond its limit. -/
theorem Wf.ideal_split (wf : book.Wf) (order : Order) :
    book.ideal.counterparts order ++ book.ideal.beyond order = book.orders order.side.opposite := by
  refine Ranked.filter_append_filter_not ((wf.sorted order.side.opposite).imp
    fun notBetter trades => trades.imp_right fun accepted => ?_)
  exact Order.accepts_of_not_better accepted notBetter

/-- An order is matched exactly when there is something that it may trade with. -/
theorem marketable_iff_counterparts :
    book.Marketable order ↔ book.ideal.counterparts order ≠ [] := by
  have some : book.ideal.counterparts order ≠ [] ↔
      ∃ resting ∈ book.orders order.side.opposite, order.TradesAt resting.price := by
    rw [Ne, IdealBook.counterparts, List.filter_eq_nil_iff]
    simp [OrderBook.ideal]
  rw [some, Marketable]
  cases type : order.type with
  | MARKET =>
    constructor
    · intro nonempty
      obtain ⟨resting, member⟩ := List.exists_mem_of_ne_nil _ nonempty
      exact ⟨resting, member, Or.inl type⟩
    · rintro ⟨resting, member, -⟩
      exact List.ne_nil_of_mem member
  | LIMIT => simp [Order.TradesAt, type]
  | FILL_AND_KILL => simp [Order.TradesAt, type]

/-- A sweep stays within the limit exactly when it ends where the order may trade no more. -/
theorem covers_iff :
    (order.type ≠ .MARKET → book.CoversWithinLimit order) ↔
      book.ideal.counterparts order = [] ∨ book.ideal.beyond order = [] ∨
        order.remaining ≤ Greedy.total Order.remaining (book.ideal.counterparts order) := by
  by_cases market : order.type = .MARKET
  · refine iff_of_true (fun priced => absurd market priced) (Or.inr (Or.inl ?_))
    refine List.filter_eq_nil_iff.mpr fun resting _ => ?_
    simp [Order.TradesAt, market]
  · have tradesAt : order.TradesAt = order.accepts := by
      funext price
      simp [Order.TradesAt, market]
    simp [market, CoversWithinLimit, IdealBook.counterparts, IdealBook.beyond, tradesAt,
      OrderBook.ideal]

/-- A sweep that stays within the limit fills what the ideal book fills. -/
theorem Wf.ideal_fills (wf : book.Wf)
    (covers : order.type ≠ .MARKET → book.CoversWithinLimit order) :
    book.ideal.fills order = book.fills order := by
  by_cases serves : book.Marketable order
  · have ends := (covers_iff.mp covers).resolve_left (marketable_iff_counterparts.mp serves)
    rw [IdealBook.fills_eq (wf.ideal_split order) ends, fills, demand_of_marketable serves]
    rfl
  · rw [fills_of_not serves, IdealBook.fills,
      not_not.mp (serves ∘ marketable_iff_counterparts.mpr), Greedy.taken_nil]

/-- A sweep that stays within the limit leaves of the opposite side what the ideal book leaves. -/
theorem Wf.ideal_served (wf : book.Wf)
    (covers : order.type ≠ .MARKET → book.CoversWithinLimit order) :
    book.ideal.served order = Greedy.left Order.remaining Order.cut (book.demand order)
      (book.orders order.side.opposite) := by
  by_cases serves : book.Marketable order
  · have ends := (covers_iff.mp covers).resolve_left (marketable_iff_counterparts.mp serves)
    rw [IdealBook.served_eq (wf.ideal_split order) ends, demand_of_marketable serves]
    rfl
  · have nothing := not_not.mp (serves ∘ marketable_iff_counterparts.mpr)
    have split := wf.ideal_split order
    rw [nothing, List.nil_append] at split
    rw [IdealBook.served, nothing, split, demand_of_not serves, Greedy.left_nil, Greedy.left_zero,
      List.nil_append]

/-- With the same fills, a positive order comes back as it does from the ideal book. -/
theorem ideal_executed (positive : 0 < order.remaining)
    (fills : book.ideal.fills order = book.fills order) :
    book.ideal.executed order = book.processed order := by
  rw [IdealBook.executed, processed, afterFills, fills]
  by_cases none : book.fills order = []
  · have silent : order.type ≠ .LIMIT → ¬ book.Marketable order := by
      intro taker serves
      rw [OrderBook.fills, demand_of_marketable serves, Greedy.taken_eq_nil] at none
      have empty := none.resolve_left positive.ne'
      refine marketable_iff_counterparts.mp serves ?_
      simp [IdealBook.counterparts, OrderBook.ideal, empty]
    by_cases limit : order.type = .LIMIT <;> simp [none, limit, silent]
  · have serves : book.Marketable order := by
      by_contra silent
      exact none (fills_of_not silent)
    rw [if_neg none, if_neg none, if_neg fun both => both.2 serves]

/-- What is left of an open limit order is what comes to rest. -/
theorem rests_iff (positive : 0 < order.remaining) (opened : order.status = .OPEN) :
    book.Rests order ↔ order.type = .LIMIT ∧ 0 < (book.processed order).remaining := by
  refine ⟨fun rests => ⟨rests.1, processed_positive positive rests⟩, fun both => ⟨both.1, ?_⟩⟩
  have left := both.2
  rw [processed_remaining] at left
  rw [processed_of_limit both.1, afterFills]
  split_ifs
  · rw [opened]
    decide
  · rw [order.status_cut _ (sum_fills_le book order), if_neg (Nat.lt_of_sub_pos left).ne']
    decide

/-- The own side afterwards is that of the ideal book. -/
theorem Executed.ideal_rested {report : List Order} {outcome : Outcome}
    (executed : book.Executed order report outcome) (new : book.Absent order.orderId)
    (positive : 0 < order.remaining) (opened : order.status = .OPEN)
    (same : book.ideal.executed order = book.processed order) :
    outcome.book.orders order.side = book.ideal.rested order := by
  rw [executed.own, IdealBook.rested, same]
  refine ite_congr (propext (rests_iff positive opened)) (fun _ => ?_) fun _ => rfl
  rw [Ladder.rest, if_neg]
  · rfl
  · intro declined
    obtain ⟨other, queued, sameId⟩ := List.mem_map.mp declined
    exact new _ other (Ladder.mem_queue.mp queued).1 (sameId.trans (processed_orderId _ _))

/-- What the ideal book does with an order of its symbol. -/
theorem ideal_addOrder (own : order.symbol = book.symbol) :
    book.ideal.addOrder order =
      (⟨book.symbol, fun side => if side = order.side then book.ideal.rested order
        else book.ideal.served order⟩,
      { order := some (book.ideal.executed order)
        trades := (book.ideal.fills order).map (MatchingEngine.termsOf order)
        reports := ((book.ideal.fills order).map fun gave => gave.1.cut gave.2) ++
          [book.ideal.executed order] }) := if_pos own

/-- What an executed order says, when the handler of the order feed is installed. -/
theorem Executed.answer_eq {outcome : Outcome}
    (executed : book.Executed order [book.processed order] outcome)
    (installed : book.handlers.privateOrderUpdate = true) :
    Response.answer ⟨some outcome.order, outcome.trades, outcome.events⟩ =
      { order := some (book.processed order)
        trades := (book.fills order).map (MatchingEngine.termsOf order)
        reports := ((book.fills order).map fun gave => gave.1.cut gave.2) ++
          [book.processed order] } := by
  rw [Response.answer, executed.result, executed.trades, executed.orderFeed, if_pos installed]

/-- An open order with a new id whose sweep stays within the limit and makes no counter wrap does
what it does to the ideal book. -/
theorem Executed.matches_ {outcome : Outcome}
    (executed : book.Executed order [book.processed order] outcome) (wf : book.Wf)
    (own : order.symbol = book.symbol) (new : book.Absent order.orderId)
    (installed : book.handlers.privateOrderUpdate = true) (positive : 0 < order.remaining)
    (opened : order.status = .OPEN)
    (left : ∀ resting ∈ book.orders order.side.opposite, 0 < resting.remaining)
    (covers : order.type ≠ .MARKET → book.CoversWithinLimit order)
    (unwrapped : ∀ resting ∈ book.orders order.side.opposite,
      ¬ Ladder.Wraps order.side.opposite.Better (book.demand order)
        (book.orders order.side.opposite) resting.price) :
    book.ideal.addOrder order = (outcome.book.ideal,
      Response.answer ⟨some outcome.order, outcome.trades, outcome.events⟩) := by
  have fills := wf.ideal_fills covers
  have same := ideal_executed positive fills
  have ladder : (fun side => if side = order.side then book.ideal.rested order
      else book.ideal.served order) = outcome.book.orders := by
    funext side
    rcases Side.eq_or_eq_opposite side order.side with rfl | passive
    · rw [if_pos rfl, executed.ideal_rested new positive opened same]
    · rw [passive, if_neg order.side.opposite_ne, executed.passive, wf.ideal_served covers]
      exact (Ladder.serve_eq_left (wf.sorted _) left unwrapped).symm
  rw [ideal_addOrder own, executed.answer_eq installed, same, fills, ladder,
    OrderBook.ideal, executed.symbol]

/-- An order that does what it does to the ideal book trades within its limit and makes no counter
wrap. -/
theorem Executed.covers_of_matches {outcome : Outcome}
    (executed : book.Executed order [book.processed order] outcome) (wf : book.Wf)
    (own : order.symbol = book.symbol) (installed : book.handlers.privateOrderUpdate = true)
    (left : ∀ resting ∈ book.orders order.side.opposite, 0 < resting.remaining)
    (same : book.ideal.addOrder order = (outcome.book.ideal,
      Response.answer ⟨some outcome.order, outcome.trades, outcome.events⟩)) :
    (order.type ≠ .MARKET → book.CoversWithinLimit order) ∧
      ∀ resting ∈ book.orders order.side.opposite,
        ¬ Ladder.Wraps order.side.opposite.Better (book.demand order)
          (book.orders order.side.opposite) resting.price := by
  rw [ideal_addOrder own, executed.answer_eq installed] at same
  have covers : order.type ≠ .MARKET → book.CoversWithinLimit order := by
    intro priced
    have trades := congrArg (fun result => result.2.trades.map Trade.price) same
    have prices : (book.ideal.fills order).map (fun gave => gave.1.price) =
        (book.fills order).map fun gave => gave.1.price := by
      simpa [MatchingEngine.termsOf, Function.comp_def] using trades
    refine (fills_accepted_iff wf priced).mp ?_
    rw [← List.forall_mem_map (f := fun gave : Order × Nat => gave.1.price) (P := order.accepts),
      ← prices, List.forall_mem_map]
    exact fun gave member => IdealBook.accepts_of_mem_fills priced member
  refine ⟨covers, (Ladder.serve_eq_left_iff (wf.sorted _) left).mp ?_⟩
  have ladder := congrArg (fun result => result.1.ladder order.side.opposite) same
  rw [← executed.passive, ← wf.ideal_served covers]
  exact (ladder.symm.trans (if_neg order.side.opposite_ne))

end OrderBook

/-! ### Calls -/

namespace Session

section Step

variable {past : List Call} {session : Session} {result : Session × Response}

/-- A cancel does what it does to the ideal book exactly when no counter wraps. -/
theorem Effect.matches_remove_iff {id : OrderId} (effect : session.Effect (.removeOrder id) result)
    (wf : session.book.Wf) (tracked : Tracked past session) :
    Matches ⟨session, .removeOrder id, result.2, result.1⟩ ↔ session.book.CancelUnwrapped id := by
  cases effect with
  | unknown _ unknown =>
    have absent : session.book.Absent id := by
      intro side resting member same
      have entry := tracked.indexed side resting member
      rw [same, unknown] at entry
      cases entry
    refine iff_of_true ?_ ?_
    · refine Prod.ext (congrArg (IdealBook.mk _) (funext fun side => ?_)) rfl
      exact List.filter_eq_self.mpr fun resting member =>
        decide_eq_true (absent side resting member)
    · rw [OrderBook.CancelUnwrapped, unknown]
      trivial
  | removed _ helper after events found removed =>
    have ownId := wf.index_orderId found
    subst ownId
    have place : ∀ side, ∀ resting ∈ session.book.orders side,
        resting.orderId = helper.orderId → resting.price = helper.price ∧ helper.side = side := by
      intro side resting member same
      have entry := tracked.indexed side resting member
      rw [same, found, Option.some.injEq] at entry
      rw [entry]
      exact ⟨rfl, rfl⟩
    have own : ((session.book.orders helper.side).filter fun resting =>
        resting.orderId ≠ helper.orderId) =
        Ladder.without helper.price helper.orderId (session.book.orders helper.side) := by
      refine List.filter_congr fun resting member => decide_eq_decide.mpr (not_congr ?_)
      exact ⟨fun same => ⟨(place _ resting member same).1, same⟩, And.right⟩
    have other : ((session.book.orders helper.side.opposite).filter fun resting =>
        resting.orderId ≠ helper.orderId) = session.book.orders helper.side.opposite := by
      refine List.filter_eq_self.mpr fun resting member => decide_eq_true fun same => ?_
      exact helper.side.opposite_ne (place _ resting member same).2.symm
    have feed : Response.answer ⟨none, [], events⟩ = ⟨none, [], []⟩ := by
      rw [Response.answer, removed.orderFeed]
      rfl
    have books : Matches ⟨session, .removeOrder helper.orderId, ⟨none, [], events⟩, after⟩ ↔
        (fun side => (session.book.orders side).filter fun resting =>
          resting.orderId ≠ helper.orderId) = after.book.orders := by
      change ((⟨session.book.symbol, fun side => (session.book.orders side).filter fun resting =>
          resting.orderId ≠ helper.orderId⟩, ⟨none, [], []⟩) : IdealBook × IdealAnswer) =
        (⟨after.book.symbol, after.book.orders⟩, Response.answer ⟨none, [], events⟩) ↔ _
      rw [feed, removed.symbol, Prod.mk.injEq, IdealBook.mk.injEq]
      exact ⟨fun same => same.1.2, fun same => ⟨⟨rfl, same⟩, rfl⟩⟩
    rw [books, OrderBook.cancelUnwrapped_iff found, ← Ladder.prune_eq_self_iff]
    constructor
    · intro same
      have ladder := congrFun same helper.side
      rw [own, removed.own] at ladder
      exact ladder.symm
    · intro unpruned
      funext side
      rcases Side.eq_or_eq_opposite side helper.side with same | same
      · rw [same, own, removed.own]
        exact unpruned.symm
      · rw [same, other, removed.other]

/-- A call does what it does to the ideal book exactly when its sweep stays within the limit and
no counter wraps. -/
theorem Effect.matches_iff {request : Request} (effect : session.Effect request result)
    (wf : session.book.Wf) (tracked : Tracked past session)
    (fresh : ∀ order, request = .addOrder order → order.orderId ≠ 0 ∧ Fresh past order.orderId)
    (installed : session.book.handlers.privateOrderUpdate = true) (opened : request.Open)
    (positive : ∀ side, ∀ resting ∈ session.book.orders side, 0 < resting.remaining) :
    Matches ⟨session, request, result.2, result.1⟩ ↔
      WithinLimit ⟨session, request, result.2, result.1⟩ ∧
        Unwrapped ⟨session, request, result.2, result.1⟩ := by
  cases request with
  | removeOrder id => exact (effect.matches_remove_iff wf tracked).trans (and_iff_right trivial).symm
  | addOrder order =>
    cases effect with
    | foreign _ foreign =>
      refine iff_of_true (if_neg foreign) ⟨fun own => absurd own foreign, fun own => ?_⟩
      exact absurd own foreign
    | executed _ own after returned trades events executed =>
      obtain ⟨nonzero, unknown⟩ := fresh order rfl
      rw [prepared_eq_self own nonzero] at executed
      have some : 0 < order.remaining := Quantity.lt_iff.mp opened.1
      constructor
      · intro same
        obtain ⟨covers, unwrapped⟩ :=
          executed.covers_of_matches wf own installed (positive _) same
        exact ⟨fun _ => covers, fun _ => unwrapped⟩
      · rintro ⟨covers, unwrapped⟩
        exact executed.matches_ wf own (tracked.not_resting unknown) installed some opened.2
          (positive _) (covers own) (unwrapped own)

end Step

/-! ### Runs -/

variable {symbol : String} {handlers : Handlers} {orderIds tradeIds : IdGenerator}

theorem call_matches_iff (installed : handlers.privateOrderUpdate = true) {requests : List Request}
    (identified : Identified requests) (opened : ∀ request ∈ requests, request.Open) {call : Call}
    (member : call ∈ (create symbol handlers orderIds tradeIds).run requests) :
    Matches call ↔ WithinLimit call ∧ Unwrapped call := by
  have before := call_before member
  obtain ⟨wf, asked, effect⟩ := call_effect member
  obtain ⟨front, back, requestsEq, callEq⟩ := Machine.mem_run step member
  have split : requests = (front ++ [call.input]) ++ back := by
    rw [requestsEq, List.append_assoc, List.singleton_append]
  have inputs := Machine.run_inputs step (create symbol handlers orderIds tradeIds) front
  have allowed := (split ▸ identified).front
  obtain ⟨tracked, positive⟩ := @run_identified symbol handlers orderIds tradeIds
    (fun _ session => ∀ side, ∀ resting ∈ session.book.orders side, 0 < resting.remaining)
    (fun call => call.input.Positive)
    (fun side resting none => by cases side <;> cases none)
    (fun past session request result wf tracked fresh positive effect some =>
      effect.positive some positive)
    front allowed.front
    fun other inRun => (opened _ (split ▸ List.mem_append_left _
      (List.mem_append_left _ (call_effect inRun).2.1))).positive
  have beforeEq : call.before = (create symbol handlers orderIds tradeIds).final front :=
    congrArg Transition.before callEq
  rw [← beforeEq] at tracked positive
  refine effect.matches_iff wf tracked ?_ (before.2 ▸ installed) (opened _ asked) positive
  intro order adds
  rw [adds, ← inputs] at allowed
  exact allowed.fresh

/-- With the order handler installed, the states and the answers of a run of open orders with
distinct ids and of cancels are those of the ideal book exactly when no sweep leaves the limit of
its order and no counter wraps. -/
theorem run_ideal_iff (installed : handlers.privateOrderUpdate = true) {requests : List Request}
    (identified : Identified requests) (opened : ∀ request ∈ requests, request.Open) :
    (((create symbol handlers orderIds tradeIds).run requests).map fun call =>
        (call.after.book.ideal, call.output.answer)) =
      ((Machine.run IdealBook.step (IdealBook.create symbol) requests).map fun call =>
        (call.after, call.output)) ↔
      ∀ call ∈ (create symbol handlers orderIds tradeIds).run requests,
        WithinLimit call ∧ Unwrapped call := by
  have start : (create symbol handlers orderIds tradeIds).book.ideal = IdealBook.create symbol :=
    congrArg (IdealBook.mk symbol) (funext fun side => by cases side <;> rfl)
  have image := @Machine.run_image_iff _ _ _ step _ _ IdealBook.step
    (fun session => session.book.ideal) Response.answer
    (create symbol handlers orderIds tradeIds) requests
  rw [start] at image
  refine image.trans (forall_congr' fun call => forall_congr' fun member => ?_)
  exact call_matches_iff installed identified opened member

theorem run_ideal_day :
    ((sampleSession.run sampleDay).map fun call => (call.after.book.ideal, call.output.answer)) =
      (Machine.run IdealBook.step (IdealBook.create "AAPL") sampleDay).map fun call =>
        (call.after, call.output) :=
  (run_ideal_iff rfl (by decide) (by decide)).mpr (by decide)

end Session

end OrderForge
